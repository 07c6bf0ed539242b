import MongoWire.Bson.Datetime
import MongoWire.Bson.Encoded
import MongoWire.Bson.Total
import MongoWire.Lib.Base64
import MongoWire.Lib.Float64
import MongoWire.Lib.Tree

/-!
# Documents in logs

The rendering of `wirebson/src/encode.rs`: `log_document` and `log_array`, on one line or indented.
Both are layouts of one tree of texts. What `std` formats is a parameter, as far as it depends on
Unicode tables or on the shortest digits of a double.
-/

open MongoWire.Lib MongoWire.Lib.Outcome

namespace MongoWire

namespace Log

/-! ## The source -/

/-- A text, or a panic. -/
abbrev Text := Outcome Empty String

/-- What is left to `std`. -/
structure Std where
  /-- Whether `{:?}` writes a character as it is: printable, and no grapheme extender. -/
  plain : Char → Bool
  /-- `{}` of a finite double. -/
  display : UInt64 → String
  newline_not_mem_display : ∀ bits, '\n' ∉ (display bits).toList

/-- A formatter that escapes all but ASCII, and knows one number. -/
def Std.ascii : Std := ⟨fun c => c.toNat ∈ List.range' 32 95, fun _ => "1.5", fun _ => by decide⟩

variable (std : Std)

/-- `char::escape_debug` inside a string. -/
def escapeDebug (c : Char) : List Char :=
  if c = '\x00' then ['\\', '0']
  else if c = '\t' then ['\\', 't']
  else if c = '\r' then ['\\', 'r']
  else if c = '\n' then ['\\', 'n']
  else if c = '"' ∨ c = '\\' then ['\\', c]
  else if std.plain c then [c]
  else ['\\', 'u', '{'] ++ Nat.toDigits 16 c.toNat ++ ['}']

/-- `format!("{s:?}")`. -/
def quote (s : String) : String := .ofList ('"' :: s.toList.flatMap (escapeDebug std) ++ ['"'])

def formatF64 (bits : UInt64) : String :=
  let s := std.display bits
  if '.' ∈ s.toList then s else s ++ ".0"

def subtypeName : BinarySubtype → String
  | .generic => "generic"
  | .function => "function"
  | .binaryOld => "binary-old"
  | .uuidOld => "uuid-old"
  | .uuid => "uuid"
  | .md5 => "md5"
  | .encrypted => "encrypted"
  | .userDefined _ => "user"

/-- One round of the loop of `base64`, over a chunk of one to three bytes. -/
def base64Chunk (chunk : Bytes) : List Char :=
  let b0 := (chunk.getD 0 0).toUInt32
  let b1 := (chunk.getD 1 0).toUInt32
  let b2 := (chunk.getD 2 0).toUInt32
  let n := (b0 <<< 16) ||| (b1 <<< 8) ||| b2
  [Base64.digit ((n >>> 18).toNat &&& 63), Base64.digit ((n >>> 12).toNat &&& 63),
    if chunk.length > 1 then Base64.digit ((n >>> 6).toNat &&& 63) else '=',
    if chunk.length > 2 then Base64.digit (n.toNat &&& 63) else '=']

/-- The loop over `data.chunks(3)`. -/
def base64Chunks : Bytes → List Char
  | [] => []
  | [a] => base64Chunk [a]
  | [a, b] => base64Chunk [a, b]
  | a :: b :: c :: rest => base64Chunk [a, b, c] ++ base64Chunks rest

def base64 (data : Bytes) : String := .ofList (base64Chunks data)

def lbrace : String := .ofList ['{']

def rbrace : String := .ofList ['}']

/-- What `write_value` writes for a value that holds no others. -/
def leafText : Bson → Text
  | .double bits =>
    match Float64.ofBits bits with
    | .nan => .ok "NaN"
    | .infinity negative => .ok (if negative then "-Inf" else "+Inf")
    | .finite _ => .ok (formatF64 std bits)
  | .string s => .ok (quote std s)
  | .binary b => .ok ("Binary(" ++ subtypeName b.subtype ++ ":" ++ base64 b.bytes ++ ")")
  | .undefined => .ok "undefined"
  | .objectId id => .ok ("ObjectId('" ++ lowerHex id.val ++ "')")
  | .bool v => .ok (if v then "true" else "false")
  | .dateTime ms => Datetime.formatDatetime ms
  | .null => .ok "null"
  | .regex r => .ok ("/" ++ r.pattern ++ "/" ++ r.options)
  | .dbPointer p => .ok ("DbPointer(" ++ quote std p.ns ++ ", ObjectId('" ++ lowerHex p.id.val ++ "'))")
  | .javaScript code => .ok ("JavaScript(" ++ quote std code ++ ")")
  | .symbol s => .ok ("Symbol(" ++ quote std s ++ ")")
  | .javaScriptScope code scope =>
    .ok ("JavaScriptScope(" ++ lbrace ++ "code: " ++ quote std code ++ ", scope: RawDocument<" ++
      toString scope.bytes.length ++ ">" ++ rbrace ++ ")")
  | .int32 v => .ok (toString v.toInt)
  | .timestamp t =>
    .ok ("Timestamp(" ++ lbrace ++ "s: " ++ toString t.seconds.toNat ++ ", i: " ++
      toString t.increment.toNat ++ rbrace ++ ")")
  | .int64 v => .ok ("int64(" ++ toString v.toInt ++ ")")
  | .decimal128 d =>
    .ok ("Decimal128(H:" ++ toString (leNat (d.val.drop 8)) ++ ",L:" ++ toString (leNat (d.val.take 8)) ++
      ")")
  | .minKey => .ok "MinKey"
  | .maxKey => .ok "MaxKey"
  -- `write_value` takes these two arms out first.
  | .document _ => .panic
  | .array _ => .panic

def pushIndent (out : String) (level : Int) : String :=
  (List.replicate level.toNat "  ").foldl (· ++ ·) out

section Write

-- The constant `MAX_NESTING_DEPTH`.
variable (limit : Nat)

/-- What `write_document` and `write_array` share: brackets, and between them one of two loops. A
negative `indent` means one line. -/
def writeNode (l r : String) (isEmpty : Bool) (loop lines : String → Text) (out : String)
    (indent : Int) (depth : Nat) : Text :=
  if isEmpty then .ok (out ++ l ++ r) else
  if depth > limit then .ok (out ++ l ++ "..." ++ r) else
  if indent < 0 then do
    let out ← loop (out ++ l)
    return out ++ r
  else do
    let out ← lines (out ++ l ++ "\n")
    return pushIndent out indent ++ r

mutual

def writeDocument : (out : String) → Document → (indent : Int) → (depth : Nat) → Text
  | out, ⟨fields⟩, indent, depth =>
    writeNode limit lbrace rbrace fields.isEmpty (fun out => writeFields out fields indent depth)
      (fun out => writeFieldLines out fields indent depth) out indent depth

/-- The loop over the fields on one line. -/
def writeFields : (out : String) → List Field → (indent : Int) → (depth : Nat) → Text
  | out, [], _, _ => .ok out
  | out, ⟨name, value⟩ :: rest, indent, depth => do
    let out ← writeValue (out ++ quote std name ++ ": ") value indent (depth + 1)
    writeFields (if rest.isEmpty then out else out ++ ", ") rest indent depth

/-- The loop with a line for each field. -/
def writeFieldLines : (out : String) → List Field → (indent : Int) → (depth : Nat) → Text
  | out, [], _, _ => .ok out
  | out, ⟨name, value⟩ :: rest, indent, depth => do
    let out ← writeValue (pushIndent out (indent + 1) ++ quote std name ++ ": ") value (indent + 1)
      (depth + 1)
    writeFieldLines (out ++ ",\n") rest indent depth

def writeArray : (out : String) → BsonArray → (indent : Int) → (depth : Nat) → Text
  | out, ⟨values⟩, indent, depth =>
    writeNode limit "[" "]" values.isEmpty (fun out => writeElements out values indent depth)
      (fun out => writeElementLines out values indent depth) out indent depth

def writeElements : (out : String) → List Bson → (indent : Int) → (depth : Nat) → Text
  | out, [], _, _ => .ok out
  | out, value :: rest, indent, depth => do
    let out ← writeValue out value indent (depth + 1)
    writeElements (if rest.isEmpty then out else out ++ ", ") rest indent depth

def writeElementLines : (out : String) → List Bson → (indent : Int) → (depth : Nat) → Text
  | out, [], _, _ => .ok out
  | out, value :: rest, indent, depth => do
    let out ← writeValue (pushIndent out (indent + 1)) value (indent + 1) (depth + 1)
    writeElementLines (out ++ ",\n") rest indent depth

def writeValue : (out : String) → Bson → (indent : Int) → (depth : Nat) → Text
  | out, .document d, indent, depth => writeDocument out d indent depth
  | out, .array a, indent, depth => writeArray out a indent depth
  | out, other, _, _ => do return out ++ (← leafText std other)

end

end Write

def logDocument (d : Document) (indent : Bool) : Text :=
  writeDocument std maxNestingDepth "" d (if indent then 0 else -1) 1

def logArray (a : BsonArray) (indent : Bool) : Text :=
  writeArray std maxNestingDepth "" a (if indent then 0 else -1) 1

/-- `Display` of `ScalarError`. -/
def scalarErrorText : ScalarError → String
  | .shortInput needed got =>
    "unexpected end of input: needed " ++ toString needed ++ " byte(s), got " ++ toString got
  | .invalid tag reason => "invalid input for tag 0x" ++ lowerHex [tag] ++ ": " ++ reason
  | .utf8 => "invalid utf-8"
  | .outOfRange => "value out of range for the requested type"
  | .notConvertible => "cannot convert this scalar kind to the requested type"

/-- `Display` of `wirebson::Error`. -/
def errorText : BsonError → String
  | .shortInput needed got =>
    "unexpected end of input: needed " ++ toString needed ++ " byte(s), got " ++ toString got
  | .invalidInput offset reason => "invalid input at offset " ++ toString offset ++ ": " ++ reason
  | .lengthMismatch declared actual =>
    "length mismatch: declared " ++ toString declared ++ ", actual " ++ toString actual
  | .utf8 => "invalid utf-8"
  | .nestedTooDeep max => "nesting too deep (max " ++ toString max ++ ")"
  | .scalar e => scalarErrorText e

/-- `Display` of `RawDocument`, where `alternate` is `#`. -/
def fmtRaw (raw : RawDocument) (alternate : Bool) : Text :=
  match raw.shallow with
  | .ok doc => logDocument std doc alternate
  | .err e => .ok ("<invalid document: " ++ errorText e ++ ">")
  | .panic => .panic
  | .hang => .hang

/-! ## The tree of a value -/

/-- The text of a value that holds no others. -/
def leaf (v : Bson) : String :=
  match leafText std v with
  | .ok text => text
  | _ => ""

theorem exists_formatDatetime (ms : Int64) :
    ∃ p, (Datetime.formatDatetime ms : Text) = .ok (Datetime.formatParts p) := by
  obtain ⟨hlo, hhi⟩ := (IntType.holds_i64 _).mp (IntType.holds_toInt ms)
  obtain ⟨date, hdate, -⟩ := @Datetime.civilFromDays_eq_ok Empty (ms.toInt / 1000 / 86400)
    (by omega) (by omega)
  unfold Datetime.formatDatetime Datetime.datetimeParts
  simp only [hdate, ok_bind, pure_eq]
  exact ⟨_, rfl⟩

theorem leafText_ofScalar (s : Scalar) :
    leafText std (.ofScalar s) = .ok (leaf std (.ofScalar s)) := by
  cases s with
  | dateTime ms =>
    obtain ⟨p, hp⟩ := exists_formatDatetime ms
    simp only [leaf, Bson.ofScalar, leafText, hp]
  | double bits =>
    simp only [leaf, Bson.ofScalar, leafText]
    cases Float64.ofBits bits <;> rfl
  | _ => rfl

section Layouts

variable (limit : Nat)

def nodeTree (l r : String) (isEmpty : Bool) (items : Forest) (depth : Nat) : Tree :=
  if isEmpty then .leaf (l ++ r) else
  if depth > limit then .leaf (l ++ "..." ++ r) else .node l r items

mutual

def documentTree : Document → (depth : Nat) → Tree
  | ⟨fields⟩, depth => nodeTree limit lbrace rbrace fields.isEmpty (fieldTrees fields depth) depth

def fieldTrees : List Field → (depth : Nat) → Forest
  | [], _ => .nil
  | ⟨name, value⟩ :: rest, depth =>
    .cons (quote std name ++ ": ") (valueTree value (depth + 1)) (fieldTrees rest depth)

def arrayTree : BsonArray → (depth : Nat) → Tree
  | ⟨values⟩, depth => nodeTree limit "[" "]" values.isEmpty (elementTrees values depth) depth

def elementTrees : List Bson → (depth : Nat) → Forest
  | [], _ => .nil
  | value :: rest, depth => .cons "" (valueTree value (depth + 1)) (elementTrees rest depth)

def valueTree : Bson → (depth : Nat) → Tree
  | .document d, depth => documentTree d depth
  | .array a, depth => arrayTree a depth
  | other, _ => .leaf (leaf std other)

end

theorem valueTree_ofScalar (s : Scalar) (depth : Nat) :
    valueTree std limit (.ofScalar s) depth = .leaf (leaf std (.ofScalar s)) := by
  cases s <;> rfl

/-! ## Writing is laying out -/

/-- How `indent` lays a tree out. -/
def layOut (indent : Int) (tree : Tree) : String :=
  if indent < 0 then tree.compact else tree.indented indent.toNat

theorem layOut_leaf (indent : Int) (text : String) : layOut indent (.leaf text) = text := by
  unfold layOut
  split <;> rfl

theorem pushIndent_eq (out : String) (level : Int) : pushIndent out level = out ++ pad level.toNat := by
  unfold pushIndent
  generalize level.toNat = n
  induction n generalizing out with
  | zero => simp [pad]
  | succ n ih =>
    rw [List.replicate_succ, List.foldl_cons, ih, String.append_assoc]
    rfl

variable {limit} in
theorem writeNode_eq {loop lines : String → Text} {items : Forest} {indent : Int}
    (hloop : indent < 0 → ∀ out, loop out = .ok (out ++ items.compact))
    (hlines : 0 ≤ indent → ∀ out, lines out = .ok (out ++ items.lines (indent.toNat + 1)))
    (l r : String) (isEmpty : Bool) (out : String) (depth : Nat) :
    writeNode limit l r isEmpty loop lines out indent depth =
      .ok (out ++ layOut indent (nodeTree limit l r isEmpty items depth)) := by
  unfold writeNode nodeTree
  split_ifs with hempty hdepth hindent
  · rw [layOut_leaf, String.append_assoc]
  · rw [layOut_leaf, String.append_assoc, String.append_assoc, String.append_assoc]
  · rw [hloop hindent, ok_bind, pure_eq, layOut, if_pos hindent]
    simp [Tree.compact, String.append_assoc]
  · rw [hlines (by omega), ok_bind, pure_eq, layOut, if_neg hindent, pushIndent_eq]
    simp [Tree.indented, String.append_assoc]

theorem separator_fieldTrees (fs : List Field) (depth : Nat) :
    (fieldTrees std limit fs depth).separator = if fs.isEmpty then "" else ", " := by
  rcases fs with _ | ⟨⟨_, _⟩, _⟩ <;> rfl

theorem separator_elementTrees (vs : List Bson) (depth : Nat) :
    (elementTrees std limit vs depth).separator = if vs.isEmpty then "" else ", " := by
  cases vs <;> rfl

theorem append_ite_empty (b : Bool) (s t : String) :
    (if b then s else s ++ t) = s ++ (if b then "" else t) := by
  cases b <;> simp

theorem write_eq :
    (∀ v : Bson, ∀ out indent depth, writeValue std limit out v indent depth =
      .ok (out ++ layOut indent (valueTree std limit v depth))) ∧
    (∀ fs : List Field, ∀ indent depth,
      (indent < 0 → ∀ out, writeFields std limit out fs indent depth =
        .ok (out ++ (fieldTrees std limit fs depth).compact)) ∧
      (0 ≤ indent → ∀ out, writeFieldLines std limit out fs indent depth =
        .ok (out ++ (fieldTrees std limit fs depth).lines (indent.toNat + 1)))) ∧
    ∀ vs : List Bson, ∀ indent depth,
      (indent < 0 → ∀ out, writeElements std limit out vs indent depth =
        .ok (out ++ (elementTrees std limit vs depth).compact)) ∧
      (0 ≤ indent → ∀ out, writeElementLines std limit out vs indent depth =
        .ok (out ++ (elementTrees std limit vs depth).lines (indent.toNat + 1))) := by
  apply Bson.induction
  case document =>
    intro fs ih out indent depth
    exact writeNode_eq (ih indent depth).1 (ih indent depth).2 _ _ _ out depth
  case array =>
    intro vs ih out indent depth
    exact writeNode_eq (ih indent depth).1 (ih indent depth).2 _ _ _ out depth
  case scope =>
    intro code s out indent depth
    exact congrArg _ (congrArg _ (layOut_leaf ..).symm)
  case scalar =>
    intro s out indent depth
    have h : writeValue std limit out (.ofScalar s) indent depth =
        do return out ++ (← leafText std (.ofScalar s)) := by
      cases s <;> rfl
    rw [h, leafText_ofScalar, ok_bind, pure_eq, valueTree_ofScalar, layOut_leaf]
  case noFields =>
    exact fun _ _ => ⟨fun _ out => congrArg _ out.append_empty.symm, fun _ out => congrArg _ out.append_empty.symm⟩
  case field =>
    intro name v fs ihv ihfs indent depth
    constructor
    · intro hindent out
      rw [writeFields, ihv, ok_bind, append_ite_empty, (ihfs indent depth).1 hindent, layOut, if_pos hindent,
        fieldTrees, Forest.compact, separator_fieldTrees]
      simp only [String.append_assoc]
    · intro hindent out
      rw [writeFieldLines, ihv, ok_bind, (ihfs indent depth).2 hindent, layOut, if_neg (by omega), pushIndent_eq,
        fieldTrees, Forest.lines, Int.toNat_add hindent (by omega)]
      simp only [String.append_assoc, Int.toNat_one]
  case noValues =>
    exact fun _ _ => ⟨fun _ out => congrArg _ out.append_empty.symm, fun _ out => congrArg _ out.append_empty.symm⟩
  case element =>
    intro v vs ihv ihvs indent depth
    constructor
    · intro hindent out
      rw [writeElements, ihv, ok_bind, append_ite_empty, (ihvs indent depth).1 hindent, layOut, if_pos hindent,
        elementTrees, Forest.compact, separator_elementTrees]
      simp only [String.append_assoc, String.empty_append]
    · intro hindent out
      rw [writeElementLines, ihv, ok_bind, (ihvs indent depth).2 hindent, layOut, if_neg (by omega), pushIndent_eq,
        elementTrees, Forest.lines, Int.toNat_add hindent (by omega)]
      simp only [String.append_assoc, String.empty_append, Int.toNat_one]

end Layouts

theorem logDocument_eq (d : Document) (indent : Bool) : logDocument std d indent =
    .ok (layOut (if indent then 0 else -1) (documentTree std maxNestingDepth d 1)) :=
  ((write_eq std maxNestingDepth).1 (.document d) "" _ 1).trans (by rw [String.empty_append]; rfl)

theorem logArray_eq (a : BsonArray) (indent : Bool) : logArray std a indent =
    .ok (layOut (if indent then 0 else -1) (arrayTree std maxNestingDepth a 1)) :=
  ((write_eq std maxNestingDepth).1 (.array a) "" _ 1).trans (by rw [String.empty_append]; rfl)

theorem fmtRaw_cases (raw : RawDocument) : (∃ d, fmtRaw std raw = logDocument std d) ∨
    ∃ text, ∀ alternate, fmtRaw std raw alternate = .ok text := by
  have hreturns := raw.returns_decode .shallow
  unfold fmtRaw RawDocument.shallow
  cases hdec : raw.decode .shallow with
  | ok d => exact .inl ⟨d, rfl⟩
  | err e => exact .inr ⟨_, fun _ => rfl⟩
  | panic => rw [hdec] at hreturns; exact hreturns.elim
  | hang => rw [hdec] at hreturns; exact hreturns.elim

theorem exists_fmtRaw (raw : RawDocument) (alternate : Bool) :
    ∃ text, fmtRaw std raw alternate = .ok text := by
  rcases fmtRaw_cases std raw with ⟨d, h⟩ | ⟨text, h⟩
  · exact ⟨_, by rw [h, logDocument_eq]⟩
  · exact ⟨text, h alternate⟩

/-- Two renderings, on one line and indented, that return and show the same. -/
def ShowsAlike (render : Bool → Text) : Prop :=
  ∃ text lines, render false = .ok text ∧ render true = .ok lines ∧ ink lines = ink text

/-- **Both renderings show the same.** Rendering a document, an array or the bytes of a message never
panics, and the indented text differs from the one on one line only in blanks, line breaks and
commas. -/
theorem renderings_show_alike :
    (∀ d, ShowsAlike (logDocument std d)) ∧ (∀ a, ShowsAlike (logArray std a)) ∧
      ∀ raw, ShowsAlike (fmtRaw std raw) := by
  have hdoc (d : Document) : ShowsAlike (logDocument std d) :=
    ⟨_, _, logDocument_eq std d false, logDocument_eq std d true, Tree.ink_indented _ 0⟩
  refine ⟨hdoc, fun a => ?_, fun raw => ?_⟩
  · exact ⟨_, _, logArray_eq std a false, logArray_eq std a true, Tree.ink_indented _ 0⟩
  · rcases fmtRaw_cases std raw with ⟨d, h⟩ | ⟨text, h⟩
    · rw [h]
      exact hdoc d
    · exact ⟨text, text, h false, h true, rfl⟩

example :
    (logDocument .ascii ⟨[⟨"a", .int32 1⟩, ⟨"d", .document ⟨[⟨"b", .bool true⟩]⟩⟩]⟩ true,
      logArray .ascii ⟨[.objectId ⟨List.replicate 12 0xab, rfl⟩, .regex ⟨"p", "o"⟩, .document ⟨[]⟩,
        .binary ⟨.userDefined 0x80, [104, 105]⟩]⟩ false) =
    (.ok (lbrace ++ "\n  \"a\": 1,\n  \"d\": " ++ lbrace ++ "\n    \"b\": true,\n  " ++ rbrace ++ ",\n" ++
        rbrace),
      .ok "[ObjectId('abababababababababababab'), /p/o, {}, Binary(user:aGk=)]") := by
  decide +kernel

/-! ## Nothing is cut off -/

theorem tree_of_depth_le {limit limit' : Nat} (hlimit : limit ≤ limit') :
    (∀ v : Bson, ∀ depth, v.depth + depth ≤ limit + 1 →
      valueTree std limit' v depth = valueTree std limit v depth) ∧
    (∀ fs : List Field, ∀ depth, fieldsDepth fs + depth ≤ limit →
      fieldTrees std limit' fs depth = fieldTrees std limit fs depth) ∧
    ∀ vs : List Bson, ∀ depth, valuesDepth vs + depth ≤ limit →
      elementTrees std limit' vs depth = elementTrees std limit vs depth := by
  have hnode {items items' : Forest} {depth : Nat} (hdepth : depth ≤ limit) (h : items' = items)
      (l r : String) (isEmpty : Bool) :
      nodeTree limit' l r isEmpty items' depth = nodeTree limit l r isEmpty items depth := by
    unfold nodeTree
    rw [if_neg (show ¬ depth > limit' by omega), if_neg (show ¬ depth > limit by omega), h]
  apply Bson.induction
  case document =>
    intro fs ih depth h
    have h' : fieldsDepth fs + 1 + depth ≤ limit + 1 := h
    exact hnode (by omega) (ih depth (by omega)) ..
  case array =>
    intro vs ih depth h
    have h' : valuesDepth vs + 1 + depth ≤ limit + 1 := h
    exact hnode (by omega) (ih depth (by omega)) ..
  case scope => exact fun _ _ _ _ => rfl
  case scalar => exact fun s depth _ => by rw [valueTree_ofScalar, valueTree_ofScalar]
  case noFields => exact fun _ _ => rfl
  case field =>
    intro name v fs ihv ihfs depth h
    have h' : max v.depth (fieldsDepth fs) + depth ≤ limit := h
    rw [fieldTrees, fieldTrees, ihv (depth + 1) (by omega), ihfs depth (by omega)]
  case noValues => exact fun _ _ => rfl
  case element =>
    intro v vs ihv ihvs depth h
    have h' : max v.depth (valuesDepth vs) + depth ≤ limit := h
    rw [elementTrees, elementTrees, ihv (depth + 1) (by omega), ihvs depth (by omega)]

/-- **Nothing that was decoded is cut off.** The limit of the decoder keeps every document within the
limit of the rendering: with any larger limit the text is the same. -/
theorem decoded_is_rendered_in_full {raw : RawDocument} {d : Document} (h : raw.deep = .ok d)
    {limit : Nat} (hlimit : maxNestingDepth ≤ limit) (indent : Bool) :
    fmtRaw std raw indent = writeDocument std limit "" d (if indent then 0 else -1) 1 := by
  have hdepth := RawDocument.depth_of_deep h
  have htree : documentTree std limit d 1 = documentTree std maxNestingDepth d 1 :=
    (tree_of_depth_le std hlimit).1 (.document d) 1 (Nat.succ_le_succ hdepth)
  unfold fmtRaw
  rw [raw.shallow_eq_deep, h]
  refine (logDocument_eq std d indent).trans ?_
  rw [← htree]
  exact (((write_eq std limit).1 (.document d) "" _ 1).trans (by rw [String.empty_append]; rfl)).symm

theorem decoded_is_rendered_in_full_nested :
    fmtRaw .ascii (.ofFramed [16, 0, 0, 0, 3, 97, 0, 8, 0, 0, 0, 10, 98, 0, 0, 0] (by decide)) true =
      writeDocument .ascii 100 "" ⟨[⟨"a", .document ⟨[⟨"b", .null⟩]⟩⟩]⟩ 0 1 :=
  -- `{"a": {"b": null}}`, in the indented form.
  decoded_is_rendered_in_full .ascii rfl (by decide) true

/-! ## Base64 -/

theorem toNat_word (a b c : UInt8) :
    ((a.toUInt32 <<< 16) ||| (b.toUInt32 <<< 8) ||| c.toUInt32).toNat =
      a.toNat * 65536 + b.toNat * 256 + c.toNat := by
  have ha := a.toNat_lt
  have hb := b.toNat_lt
  have hc := c.toNat_lt
  have h16 : (a.toUInt32 <<< 16).toNat = a.toNat <<< 16 := by
    simp [Nat.shiftLeft_eq]
    omega
  have h8 : (b.toUInt32 <<< 8).toNat = b.toNat <<< 8 := by
    simp [Nat.shiftLeft_eq]
    omega
  rw [UInt32.toNat_or, UInt32.toNat_or, h16, h8, Nat.or_assoc, UInt8.toNat_toUInt32,
    ← Nat.shiftLeft_add_eq_or_of_lt (show c.toNat < 2 ^ 8 by omega),
    ← Nat.shiftLeft_add_eq_or_of_lt (show b.toNat <<< 8 + c.toNat < 2 ^ 16 by
      rw [Nat.shiftLeft_eq]; omega),
    Nat.shiftLeft_eq, Nat.shiftLeft_eq]
  omega

theorem and_63 (n : Nat) : n &&& 63 = n % 64 := Nat.and_two_pow_sub_one_eq_mod n 6

theorem digits_word (a b c : UInt8) :
    let n := (a.toUInt32 <<< 16) ||| (b.toUInt32 <<< 8) ||| c.toUInt32
    (n >>> 18).toNat &&& 63 = a.toNat / 4 ∧ (n >>> 12).toNat &&& 63 = a.toNat % 4 * 16 + b.toNat / 16 ∧
    (n >>> 6).toNat &&& 63 = b.toNat % 16 * 4 + c.toNat / 64 ∧ n.toNat &&& 63 = c.toNat % 64 := by
  intro n
  have hn : n.toNat = _ := toNat_word a b c
  have ha := a.toNat_lt
  have hb := b.toNat_lt
  have hc := c.toNat_lt
  have h18 : (n >>> 18).toNat = n.toNat / 2 ^ 18 :=
    (UInt32.toNat_shiftRight n 18).trans (Nat.shiftRight_eq_div_pow _ _)
  have h12 : (n >>> 12).toNat = n.toNat / 2 ^ 12 :=
    (UInt32.toNat_shiftRight n 12).trans (Nat.shiftRight_eq_div_pow _ _)
  have h6 : (n >>> 6).toNat = n.toNat / 2 ^ 6 :=
    (UInt32.toNat_shiftRight n 6).trans (Nat.shiftRight_eq_div_pow _ _)
  rw [and_63, and_63, and_63, and_63, h18, h12, h6, hn]
  omega

theorem base64Chunks_eq (data : Bytes) : base64Chunks data = Base64.encodeChars data := by
  induction data using Base64.encodeChars.induct with
  | case1 => rfl
  | case2 a =>
    obtain ⟨h0, h1, -⟩ := digits_word a 0 0
    rw [Base64.encodeChars, ← h0, ← Nat.add_zero (a.toNat % 4 * 16)]
    exact congrArg (fun x => [_, Base64.digit x, '=', '=']) h1
  | case3 a b =>
    obtain ⟨h0, h1, h2, -⟩ := digits_word a b 0
    rw [Base64.encodeChars, ← h0, ← h1, ← Nat.add_zero (b.toNat % 16 * 4)]
    exact congrArg (fun x => [_, _, Base64.digit x, '=']) h2
  | case4 a b c rest ih =>
    obtain ⟨h0, h1, h2, h3⟩ := digits_word a b c
    rw [base64Chunks, Base64.encodeChars, ih, ← h0, ← h1, ← h2, ← h3]
    rfl

theorem base64_eq (data : Bytes) : base64 data = Base64.encode data :=
  congrArg String.ofList (base64Chunks_eq data)

/-- **The base64 of the logs is the standard one.** The bytes of a binary value are read back from
what the log shows of them. -/
theorem decode_base64 (data : Bytes) : Base64.decode (base64 data) = some data := by
  rw [base64_eq, Base64.decode_encode]

end Log

end MongoWire
