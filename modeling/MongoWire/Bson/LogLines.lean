import MongoWire.Bson.Log
import MongoWire.Lib.Str

/-!
# Line breaks in logs

Strings are escaped, and numbers, dates and bytes have no line breaks. A regular expression is
written as it came: it alone can break the line of a log.
-/

open MongoWire.Lib MongoWire.Lib.Outcome

namespace MongoWire

/-! ## The regular expressions of a document -/

mutual

def Document.regexes : Document → List Regex
  | ⟨fields⟩ => fieldsRegexes fields

def fieldsRegexes : List Field → List Regex
  | [] => []
  | ⟨_, value⟩ :: rest => value.regexes ++ fieldsRegexes rest

def BsonArray.regexes : BsonArray → List Regex
  | ⟨values⟩ => valuesRegexes values

def valuesRegexes : List Bson → List Regex
  | [] => []
  | value :: rest => value.regexes ++ valuesRegexes rest

def Bson.regexes : Bson → List Regex
  | .document d => d.regexes
  | .array a => a.regexes
  | .regex r => [r]
  | _ => []

end

namespace Log

/-- A text without a line break. -/
def Line (s : String) : Prop := '\n' ∉ s.toList

instance (s : String) : Decidable (Line s) := inferInstanceAs (Decidable (_ ∉ _))

@[simp] theorem line_append (s t : String) : Line (s ++ t) ↔ Line s ∧ Line t := by
  simp [Line]

/-! ## Texts without line breaks -/

theorem line_natText (n : Nat) : Line (toString n) := by
  unfold Line
  rw [Str.toList_toString]
  exact Str.not_mem_toDigits rfl n

theorem line_intText (n : Int) : Line (toString n) := by
  cases n with
  | ofNat n => exact line_natText n
  | negSucc n => exact (line_append "-" _).mpr ⟨by decide, line_natText (n + 1)⟩

theorem newline_ne_digitChar : ∀ n < 16, '\n' ≠ Nat.digitChar n := by decide

theorem line_hex (bytes : Bytes) : Line (lowerHex bytes) := by
  unfold Line lowerHex
  simp only [String.toList_ofList, List.mem_flatMap, List.mem_cons, List.not_mem_nil, or_false]
  rintro ⟨b, -, h⟩
  have hb := b.toNat_lt
  rcases h with h | h
  · exact newline_ne_digitChar _ (by omega) h
  · exact newline_ne_digitChar _ (by omega) h

theorem newline_not_mem_hexDigits (n : Nat) : '\n' ∉ Nat.toDigits 16 n := by
  induction n using Nat.strong_induction_on with
  | _ n ih =>
    rw [Nat.toDigits_eq_if (by decide)]
    split_ifs with hlt
    · simp [newline_ne_digitChar n hlt]
    · simp [ih (n / 16) (by omega), newline_ne_digitChar (n % 16) (by omega)]

theorem line_base64 (data : Bytes) : Line (base64 data) := by
  rw [base64_eq]
  exact Base64.not_mem_encode (by decide) data

theorem line_zeroPadded (width : Nat) (n : Int) : Line (Datetime.zeroPadded width n) := by
  have hzeros (k : Nat) : Line (.ofList (.replicate k '0')) := by
    simp [Line, List.mem_replicate]
  unfold Datetime.zeroPadded
  refine (line_append _ _).mpr ⟨(line_append _ _).mpr ⟨?_, hzeros _⟩, line_natText _⟩
  split <;> decide

theorem line_formatParts (p : Datetime.Parts) : Line (Datetime.formatParts p) := by
  have hmillis : Line (if p.millis = 0 then "Z" else "." ++ Datetime.zeroPadded 3 p.millis ++ "Z") := by
    split
    · decide
    · simp [line_zeroPadded, show Line "." by decide, show Line "Z" by decide]
  simp [Datetime.formatParts, line_zeroPadded, hmillis, show Line "-" by decide, show Line "T" by decide,
    show Line ":" by decide]

variable (std : Std)

theorem newline_not_mem_escapeDebug (c : Char) : '\n' ∉ escapeDebug std c := by
  unfold escapeDebug
  split_ifs with h0 ht hr hn hquote hplain
  · decide
  · decide
  · decide
  · decide
  · simp [Ne.symm hn]
  · simp [Ne.symm hn]
  · simp [newline_not_mem_hexDigits]

theorem line_quote (s : String) : Line (quote std s) := by
  simp [Line, quote, newline_not_mem_escapeDebug]

theorem line_formatF64 (bits : UInt64) : Line (formatF64 std bits) := by
  unfold formatF64
  dsimp only
  split
  · exact std.newline_not_mem_display bits
  · exact (line_append _ _).mpr ⟨std.newline_not_mem_display bits, by decide⟩

theorem line_subtypeName (subtype : BinarySubtype) : Line (subtypeName subtype) := by
  cases subtype with
  | userDefined _ => exact (by decide : Line "user")
  | _ => decide

/-! ## Leaves -/

/-- A regular expression that breaks the line it is written on. -/
def Breaks (r : Regex) : Prop := '\n' ∈ r.pattern.toList ∨ '\n' ∈ r.options.toList

theorem line_leaf_regex (r : Regex) : Line (leaf std (.regex r)) ↔ ¬ Breaks r := by
  show Line ("/" ++ r.pattern ++ "/" ++ r.options) ↔ _
  simp [Breaks, show Line "/" by decide]
  rfl

theorem line_leaf_of_ne {s : Scalar} (h : ∀ r, s ≠ .regex r) : Line (leaf std (.ofScalar s)) := by
  cases s with
  | regex r => exact absurd rfl (h r)
  | double bits =>
    simp only [leaf, Bson.ofScalar, leafText]
    cases Float64.ofBits bits with
    | nan => exact (by decide : Line "NaN")
    | infinity negative =>
      show Line (if negative then "-Inf" else "+Inf")
      split <;> decide
    | finite => exact line_formatF64 std bits
  | dateTime ms =>
    obtain ⟨p, hp⟩ := exists_formatDatetime ms
    simp only [leaf, Bson.ofScalar, leafText, hp]
    exact line_formatParts p
  | string s => exact line_quote std s
  | bool v =>
    show Line (if v then "true" else "false")
    split <;> decide
  | int32 v => exact line_intText _
  | _ =>
    simp only [leaf, Bson.ofScalar, leafText, line_append, line_quote, line_hex, line_base64, line_natText,
      line_intText, line_subtypeName]
    decide

theorem line_scope (code : String) (scope : RawDocument) :
    Line (leaf std (.javaScriptScope code scope)) := by
  simp only [leaf, leafText, line_append, line_quote, line_natText]
  decide

theorem line_leaf (s : Scalar) :
    Line (leaf std (.ofScalar s)) ↔ ∀ r ∈ (Bson.ofScalar s).regexes, ¬ Breaks r := by
  by_cases h : ∃ r, s = .regex r
  · obtain ⟨r, rfl⟩ := h
    show _ ↔ ∀ r' ∈ [r], ¬ Breaks r'
    rw [List.forall_mem_singleton]
    exact line_leaf_regex std r
  · rw [not_exists] at h
    have hnone : (Bson.ofScalar s).regexes = [] := by
      cases s with
      | regex r => exact absurd rfl (h r)
      | _ => rfl
    rw [hnone]
    exact iff_of_true (line_leaf_of_ne std h) (List.forall_mem_nil _)

/-! ## Trees -/

theorem lines_tree {limit : Nat} :
    (∀ v : Bson, ∀ depth, v.depth + depth ≤ limit + 1 →
      ((∀ s ∈ (valueTree std limit v depth).texts, Line s) ↔ ∀ r ∈ v.regexes, ¬ Breaks r)) ∧
    (∀ fs : List Field, ∀ depth, fieldsDepth fs + depth ≤ limit →
      ((∀ s ∈ (fieldTrees std limit fs depth).texts, Line s) ↔ ∀ r ∈ fieldsRegexes fs, ¬ Breaks r)) ∧
    ∀ vs : List Bson, ∀ depth, valuesDepth vs + depth ≤ limit →
      ((∀ s ∈ (elementTrees std limit vs depth).texts, Line s) ↔ ∀ r ∈ valuesRegexes vs, ¬ Breaks r) := by
  have hnode {items : Forest} {depth : Nat} (hdepth : depth ≤ limit) {rs : List Regex}
      (h : (∀ s ∈ items.texts, Line s) ↔ ∀ r ∈ rs, ¬ Breaks r) {l r : String} (hl : Line l) (hr : Line r)
      {isEmpty : Bool} (hempty : isEmpty = true → rs = []) :
      (∀ s ∈ (nodeTree limit l r isEmpty items depth).texts, Line s) ↔ ∀ r ∈ rs, ¬ Breaks r := by
    unfold nodeTree
    rw [if_neg (show ¬ depth > limit by omega)]
    split
    · rw [hempty ‹_›]
      exact iff_of_true (List.forall_mem_singleton.mpr ((line_append l r).mpr ⟨hl, hr⟩))
        (List.forall_mem_nil _)
    · simpa [Tree.texts, hl, hr, or_imp, forall_and] using h
  apply Bson.induction
  case document =>
    intro fs ih depth h
    have h' : fieldsDepth fs + 1 + depth ≤ limit + 1 := h
    refine hnode (by omega) (ih depth (by omega)) (by decide) (by decide) fun hempty => ?_
    rw [List.isEmpty_iff.mp hempty, fieldsRegexes]
  case array =>
    intro vs ih depth h
    have h' : valuesDepth vs + 1 + depth ≤ limit + 1 := h
    refine hnode (by omega) (ih depth (by omega)) (by decide) (by decide) fun hempty => ?_
    rw [List.isEmpty_iff.mp hempty, valuesRegexes]
  case scope =>
    intro code scope depth _
    exact iff_of_true (List.forall_mem_singleton.mpr (line_scope std code scope)) (List.forall_mem_nil _)
  case scalar =>
    intro s depth _
    rw [valueTree_ofScalar]
    exact List.forall_mem_singleton.trans (line_leaf std s)
  case noFields => exact fun _ _ => iff_of_true (List.forall_mem_nil _) (List.forall_mem_nil _)
  case field =>
    intro name v fs ihv ihfs depth h
    have h' : max v.depth (fieldsDepth fs) + depth ≤ limit := h
    rw [fieldTrees, Forest.texts, fieldsRegexes, List.forall_mem_cons, List.forall_mem_append,
      List.forall_mem_append, ihv (depth + 1) (by omega), ihfs depth (by omega)]
    exact and_iff_right ((line_append _ _).mpr ⟨line_quote std name, by decide⟩)
  case noValues => exact fun _ _ => iff_of_true (List.forall_mem_nil _) (List.forall_mem_nil _)
  case element =>
    intro v vs ihv ihvs depth h
    have h' : max v.depth (valuesDepth vs) + depth ≤ limit := h
    rw [elementTrees, Forest.texts, valuesRegexes, List.forall_mem_cons, List.forall_mem_append,
      List.forall_mem_append, ihv (depth + 1) (by omega), ihvs depth (by omega)]
    exact and_iff_right (by decide)

/-- **Only a regular expression breaks the line.** A message that decodes is shown on one line,
unless one of its regular expressions holds a line break: patterns and options are not escaped. -/
theorem message_on_one_line {raw : RawDocument} {d : Document} (h : raw.deep = .ok d) :
    ∃ text, fmtRaw std raw false = .ok text ∧ (Line text ↔ ∀ r ∈ d.regexes, ¬ Breaks r) := by
  have hdepth := RawDocument.depth_of_deep h
  refine ⟨(documentTree std maxNestingDepth d 1).compact, ?_, ?_⟩
  · unfold fmtRaw
    rw [raw.shallow_eq_deep, h]
    exact logDocument_eq std d false
  · have htexts := (lines_tree std).1 (.document d) 1 (Nat.succ_le_succ hdepth)
    refine Iff.trans ?_ htexts
    unfold Line
    rw [Tree.mem_compact (by decide) (by decide)]
    simp
    rfl

theorem message_on_one_line_broken :
    ∃ text, fmtRaw .ascii (.ofFramed [11, 0, 0, 0, 11, 114, 0, 10, 0, 0, 0] (by decide)) false =
      .ok text ∧ ¬ Line text := by
  -- `{"r": /\n/}`: the log of this message has two lines.
  obtain ⟨text, htext, hline⟩ := @message_on_one_line .ascii
    (.ofFramed [11, 0, 0, 0, 11, 114, 0, 10, 0, 0, 0] (by decide)) ⟨[⟨"r", .regex ⟨"\n", ""⟩⟩]⟩ rfl
  exact ⟨text, htext, fun h => hline.mp h ⟨"\n", ""⟩ List.mem_cons_self (.inl (by decide))⟩

end Log

end MongoWire
