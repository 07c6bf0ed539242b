import MongoWire.Bson.Value

/-!
# Decoding documents and arrays

`wirebson/src/decode.rs`, and the readers of `raw.rs` and `raw_value.rs` that
are built on it.
-/

open MongoWire.Lib MongoWire.Lib.Outcome MongoWire.Io

namespace MongoWire

/-- `MAX_NESTING_DEPTH`. -/
def maxNestingDepth : Nat := 20

inductive Mode where
  | shallow
  | deep
  deriving DecidableEq

namespace Decode

def mapRead : ReadError → BsonError
  | .shortInput needed got => .shortInput needed got
  | .invalid reason => .invalidInput 0 reason

/-! ## One value -/

def docLen (rest : Bytes) (abs : Nat) : Outcome BsonError Nat :=
  if rest.length < 4 then .err (.shortInput 4 rest.length) else do
  let b ← expectBlock 4 (← slice rest 0 4)
  let l := u32AsUsize b.val
  if l < minDocLen then .err (.invalidInput abs "composite length below minimum") else
  if rest.length < l then .err (.shortInput l rest.length) else
  .ok l

def readStr (abs : Nat) (r : Bytes) : Outcome BsonError (String × Bytes) := do
  let (len, r) ← mapErr mapRead (readU32Le r)
  if len.toNat < 1 then .err (.invalidInput abs "zero-length string") else do
  let (bytes, r) ← mapErr mapRead (readBytes (← usub len.toNat 1) r)
  let (nul, r) ← mapErr mapRead (readU8 r)
  if nul ≠ 0 then .err (.invalidInput abs "string not NUL-terminated") else do
  return (← ofOption .utf8 (fromUtf8 bytes), r)

def readCstr (r : Bytes) : Outcome BsonError (String × Bytes) := do
  let (bytes, r) ← mapErr mapRead (readCstring r)
  return (← ofOption .utf8 (fromUtf8 bytes), r)

/-- The payload length: the obsolete subtype repeats it in front of the payload. -/
def payloadLen (subtype : BinarySubtype) (len abs : Nat) (r : Bytes) :
    Outcome BsonError (Nat × Bytes) :=
  match subtype with
  | .binaryOld => do
    let (inner, r) ← mapErr mapRead (readU32Le r)
    if inner.toNat + 4 ≠ len then .err (.invalidInput abs "old binary inner length mismatch") else
    .ok (inner.toNat, r)
  | _ => .ok (len, r)

def readBinary (abs : Nat) (r : Bytes) : Outcome BsonError (Binary × Bytes) := do
  let (len, r) ← mapErr mapRead (readU32Le r)
  let (b, r) ← mapErr mapRead (readU8 r)
  let subtype ← mapErr .scalar (BinarySubtype.fromU8 b)
  let (payload, r) ← payloadLen subtype len.toNat abs r
  let (bytes, r) ← mapErr mapRead (readBytes payload r)
  return (⟨subtype, bytes⟩, r)

/-- `read_bytes(n)` as a `[u8; n]`. -/
def readBlock (n : Nat) (r : Bytes) : Outcome BsonError (Block n × Bytes) := do
  let (b, r) ← mapErr mapRead (readBytes n r)
  return (← expectBlock n b, r)

def readBool (abs : Nat) (r : Bytes) : Outcome BsonError (Bool × Bytes) := do
  let (b, r) ← mapErr mapRead (readU8 r)
  if b = 0 then .ok (false, r)
  else if b = 1 then .ok (true, r)
  else .err (.invalidInput abs "invalid bool byte")

/-- The arm of `TAG_DOCUMENT | TAG_ARRAY`, up to the choice of the wrapper. -/
def sliceComposite (rest parent : Bytes) (abs : Nat) : Outcome BsonError (Bytes × Bytes) := do
  let l ← docLen rest abs
  let child ← slice parent abs (abs + l)
  let (_, r) ← mapErr mapRead (readBytes l rest)
  return (child, r)

/-- The arm of `TAG_JAVASCRIPT_SCOPE`. -/
def parseScope (rest parent : Bytes) (abs : Nat) : Outcome BsonError (RawBsonRef × Bytes) :=
  if rest.length < 4 then .err (.shortInput 4 rest.length) else do
  let total := u32AsUsize (← expectBlock 4 (← slice rest 0 4)).val
  let cur ← slice rest 4 rest.length
  let (code, cur) ← readStr (abs + 4) cur
  let scopeOff ← usub rest.length cur.length
  if rest.length < scopeOff + 4 then .err (.shortInput (scopeOff + 4) rest.length) else do
  let l := u32AsUsize (← expectBlock 4 (← slice rest scopeOff (scopeOff + 4))).val
  if l < minDocLen then .err (.invalidInput (abs + scopeOff) "scope length below minimum") else
  if rest.length < scopeOff + l then .err (.shortInput (scopeOff + l) rest.length) else do
  let scope ← RawDocument.fromBytes (← slice parent (abs + scopeOff) (abs + scopeOff + l))
  let actual := scopeOff + l
  if total ≠ actual then .err (.lengthMismatch total actual) else do
  let (_, r) ← mapErr mapRead (readBytes actual rest)
  return (.javaScriptScope code scope, r)

/-- The `match tag` of `parse_value`: the value, and the cursor after it. -/
def parseArm (tag : Tag) (rest parent : Bytes) (abs : Nat) :
    Outcome BsonError (RawBsonRef × Bytes) :=
  match tag with
  | .document => do
    let (child, r) ← sliceComposite rest parent abs
    return (.document (← RawDocument.fromBytes child), r)
  | .array => do
    let (child, r) ← sliceComposite rest parent abs
    return (.array (← RawArray.fromBytes child), r)
  | .javaScriptScope => parseScope rest parent abs
  | .double => do
    let (b, r) ← readBlock 8 rest
    return (.double (u64FromLe b.val), r)
  | .string => do
    let (s, r) ← readStr abs rest
    return (.string s, r)
  | .binary => do
    let (b, r) ← readBinary abs rest
    return (.binary b, r)
  | .undefined => .ok (.undefined, rest)
  | .objectId => do
    let (b, r) ← readBlock 12 rest
    return (.objectId b, r)
  | .bool => do
    let (b, r) ← readBool abs rest
    return (.bool b, r)
  | .dateTime => do
    let (v, r) ← mapErr mapRead (readI64Le rest)
    return (.dateTime v, r)
  | .null => .ok (.null, rest)
  | .regex => do
    let (pattern, r) ← readCstr rest
    let (options, r) ← readCstr r
    return (.regex ⟨pattern, options⟩, r)
  | .dbPointer => do
    let (ns, r) ← readStr abs rest
    let (id, r) ← readBlock 12 r
    return (.dbPointer ⟨ns, id⟩, r)
  | .javaScript => do
    let (s, r) ← readStr abs rest
    return (.javaScript s, r)
  | .symbol => do
    let (s, r) ← readStr abs rest
    return (.symbol s, r)
  | .int32 => do
    let (v, r) ← mapErr mapRead (readI32Le rest)
    return (.int32 v, r)
  | .timestamp => do
    -- The increment precedes the seconds.
    let (increment, r) ← mapErr mapRead (readU32Le rest)
    let (seconds, r) ← mapErr mapRead (readU32Le r)
    return (.timestamp ⟨seconds, increment⟩, r)
  | .int64 => do
    let (v, r) ← mapErr mapRead (readI64Le rest)
    return (.int64 v, r)
  | .decimal128 => do
    let (b, r) ← readBlock 16 rest
    return (.decimal128 b, r)
  | .minKey => .ok (.minKey, rest)
  | .maxKey => .ok (.maxKey, rest)

def parseValue (tag : UInt8) (rest parent : Bytes) (abs : Nat) :
    Outcome BsonError (RawBsonRef × Nat) :=
  match Tag.ofU8 tag with
  | none => .err (.invalidInput abs "unknown element type")
  | some tag => do
    let (value, r) ← parseArm tag rest parent abs
    return (value, ← usub rest.length r.length)

end Decode

/-! ## The fields of one document -/

structure Scanner where
  /-- The whole document, length prefix included. -/
  parent : Bytes
  /-- `parent` after the 4-byte length prefix. -/
  body : Bytes
  /-- Offset within `body` of the next tag byte. -/
  offset : Nat
  deriving DecidableEq

namespace Scanner

def new (doc : Bytes) : Scanner := ⟨doc, doc.drop 4, 0⟩

def next (s : Scanner) : Outcome BsonError (Option ((String × RawBsonRef) × Scanner)) :=
  match s.body[s.offset]? with
  | none => .err (.shortInput (s.offset + 1) s.body.length)
  | some tag =>
    if tag = 0 then
      if s.offset + 1 ≠ s.body.length then
        .err (.invalidInput s.offset "data after end-of-document marker")
      else .ok none
    else do
      let offset := s.offset + 1
      let tail ← slice s.body offset s.body.length
      let rel ← ofOption (.shortInput (s.body.length + 1) s.body.length) (nulPos tail)
      let name ← ofOption .utf8 (fromUtf8 (← slice s.body offset (offset + rel)))
      let voff := offset + (rel + 1)
      let rest ← slice s.body voff s.body.length
      let (value, consumed) ← Decode.parseValue tag rest s.parent (4 + voff)
      return some ((name, value), { s with offset := voff + consumed })

end Scanner

/-! ## Whole documents and arrays -/

namespace RawBsonRef

/-- The arms of `to_bson` that decode no document and no array. -/
def scalarToBson : RawBsonRef → Outcome BsonError Bson
  | double v => .ok (.double v)
  | string v => .ok (.string v)
  | binary v => .ok (.binary v)
  | undefined => .ok .undefined
  | objectId v => .ok (.objectId v)
  | bool v => .ok (.bool v)
  | dateTime v => .ok (.dateTime v)
  | null => .ok .null
  | regex v => .ok (.regex v)
  | dbPointer v => .ok (.dbPointer v)
  | javaScript v => .ok (.javaScript v)
  | symbol v => .ok (.symbol v)
  | javaScriptScope code scope => .ok (.javaScriptScope code scope)
  | int32 v => .ok (.int32 v)
  | timestamp v => .ok (.timestamp v)
  | int64 v => .ok (.int64 v)
  | decimal128 v => .ok (.decimal128 v)
  | minKey => .ok .minKey
  | maxKey => .ok .maxKey
  -- Every caller takes these two arms out first.
  | document _ => .panic
  | array _ => .panic

end RawBsonRef

namespace Decode

/-- `materialize`, given how the next level decodes the fields of a document and an array. -/
def materialize (fieldsOf : Bytes → Mode → Nat → Outcome BsonError (List Field))
    (valuesOf : Bytes → Mode → Nat → Outcome BsonError (List Bson))
    (value : RawBsonRef) (mode : Mode) (depth : Nat) : Outcome BsonError Bson :=
  match value with
  | .document d => do return .document ⟨← fieldsOf d.bytes mode (depth + 1)⟩
  | .array a => do return .array ⟨← valuesOf a.bytes mode (depth + 1)⟩
  | .javaScriptScope code scope => .ok (.javaScriptScope code scope)
  | other =>
    match mode with
    | .shallow => other.scalarToBson
    | .deep => other.scalarToBson

mutual

/-- `decode_fields`. `levels` bounds the recursion, which `depth` already bounds. -/
def decodeFields : (levels : Nat) → Bytes → Mode → (depth : Nat) → Outcome BsonError (List Field)
  | 0, _, _, _ => .hang
  | levels + 1, bytes, mode, depth =>
    if depth > maxNestingDepth then .err (.nestedTooDeep maxNestingDepth) else
    whileSome Scanner.next
      (fun fields f => do
        return fields ++
          [⟨f.1, ← materialize (decodeFields levels) (decodeArray levels) f.2 mode depth⟩])
      (bytes.length + 1) (.new bytes) []

/-- `decode_array`. Element names are neither required nor validated. -/
def decodeArray : (levels : Nat) → Bytes → Mode → (depth : Nat) → Outcome BsonError (List Bson)
  | 0, _, _, _ => .hang
  | levels + 1, bytes, mode, depth =>
    if depth > maxNestingDepth then .err (.nestedTooDeep maxNestingDepth) else
    whileSome Scanner.next
      (fun values f => do
        return values ++ [← materialize (decodeFields levels) (decodeArray levels) f.2 mode depth])
      (bytes.length + 1) (.new bytes) []

end

end Decode

namespace RawDocument

/-- `decode_document` at depth 1. -/
def decode (d : RawDocument) (mode : Mode) : Outcome BsonError Document := do
  return ⟨← Decode.decodeFields (maxNestingDepth + 1) d.bytes mode 1⟩

def shallow (d : RawDocument) : Outcome BsonError Document := d.decode .shallow
def deep (d : RawDocument) : Outcome BsonError Document := d.decode .deep

end RawDocument

namespace RawArray

def decode (a : RawArray) (mode : Mode) : Outcome BsonError BsonArray := do
  return ⟨← Decode.decodeArray (maxNestingDepth + 1) a.bytes mode 1⟩

def shallow (a : RawArray) : Outcome BsonError BsonArray := a.decode .shallow
def deep (a : RawArray) : Outcome BsonError BsonArray := a.decode .deep

end RawArray

/-! ## Lazy access -/

structure FieldsIter where
  scanner : Scanner
  done : Bool

namespace FieldsIter

/-- One call of the iterator. A panic inside it is the item of that call. -/
def next (it : FieldsIter) : Option (Outcome BsonError (String × RawBsonRef)) × FieldsIter :=
  if it.done then (none, it) else
  match it.scanner.next with
  | .ok (some (field, scanner)) => (some (.ok field), { it with scanner })
  | .ok none => (none, { it with done := true })
  | .err e => (some (.err e), { it with done := true })
  | .panic => (some .panic, { it with done := true })
  | .hang => (some .hang, { it with done := true })

/-- What the iterator hands out until it ends, for at most `fuel` calls. -/
def items : (fuel : Nat) → FieldsIter → List (Outcome BsonError (String × RawBsonRef))
  | 0, _ => [.hang]
  | fuel + 1, it =>
    match it.next with
    | (none, _) => []
    | (some item, it) => item :: items fuel it

end FieldsIter

namespace RawDocument

def fields (d : RawDocument) : List (Outcome BsonError (String × RawBsonRef)) :=
  FieldsIter.items (d.bytes.length + 2) ⟨.new d.bytes, false⟩

/-- The loop of `get`. -/
def getIn (key : String) :
    List (Outcome BsonError (String × RawBsonRef)) → Outcome BsonError (Option RawBsonRef)
  | [] => .ok none
  | item :: rest => do
    let (name, value) ← item
    if name = key then .ok (some value) else getIn key rest

def get (d : RawDocument) (key : String) : Outcome BsonError (Option RawBsonRef) :=
  getIn key d.fields

def command (d : RawDocument) : Outcome BsonError String :=
  if d.bytes.length < 4 then .err (.shortInput minDocLen d.bytes.length) else
  match d.bytes.drop 4 with
  | [] => .ok ""
  | tag :: name =>
    if tag = 0 then .ok "" else do
    let stop ← ofOption (.shortInput (d.bytes.length + 1) d.bytes.length) (nulPos name)
    ofOption .utf8 (fromUtf8 (← slice name 0 stop))

end RawDocument

namespace RawBsonRef

def toBson : RawBsonRef → Outcome BsonError Bson
  | document d => do return .document (← d.shallow)
  | array a => do return .array (← a.shallow)
  | other => other.scalarToBson

def deep : RawBsonRef → Outcome BsonError Bson
  | document d => do return .document (← d.deep)
  | array a => do return .array (← a.deep)
  | other => other.scalarToBson

end RawBsonRef

end MongoWire
