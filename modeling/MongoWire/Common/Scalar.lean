import MongoWire.Common.Io

/-!
# BSON scalars

`mongo_common/src/bson/scalar.rs`: the element types, the non-composite values
with their encoder and parser. A double is its 64 bits.
-/

open MongoWire.Lib MongoWire.Lib.Outcome MongoWire.Io

namespace MongoWire

/-- The element types of the `TAG_*` constants. -/
inductive Tag where
  | double | string | document | array | binary | undefined | objectId | bool | dateTime | null
  | regex | dbPointer | javaScript | symbol | javaScriptScope | int32 | timestamp | int64
  | decimal128 | minKey | maxKey
  deriving DecidableEq

namespace Tag

def toU8 : Tag → UInt8
  | double => 0x01
  | string => 0x02
  | document => 0x03
  | array => 0x04
  | binary => 0x05
  | undefined => 0x06
  | objectId => 0x07
  | bool => 0x08
  | dateTime => 0x09
  | null => 0x0A
  | regex => 0x0B
  | dbPointer => 0x0C
  | javaScript => 0x0D
  | symbol => 0x0E
  | javaScriptScope => 0x0F
  | int32 => 0x10
  | timestamp => 0x11
  | int64 => 0x12
  | decimal128 => 0x13
  | minKey => 0xFF
  | maxKey => 0x7F

def all : List Tag :=
  [double, string, document, array, binary, undefined, objectId, bool, dateTime, null, regex,
    dbPointer, javaScript, symbol, javaScriptScope, int32, timestamp, int64, decimal128, minKey,
    maxKey]

/-- The arm of `match tag` that a tag byte takes, if it takes one. -/
def ofU8 (b : UInt8) : Option Tag := all.find? fun t => t.toU8 = b

theorem toU8_ne_zero (t : Tag) : t.toU8 ≠ 0 := by
  cases t <;> decide

@[simp] theorem ofU8_toU8 (t : Tag) : ofU8 t.toU8 = some t := by
  cases t <;> decide

theorem ofU8_eq_some (b : UInt8) (t : Tag) : ofU8 b = some t ↔ b = t.toU8 := by
  constructor
  · intro h
    unfold ofU8 at h
    have := List.find?_some h
    simpa using (of_decide_eq_true this).symm
  · rintro rfl
    exact ofU8_toU8 t

end Tag

/-- Minimum length of any BSON document: 4-byte length + trailing NUL. -/
def minDocLen : Nat := 5

abbrev ObjectId := Block 12
abbrev Decimal128 := Block 16

structure Timestamp where
  seconds : UInt32
  increment : UInt32
  deriving DecidableEq

structure Regex where
  pattern : String
  options : String
  deriving DecidableEq

inductive BinarySubtype where
  | generic | function
  /-- Obsolete; the bytes are prefixed with a 4-byte length on the wire. -/
  | binaryOld
  | uuidOld | uuid | md5 | encrypted
  | userDefined (b : UInt8)
  deriving DecidableEq

structure Binary where
  subtype : BinarySubtype
  bytes : Bytes
  deriving DecidableEq

structure DbPointer where
  ns : String
  id : ObjectId
  deriving DecidableEq

inductive Scalar where
  | double (bits : UInt64)
  | string (v : String)
  | binary (v : Binary)
  | undefined
  | objectId (v : ObjectId)
  | bool (v : Bool)
  | dateTime (v : Int64)
  | null
  | regex (v : Regex)
  | dbPointer (v : DbPointer)
  | javaScript (v : String)
  | symbol (v : String)
  | int32 (v : Int32)
  | timestamp (v : Timestamp)
  | int64 (v : Int64)
  | decimal128 (v : Decimal128)
  | minKey
  | maxKey
  deriving DecidableEq

inductive ScalarError where
  | shortInput (needed got : Nat)
  | invalid (tag : UInt8) (reason : String)
  | utf8
  | outOfRange
  | notConvertible
  deriving DecidableEq

namespace BinarySubtype

def toU8 : BinarySubtype → UInt8
  | generic => 0x00
  | function => 0x01
  | binaryOld => 0x02
  | uuidOld => 0x03
  | uuid => 0x04
  | md5 => 0x05
  | encrypted => 0x06
  | userDefined b => b

def fromU8 (b : UInt8) : Outcome ScalarError BinarySubtype :=
  if b = 0x00 then .ok generic
  else if b = 0x01 then .ok function
  else if b = 0x02 then .ok binaryOld
  else if b = 0x03 then .ok uuidOld
  else if b = 0x04 then .ok uuid
  else if b = 0x05 then .ok md5
  else if b = 0x06 then .ok encrypted
  else if b ≤ 0x7F then .err (.invalid b "reserved binary subtype")
  else .ok (userDefined b)

/-- The documented range of `UserDefined`. -/
def InRange : BinarySubtype → Prop
  | userDefined b => 0x80 ≤ b
  | _ => True

instance : DecidablePred InRange := fun s => by
  cases s <;> unfold InRange <;> infer_instance

/-- Bytes that the obsolete subtype puts between the subtype and the payload. -/
def extra (s : BinarySubtype) : Nat := if s = binaryOld then 4 else 0

theorem fromU8_eq_ok (b : UInt8) (s : BinarySubtype) :
    fromU8 b = .ok s ↔ b = s.toU8 ∧ s.InRange := by
  constructor
  · intro h
    unfold fromU8 at h
    split_ifs at h with h0 h1 h2 h3 h4 h5 h6 h7
    all_goals (cases h; simp only [toU8, InRange, and_true, true_and]; try assumption)
    simp only [UInt8.le_iff_toNat_le, UInt8.reduceToNat] at h7 ⊢
    omega
  · rintro ⟨rfl, hs⟩
    cases s with
    | userDefined b =>
      simp only [InRange, UInt8.le_iff_toNat_le, UInt8.reduceToNat] at hs
      have hne : ∀ c : UInt8, c.toNat < 128 → b ≠ c := by rintro c hc rfl; omega
      show fromU8 b = _
      unfold fromU8
      rw [if_neg (hne 0 (by decide)), if_neg (hne 1 (by decide)), if_neg (hne 2 (by decide)),
        if_neg (hne 3 (by decide)), if_neg (hne 4 (by decide)), if_neg (hne 5 (by decide)),
        if_neg (hne 6 (by decide)), if_neg]
      simp only [UInt8.le_iff_toNat_le, UInt8.reduceToNat]
      omega
    | _ => rfl

@[simp] theorem returns_fromU8 (b : UInt8) : (fromU8 b).Returns := by
  unfold fromU8
  split_ifs <;> simp

end BinarySubtype

namespace Scalar

/-- `tag_of`. -/
def tagOf : Scalar → Tag
  | double _ => .double
  | string _ => .string
  | binary _ => .binary
  | undefined => .undefined
  | objectId _ => .objectId
  | bool _ => .bool
  | dateTime _ => .dateTime
  | null => .null
  | regex _ => .regex
  | dbPointer _ => .dbPointer
  | javaScript _ => .javaScript
  | symbol _ => .symbol
  | int32 _ => .int32
  | timestamp _ => .timestamp
  | int64 _ => .int64
  | decimal128 _ => .decimal128
  | minKey => .minKey
  | maxKey => .maxKey

/-- A length that `i32::try_from` takes, or `ScalarError::OutOfRange`. -/
def lenOrOutOfRange (n : Nat) : Outcome ScalarError Int32 := ofOption .outOfRange (i32TryFrom n)

def encodeString (v : String) (out : Bytes) : Outcome ScalarError Bytes := do
  let len ← lenOrOutOfRange ((utf8 v).length + 1)
  return putU8 0 (putBytes (utf8 v) (putI32Le len out))

def encodeBinary (b : Binary) (out : Bytes) : Outcome ScalarError Bytes := do
  let len ← lenOrOutOfRange (b.bytes.length + b.subtype.extra)
  let out := putU8 b.subtype.toU8 (putI32Le len out)
  if b.subtype = .binaryOld then
    let inner ← lenOrOutOfRange b.bytes.length
    return putBytes b.bytes (putI32Le inner out)
  else
    return putBytes b.bytes out

def encodeRegex (r : Regex) (out : Bytes) : Outcome ScalarError Bytes := do
  let out ← mapErr (fun _ => .invalid Tag.regex.toU8 "interior NUL in pattern")
    (putCstring r.pattern out)
  mapErr (fun _ => .invalid Tag.regex.toU8 "interior NUL in options") (putCstring r.options out)

/-- The `match` of `encode_scalar`. -/
def encodeValue (s : Scalar) (out : Bytes) : Outcome ScalarError Bytes :=
  match s with
  | double bits => .ok (putBytes (u64ToLe bits) out)
  | string v => encodeString v out
  | binary b => encodeBinary b out
  | undefined => .ok out
  | null => .ok out
  | minKey => .ok out
  | maxKey => .ok out
  | objectId v => .ok (putBytes v.val out)
  | bool v => .ok (putU8 (if v then 1 else 0) out)
  | dateTime v => .ok (putI64Le v out)
  | regex r => encodeRegex r out
  | dbPointer p => do return putBytes p.id.val (← encodeString p.ns out)
  | javaScript v => encodeString v out
  | symbol v => encodeString v out
  | int32 v => .ok (putI32Le v out)
  | timestamp v => .ok (putU32Le v.seconds (putU32Le v.increment out))
  | int64 v => .ok (putI64Le v out)
  | decimal128 v => .ok (putBytes v.val out)

/-- `encode_scalar`: the longer buffer, and the number of bytes written. -/
def encodeScalar (s : Scalar) (out : Bytes) : Outcome ScalarError (Nat × Bytes) := do
  let start := out.length
  let out ← encodeValue s out
  return (← usub out.length start, out)

/-! ## Parsing -/

/-- `From<ReadError> for ScalarError`. -/
def ofReadError : ReadError → ScalarError
  | .shortInput needed got => .shortInput needed got
  | .invalid reason => .invalid 0 reason

/-- `usize::try_from`, on a machine of 64 bits. -/
def usizeTryFrom (v : UInt32) : Option Nat := if v.toNat < 2 ^ 64 then some v.toNat else none

def readU32AsUsize (tag : UInt8) (r : Bytes) : Outcome ScalarError (Nat × Bytes) := do
  let (v, r) ← mapErr ofReadError (readU32Le r)
  return (← ofOption (.invalid tag "impossible length") (usizeTryFrom v), r)

def parseString (tag : UInt8) (r : Bytes) : Outcome ScalarError (String × Bytes) := do
  let (len, r) ← readU32AsUsize tag r
  if len = 0 then .err (.invalid tag "zero-length string") else do
  let (bytes, r) ← mapErr ofReadError (readBytes (← usub len 1) r)
  let (nul, r) ← mapErr ofReadError (readU8 r)
  if nul ≠ 0 then .err (.invalid tag "string not NUL-terminated") else do
  return (← ofOption .utf8 (fromUtf8 bytes), r)

def readCstringStr (r : Bytes) : Outcome ScalarError (String × Bytes) := do
  let (bytes, r) ← mapErr ofReadError (readCstring r)
  return (← ofOption .utf8 (fromUtf8 bytes), r)

/-- The obsolete subtype repeats the length in front of the payload. -/
def parsePayloadLen (tag : UInt8) (subtype : BinarySubtype) (len : Nat) (r : Bytes) :
    Outcome ScalarError (Nat × Bytes) :=
  match subtype with
  | .binaryOld => do
    let (inner, r) ← readU32AsUsize tag r
    if inner + 4 ≠ len then .err (.invalid tag "old binary inner length mismatch") else
    .ok (inner, r)
  | _ => .ok (len, r)

/-- The arm of `TAG_BINARY`. -/
def parseBinary (tag : UInt8) (r : Bytes) : Outcome ScalarError (Binary × Bytes) := do
  let (len, r) ← readU32AsUsize tag r
  let (b, r) ← mapErr ofReadError (readU8 r)
  let subtype ← BinarySubtype.fromU8 b
  let (payload, r) ← parsePayloadLen tag subtype len r
  let (bytes, r) ← mapErr ofReadError (readBytes payload r)
  return (⟨subtype, bytes⟩, r)

/-- `r.read_bytes(n)?.try_into().unwrap()`. -/
def parseBlock (n : Nat) (r : Bytes) : Outcome ScalarError (Block n × Bytes) := do
  let (b, r) ← mapErr ofReadError (readBytes n r)
  return (← expectBlock n b, r)

/-- The arm of `TAG_BOOL`. -/
def parseBool (tag : UInt8) (r : Bytes) : Outcome ScalarError (Bool × Bytes) := do
  let (b, r) ← mapErr ofReadError (readU8 r)
  if b = 0 then .ok (false, r)
  else if b = 1 then .ok (true, r)
  else .err (.invalid tag "invalid bool byte")

/-- The `match tag` of `parse_scalar`: the value, and the cursor after it. -/
def parseArm (tag : Tag) (r : Bytes) : Outcome ScalarError (Scalar × Bytes) :=
  match tag with
  | .double => do
    let (b, r) ← parseBlock 8 r
    return (double (u64FromLe b.val), r)
  | .string => do
    let (s, r) ← parseString tag.toU8 r
    return (string s, r)
  | .binary => do
    let (b, r) ← parseBinary tag.toU8 r
    return (binary b, r)
  | .undefined => .ok (undefined, r)
  | .objectId => do
    let (b, r) ← parseBlock 12 r
    return (objectId b, r)
  | .bool => do
    let (b, r) ← parseBool tag.toU8 r
    return (bool b, r)
  | .dateTime => do
    let (v, r) ← mapErr ofReadError (readI64Le r)
    return (dateTime v, r)
  | .null => .ok (null, r)
  | .regex => do
    let (pattern, r) ← readCstringStr r
    let (options, r) ← readCstringStr r
    return (regex ⟨pattern, options⟩, r)
  | .dbPointer => do
    let (ns, r) ← parseString tag.toU8 r
    let (id, r) ← parseBlock 12 r
    return (dbPointer ⟨ns, id⟩, r)
  | .javaScript => do
    let (s, r) ← parseString tag.toU8 r
    return (javaScript s, r)
  | .symbol => do
    let (s, r) ← parseString tag.toU8 r
    return (symbol s, r)
  | .int32 => do
    let (v, r) ← mapErr ofReadError (readI32Le r)
    return (int32 v, r)
  | .timestamp => do
    let (increment, r) ← mapErr ofReadError (readU32Le r)
    let (seconds, r) ← mapErr ofReadError (readU32Le r)
    return (timestamp ⟨seconds, increment⟩, r)
  | .int64 => do
    let (v, r) ← mapErr ofReadError (readI64Le r)
    return (int64 v, r)
  | .decimal128 => do
    let (b, r) ← parseBlock 16 r
    return (decimal128 b, r)
  | .minKey => .ok (minKey, r)
  | .maxKey => .ok (maxKey, r)
  | .document => .err (.invalid tag.toU8 "composite type; handled by wirebson")
  | .array => .err (.invalid tag.toU8 "composite type; handled by wirebson")
  | .javaScriptScope => .err (.invalid tag.toU8 "composite type; handled by wirebson")

/-- `parse_scalar`: the value, and the number of bytes it took. -/
def parseScalar (tag : UInt8) (input : Bytes) : Outcome ScalarError (Scalar × Nat) :=
  match Tag.ofU8 tag with
  | none => .err (.invalid tag "unknown element type")
  | some tag => do
    let (scalar, r) ← parseArm tag input
    return (scalar, ← usub input.length r.length)

end Scalar

end MongoWire
