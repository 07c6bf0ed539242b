import MongoWire.Bson.Value

/-!
# Encoding documents and arrays

`wirebson/src/encode.rs`. All encoders append to one buffer, and a composite
patches its length at an absolute position of that buffer once it is written.
-/

open MongoWire.Lib MongoWire.Lib.Outcome MongoWire.Io

namespace MongoWire

namespace Encode

/-- Overwrite the length placeholder at `lenPos` with the bytes written since. -/
def patchLen (lenPos : Nat) (out : Bytes) : Outcome BsonError Bytes := do
  let total ← usub out.length lenPos
  let total ← ofOption (.invalidInput lenPos "document exceeds the maximum BSON length")
    (i32TryFrom total)
  putI32LeAt lenPos total out

/-- `i32::try_from(n)` and then `checked_add(1)`. -/
def lenPlusOne (n : Nat) : Option Int32 := do
  let l ← i32TryFrom n
  if l.toInt + 1 < 2 ^ 31 then some (l + 1) else none

def encodeString (s : String) (out : Bytes) : Outcome BsonError Bytes := do
  let len ← ofOption (.invalidInput out.length "string too large") (lenPlusOne (utf8 s).length)
  return putU8 0 (putBytes (utf8 s) (putI32Le len out))

/-- The arm of `JavaScriptScope`. -/
def encodeScope (code : String) (scope : RawDocument) (out : Bytes) : Outcome BsonError Bytes :=
  if scope.bytes.length < minDocLen then
    .err (.invalidInput out.length "empty JavaScript scope document")
  else do
    let (lenPos, out) := placeholderI32 out
    let out ← encodeString code out
    patchLen lenPos (putBytes scope.bytes out)

/-- The arm of every other value. -/
def encodeOther (value : Bson) (out : Bytes) : Outcome BsonError Bytes := do
  let scalar ← ofOption
    (.invalidInput out.length "unexpected composite value without as_scalar()") value.asScalar
  let (_, out) ← mapErr .scalar (scalar.encodeScalar out)
  return out

/-- Tag byte, name, and then `encodeValue`, which writes the value. -/
def encodeField (name : String) (tag : Tag) (encodeValue : Bytes → Outcome BsonError Bytes)
    (out : Bytes) : Outcome BsonError Bytes := do
  let fieldStart := out.length
  let out ← mapErr (fun _ => .invalidInput fieldStart "interior NUL in field name")
    (putCstring name (putU8 tag.toU8 out))
  encodeValue out

mutual

def encodeDocument : Document → Bytes → Outcome BsonError Bytes
  | ⟨fields⟩, out => do
    let (lenPos, out) := placeholderI32 out
    let out ← encodeFields fields out
    patchLen lenPos (putU8 0 out)

/-- The loop of `encode_document`. -/
def encodeFields : List Field → Bytes → Outcome BsonError Bytes
  | [], out => .ok out
  | ⟨name, value⟩ :: rest, out => do
    let out ← encodeField name value.tag (encodeValue value) out
    encodeFields rest out

def encodeArray : BsonArray → Bytes → Outcome BsonError Bytes
  | ⟨values⟩, out => do
    let (lenPos, out) := placeholderI32 out
    let out ← encodeValues 0 values out
    patchLen lenPos (putU8 0 out)

/-- The loop of `encode_array`, from index `i` on. -/
def encodeValues : (i : Nat) → List Bson → Bytes → Outcome BsonError Bytes
  | _, [], out => .ok out
  | i, value :: rest, out => do
    let out ← encodeField (toString i) value.tag (encodeValue value) out
    encodeValues (i + 1) rest out

def encodeValue : Bson → Bytes → Outcome BsonError Bytes
  | .document d, out => encodeDocument d out
  | .array a, out => encodeArray a out
  | .javaScriptScope code scope, out => encodeScope code scope out
  | other, out => encodeOther other out

end

end Encode

def Document.encode (d : Document) : Outcome BsonError RawDocument := do
  RawDocument.fromBytes (← Encode.encodeDocument d [])

def BsonArray.encode (a : BsonArray) : Outcome BsonError RawArray := do
  RawArray.fromBytes (← Encode.encodeArray a [])

end MongoWire
