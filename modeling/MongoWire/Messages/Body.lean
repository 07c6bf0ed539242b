import MongoWire.Messages.Legacy

/-!
# `OP_COMPRESSED` and the body of any message

`mongowire/src/messages/op_compressed.rs`, `messages/mod.rs` and
`compression/mod.rs`. The compressors themselves come from crates, so they are
parameters of the model.
-/

open MongoWire.Lib MongoWire.Lib.Outcome MongoWire.Io

namespace MongoWire

/-! ## Compression -/

inductive CompressorId where
  | noop | snappy | zlib | zstd
  deriving DecidableEq

namespace CompressorId

def toU8 : CompressorId → UInt8
  | noop => 0
  | snappy => 1
  | zlib => 2
  | zstd => 3

def all : List CompressorId := [noop, snappy, zlib, zstd]

/-- `from_u8`: the compressor whose wire byte this is. -/
def fromU8 (v : UInt8) : Option CompressorId := all.find? fun id => id.toU8 = v

@[simp] theorem fromU8_toU8 (id : CompressorId) : fromU8 id.toU8 = some id := by
  cases id <;> decide

theorem fromU8_eq_some (v : UInt8) (id : CompressorId) : fromU8 v = some id ↔ v = id.toU8 := by
  constructor
  · intro h
    unfold fromU8 at h
    have := List.find?_some h
    simpa using (of_decide_eq_true this).symm
  · rintro rfl
    exact fromU8_toU8 id

end CompressorId

/-- One third-party compressor: bytes, or the text of its error. -/
structure Codec where
  compress : Bytes → Except String Bytes
  /-- The second argument is the length that the caller expects. -/
  decompress : Bytes → Nat → Except String Bytes

/-- A compressor as its crate has it. Decompression stops after `limit` bytes. -/
structure Compressor where
  compress : Bytes → Except String Bytes
  decompress : Bytes → (limit : Nat) → Except String Bytes

/-- `snappy.rs`, `zlib.rs` and `zstd.rs`: one byte more than expected is let through, so that the
length check of the caller sees it. -/
def Compressor.codec (c : Compressor) : Codec where
  compress := c.compress
  decompress data expectedLen := c.decompress data (expectedLen + 1)

/-- The compressors of a build, `none` where the feature is off. -/
structure Build where
  snappy : Option Codec
  zlib : Option Codec
  zstd : Option Codec

namespace Build

/-- The build with these features. -/
def ofFeatures (snappy zlib zstd : Option Compressor) : Build where
  snappy := snappy.map Compressor.codec
  zlib := zlib.map Compressor.codec
  zstd := zstd.map Compressor.codec

/-- `is_enabled`. -/
def isEnabled (build : Build) : CompressorId → Bool
  | .noop => true
  | .snappy => build.snappy.isSome
  | .zlib => build.zlib.isSome
  | .zstd => build.zstd.isSome

def codec (build : Build) : CompressorId → Option Codec
  | .noop => some ⟨fun data => .ok data, fun data _ => .ok data⟩
  | .snappy => build.snappy
  | .zlib => build.zlib
  | .zstd => build.zstd

/-- The error of a compressor becomes `ProtocolError::Compression`. -/
def ofExcept : Except String Bytes → Outcome ProtocolError Bytes
  | .ok b => .ok b
  | .error e => .err (.compression e)

def compress (build : Build) (id : CompressorId) (data : Bytes) : Outcome ProtocolError Bytes := do
  let codec ← ofOption (.unsupportedCompressor id.toU8) (build.codec id)
  ofExcept (codec.compress data)

def decompress (build : Build) (id : CompressorId) (data : Bytes) (expectedLen : Nat) :
    Outcome ProtocolError Bytes := do
  let codec ← ofOption (.unsupportedCompressor id.toU8) (build.codec id)
  let out ← ofExcept (codec.decompress data expectedLen)
  if out.length ≠ expectedLen then .err (.decompressedSizeMismatch expectedLen out.length) else
  .ok out

end Build

/-! ## `OP_COMPRESSED` -/

structure OpCompressed where
  originalOpcode : Opcode
  uncompressedSize : Int32
  compressorId : CompressorId
  compressedMessage : Bytes
  deriving DecidableEq

namespace OpCompressed

def bodyLen (c : OpCompressed) : Nat := 4 + 4 + 1 + c.compressedMessage.length

def encodeBody (c : OpCompressed) (out : Bytes) : Bytes :=
  let out := putI32Le c.uncompressedSize (putI32Le c.originalOpcode.toI32 out)
  putBytes c.compressedMessage (putU8 c.compressorId.toU8 out)

def parseBody (body : Bytes) : Outcome ProtocolError OpCompressed := do
  let (rawOpcode, r) ← mapErr .io (readI32Le body)
  let originalOpcode ← ofOption (.unsupportedOpcode rawOpcode) (Opcode.fromI32 rawOpcode)
  let (uncompressedSize, r) ← mapErr .io (readI32Le r)
  if uncompressedSize.toInt < 0 then .err (.invalidOpMsg "negative uncompressedSize") else do
  let (rawId, r) ← mapErr .io (readU8 r)
  let compressorId ← ofOption (.unsupportedCompressor rawId) (CompressorId.fromU8 rawId)
  let start ← usub body.length r.length
  let compressedMessage ← slice body start body.length
  return { originalOpcode, uncompressedSize, compressorId, compressedMessage }

/-- `wrap`: compress an already encoded body. -/
def wrap (build : Build) (opcode : Opcode) (body : Bytes) (id : CompressorId) :
    Outcome ProtocolError OpCompressed := do
  let uncompressedSize ← ofOption (.compression "body larger than i32::MAX")
    (i32TryFrom body.length)
  let compressedMessage ← build.compress id body
  return { originalOpcode := opcode, uncompressedSize, compressorId := id, compressedMessage }

end OpCompressed

/-! ## Any body -/

inductive MessageBody where
  | msg (m : OpMsg)
  | query (q : OpQuery)
  | reply (r : OpReply)
  | compressed (c : OpCompressed)
  deriving DecidableEq

namespace MessageBody

def opcode : MessageBody → Opcode
  | msg _ => .msg
  | query _ => .query
  | reply _ => .reply
  | compressed _ => .compressed

def bodyLen : MessageBody → Nat
  | msg m => m.bodyLen
  | query q => q.bodyLen
  | reply r => r.bodyLen
  | compressed c => c.bodyLen

def encodeBody : MessageBody → Bytes → Bytes
  | msg m, out => m.encodeBody out
  | query q, out => q.encodeBody out
  | reply r, out => r.encodeBody out
  | compressed c, out => c.encodeBody out

def parseBody (opcode : Opcode) (body : Bytes) : Outcome ProtocolError MessageBody :=
  match opcode with
  | .msg => do return msg (← OpMsg.parseBody body)
  | .query => do return query (← OpQuery.parseBody body)
  | .reply => do return reply (← OpReply.parseBody body)
  | .compressed => do return compressed (← OpCompressed.parseBody body)
  | _ => .err (.unsupportedOpcode opcode.toI32)

end MessageBody

/-- `unwrap_body`: decompress and parse the wrapped body. -/
def OpCompressed.unwrapBody (build : Build) (c : OpCompressed) (maxMsgLen : Int32) :
    Outcome ProtocolError MessageBody :=
  if c.uncompressedSize.toInt < 0 then .err (.invalidOpMsg "negative uncompressedSize") else
  if c.originalOpcode = .compressed then .err (.invalidOpMsg "nested OP_COMPRESSED") else
  if maxMsgLen.toInt < c.uncompressedSize.toInt then
    .err (.messageTooLarge c.uncompressedSize maxMsgLen)
  else do
  let decompressed ← build.decompress c.compressorId c.compressedMessage
    (i32AsUsize c.uncompressedSize)
  MessageBody.parseBody c.originalOpcode decompressed

end MongoWire
