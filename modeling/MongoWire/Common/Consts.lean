import MongoWire.Lib.LittleEndian

/-!
# Protocol constants and the checksum

`mongo_common/src/consts.rs` and `crc32c.rs`. The checksum itself comes from a
crate, so the model takes it as a parameter; `crc32c` is the function that the
crate documents, for concrete frames.
-/

open MongoWire.Lib

namespace MongoWire

def msgHeaderLen : Nat := 16
def maxMsgLen : Nat := 48000000
def maxBsonLen : Nat := 16777216

namespace MsgFlag

def checksumPresent : UInt32 := 0x1
def moreToCome : UInt32 := 0x2
def exhaustAllowed : UInt32 := 0x10000

end MsgFlag

namespace QueryFlag

def tailableCursor : Int32 := 0x2
def slaveOk : Int32 := 0x4
def oplogReplay : Int32 := 0x8
def noCursorTimeout : Int32 := 0x10
def awaitData : Int32 := 0x20
def exhaust : Int32 := 0x40
def allowPartial : Int32 := 0x80

end QueryFlag

namespace ReplyFlag

def cursorNotFound : Int32 := 0x1
def queryFailure : Int32 := 0x2
def shardConfigStale : Int32 := 0x4
def awaitCapable : Int32 := 0x8

end ReplyFlag

/-- A checksum of a byte string, as `mongo_common::crc32c::checksum` computes one. -/
abbrev Checksum := Bytes → UInt32

/-- One bit of the reflected Castagnoli polynomial. -/
def crcBit (c : UInt32) : UInt32 :=
  if c &&& 1 = 1 then (c >>> 1) ^^^ 0x82F63B78 else c >>> 1

def crcByte (c : UInt32) (b : UInt8) : UInt32 :=
  crcBit (crcBit (crcBit (crcBit (crcBit (crcBit (crcBit (crcBit (c ^^^ b.toUInt32))))))))

/-- CRC-32C (RFC 4960, appendix B). -/
def crc32c : Checksum := fun data => data.foldl crcByte 0xFFFFFFFF ^^^ 0xFFFFFFFF

-- The standard check value, of "123456789".
example : crc32c [49, 50, 51, 52, 53, 54, 55, 56, 57] = 0xE3069283 := by decide +kernel

end MongoWire
