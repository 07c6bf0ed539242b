import MongoWire.Messages.Body

/-!
# Frames

`mongowire/src/framing.rs`. Both functions change a buffer in place, so the
model returns the buffer next to the result, also when the result is an error.
-/

open MongoWire.Lib MongoWire.Lib.Outcome MongoWire.Io

namespace MongoWire.Framing

/-! ## Parsing -/

/-- `u32::from_le_bytes(b[i..j].try_into().expect(..))`. -/
def u32In (b : Bytes) (i j : Nat) : Outcome ProtocolError UInt32 := do
  let w ← expectBlock 4 (← slice b i j)
  return u32FromLe w.val

/-- A frame that claims a checksum it has no room for. -/
def rejectShort (header : Header) (messageLength : Nat) (buf : Bytes) :
    Outcome ProtocolError Unit :=
  if header.opCode = .msg ∧ msgHeaderLen + 4 ≤ messageLength ∧ messageLength < msgHeaderLen + 10
  then do
    let flagBits ← u32In buf msgHeaderLen (msgHeaderLen + 4)
    if flagBits &&& MsgFlag.checksumPresent ≠ 0 then
      .err (.invalidOpMsg "frame too short for a checksummed OP_MSG")
    else .ok ()
  else .ok ()

/-- The CRC-32C of an `OP_MSG` that carries one. -/
def verifyChecksum (crc : Checksum) (header : Header) (messageLength : Nat) (buf : Bytes) :
    Outcome ProtocolError Unit :=
  if header.opCode = .msg ∧ msgHeaderLen + 8 ≤ messageLength then do
    let frame ← slice buf 0 messageLength
    let flagBits ← u32In frame msgHeaderLen (msgHeaderLen + 4)
    if flagBits &&& MsgFlag.checksumPresent ≠ 0 then do
      let trailerAt ← usub messageLength 4
      let expected ← u32In frame trailerAt frame.length
      let computed := crc (← slice frame 0 trailerAt)
      if computed ≠ expected then .err (.checksumMismatch expected computed) else .ok ()
    else .ok ()
  else .ok ()

/-- `buf.split_to(len)`. -/
def freeze (buf : Bytes) (len : Nat) : Outcome ProtocolError (Bytes × Bytes) :=
  if len ≤ buf.length then .ok (buf.take len, buf.drop len) else .panic

/-- Header, length and checksum: the frame and the bytes after it, or `none` while bytes of it are
missing. -/
def takeFrame (crc : Checksum) (maxLen : Int32) (buf : Bytes) :
    Outcome ProtocolError (Option (Header × Bytes × Bytes)) :=
  if buf.length < msgHeaderLen then .ok none else do
  let header ← Header.parse (← slice buf 0 msgHeaderLen) maxLen
  let messageLength := i32AsUsize header.messageLength
  if buf.length < messageLength then .ok none else do
  rejectShort header messageLength buf
  verifyChecksum crc header messageLength buf
  let (frame, rest) ← freeze buf messageLength
  return some (header, frame, rest)

/-- The body of a frame that was just split off the buffer. -/
def parseFrame (header : Header) (frame : Bytes) :
    Outcome ProtocolError (Option (Header × MessageBody)) := do
  let body ← MessageBody.parseBody header.opCode (← slice frame msgHeaderLen frame.length)
  return some (header, body)

/-- `parse_message`: the result, and what is left in the buffer. -/
def parseMessage (crc : Checksum) (maxLen : Int32) (buf : Bytes) :
    Outcome ProtocolError (Option (Header × MessageBody)) × Bytes :=
  match takeFrame crc maxLen buf with
  | .ok none => (.ok none, buf)
  -- The frame is consumed before its body is parsed, and stays consumed if that fails.
  | .ok (some (header, frame, rest)) => (parseFrame header frame, rest)
  | .err e => (.err e, buf)
  | .panic => (.panic, buf)
  | .hang => (.hang, buf)

/-! ## Encoding -/

/-- What `encode_message` leaves behind: its result, the header and the buffer. -/
structure Encoded where
  result : Outcome ProtocolError Unit
  header : Header
  out : Bytes

/-- The end of the call, after the last step that changes `out`. A step that fails changes nothing. -/
def Encoded.finish (header : Header) (out : Bytes) : Outcome ProtocolError Bytes → Encoded
  | .ok out => ⟨.ok (), header, out⟩
  | .err e => ⟨.err e, header, out⟩
  | .panic => ⟨.panic, header, out⟩
  | .hang => ⟨.hang, header, out⟩

/-- `out[pos..pos + b.len()].copy_from_slice(b)`. -/
def copyAt (pos : Nat) (b out : Bytes) : Outcome ProtocolError Bytes :=
  if pos + b.length ≤ out.length then .ok (out.take pos ++ b ++ out.drop (pos + b.length))
  else .panic

/-- Set `checksumPresent` in the flag word at `flagsAt`. -/
def patchFlags (flagsAt : Nat) (out : Bytes) : Outcome ProtocolError Bytes := do
  let flagBits ← u32In out flagsAt (flagsAt + 4)
  copyAt flagsAt (u32ToLe (flagBits ||| MsgFlag.checksumPresent)) out

/-- The branch of a checksum: patch the flags, then append the CRC-32C of the frame. -/
def appendChecksum (crc : Checksum) (body : MessageBody) (start : Nat) (out : Bytes) :
    Outcome ProtocolError Bytes := do
  let out ← match body with
    | .msg m =>
      if m.checksum.isSome then .err (.invalidOpMsg "body already carries a checksum trailer")
      else patchFlags (start + msgHeaderLen) out
    | _ => .ok out
  let computed := crc (← slice out start out.length)
  return out ++ u32ToLe computed

/-- The length of the frame, before it is narrowed to an `i32`. -/
def total (body : MessageBody) (checksum : Bool) : Nat :=
  msgHeaderLen + body.bodyLen + if checksum then 4 else 0

def encodeMessage (crc : Checksum) (header : Header) (body : MessageBody) (checksum : Bool)
    (out : Bytes) : Encoded :=
  match i32TryFrom (total body checksum) with
  | none => ⟨.err (.messageTooLarge Int32.maxValue (.ofNat maxMsgLen)), header, out⟩
  | some total =>
    if maxMsgLen < total.toInt then
      ⟨.err (.messageTooLarge total (.ofNat maxMsgLen)), header, out⟩
    else
      let header := { header with messageLength := total }
      let start := out.length
      let out := body.encodeBody (header.encode out)
      if checksum then .finish header out (appendChecksum crc body start out)
      else ⟨.ok (), header, out⟩

end MongoWire.Framing
