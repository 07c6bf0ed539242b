import MongoWire.Messages.Header

/-!
# `OP_MSG`

`mongowire/src/messages/op_msg.rs`. Assertions that only debug builds make are
left out.
-/

open MongoWire.Lib MongoWire.Lib.Outcome MongoWire.Io

namespace MongoWire

/-! ## Flags -/

/-- `MsgFlags`: any 32 bits, as `from_bits_retain` can make them. -/
structure MsgFlags where
  bits : UInt32
  deriving DecidableEq

namespace MsgFlags

def checksumPresent : MsgFlags := ⟨MsgFlag.checksumPresent⟩
def moreToCome : MsgFlags := ⟨MsgFlag.moreToCome⟩
def exhaustAllowed : MsgFlags := ⟨MsgFlag.exhaustAllowed⟩

/-- All the flags that have a name. -/
def all : UInt32 := MsgFlag.checksumPresent ||| MsgFlag.moreToCome ||| MsgFlag.exhaustAllowed

def fromBitsTruncate (raw : UInt32) : MsgFlags := ⟨raw &&& all⟩

def contains (f g : MsgFlags) : Bool := f.bits &&& g.bits = g.bits

/-- `f - g`. -/
def difference (f g : MsgFlags) : MsgFlags := ⟨f.bits &&& ~~~ g.bits⟩

def requiredBits : UInt32 := 0x0000FFFF

def parse (raw : UInt32) : Outcome ProtocolError MsgFlags :=
  let known := MsgFlag.checksumPresent ||| MsgFlag.moreToCome ||| MsgFlag.exhaustAllowed
  if raw &&& requiredBits &&& ~~~ known ≠ 0 then
    .err (.invalidOpMsg "unknown required flag bits")
  else .ok (fromBitsTruncate raw)

end MsgFlags

/-! ## Sections -/

structure DocumentSequence where
  identifier : String
  documents : List RawDocument
  deriving DecidableEq

structure Sections where
  body : RawDocument
  sequences : List DocumentSequence
  deriving DecidableEq

/-- The bytes of documents back to back. -/
def documentsLen (ds : List RawDocument) : Nat := (ds.map fun d => d.bytes.length).sum

def putDocuments : List RawDocument → Bytes → Bytes
  | [], out => out
  | d :: ds, out => putDocuments ds (putBytes d.bytes out)

namespace Sections

/-- The loop of `Sections::new` over the sequences. -/
def checkIdentifiers (bodyFields : List Bytes) :
    List DocumentSequence → Outcome ProtocolError Unit
  | [] => .ok ()
  | seq :: rest =>
    if seq.identifier = "" then
      .err (.invalidOpMsg "kind 1 section has no identifier")
    else if (utf8 seq.identifier).contains 0 then
      .err (.invalidOpMsg "kind 1 identifier contains NUL")
    else if bodyFields.contains (utf8 seq.identifier) then
      .err (.invalidOpMsg "kind 1 identifier duplicates a body field")
    else checkIdentifiers bodyFields rest

/-- The body's top-level field names, or the first error of the scan. -/
def bodyFields (body : RawDocument) : Outcome BsonError (List Bytes) :=
  body.fields.mapM fun field => do
    let (name, _) ← field
    return utf8 name

def new (body : RawDocument) (sequences : List DocumentSequence) :
    Outcome ProtocolError Sections :=
  if sequences = [] then .ok { body, sequences } else do
  let bodyFields ← mapErr .bson (bodyFields body)
  checkIdentifiers bodyFields sequences
  return { body, sequences }

/-- The length of one kind-1 section, without its kind byte. -/
def sequenceLen (seq : DocumentSequence) : Nat :=
  4 + (utf8 seq.identifier).length + 1 + documentsLen seq.documents

def size (s : Sections) : Nat :=
  s.sequences.foldl (fun n seq => n + (1 + sequenceLen seq)) (1 + s.body.bytes.length)

end Sections

structure OpMsg where
  flags : MsgFlags
  sections : Sections
  checksum : Option UInt32
  deriving DecidableEq

namespace OpMsg

def new (flags : MsgFlags) (body : RawDocument) (sequences : List DocumentSequence) :
    Outcome ProtocolError OpMsg := do
  let sections ← Sections.new body sequences
  return { flags := flags.difference .checksumPresent, sections, checksum := none }

/-! ## Encoding -/

def bodyLen (m : OpMsg) : Nat := 4 + m.sections.size + if m.checksum.isSome then 4 else 0

def putSequence (seq : DocumentSequence) (out : Bytes) : Bytes :=
  let out := putU32Le (.ofNat (Sections.sequenceLen seq)) (putU8 1 out)
  putDocuments seq.documents (putU8 0 (putBytes (utf8 seq.identifier) out))

def putSequences : List DocumentSequence → Bytes → Bytes
  | [], out => out
  | seq :: rest, out => putSequences rest (putSequence seq out)

def encodeBody (m : OpMsg) (out : Bytes) : Bytes :=
  let out := putBytes m.sections.body.bytes (putU8 0 (putU32Le m.flags.bits out))
  let out := putSequences m.sections.sequences out
  match m.checksum with
  | some checksum => putU32Le checksum out
  | none => out

/-! ## Parsing -/

/-- `u32::from_le_bytes(body[i..i + 4].try_into().expect(..))`. -/
def u32At (body : Bytes) (i : Nat) : Outcome ProtocolError UInt32 := do
  let b ← expectBlock 4 (← slice body i (i + 4))
  return u32FromLe b.val

/-- `take_document`: the document at `offset`, and the offset past it. -/
def takeDocument (body : Bytes) (offset stop : Nat) : Outcome ProtocolError (RawDocument × Nat) :=
  if stop < offset then .err (.invalidOpMsg "section cursor overran its end") else
  let rest := stop - offset
  if rest < 4 then .err (.invalidOpMsg "truncated document") else do
  let b ← expectBlock 4 (← slice body offset (offset + 4))
  let len := i32FromLe b.val
  if len.toInt < minDocLen ∨ rest < i32AsUsize len then
    .err (.invalidOpMsg "invalid document length")
  else do
  let doc ← mapErr .bson (RawDocument.fromBytes (← slice body offset (offset + i32AsUsize len)))
  return (doc, offset + i32AsUsize len)

/-- The documents of one section, until `secRest` bytes are used up. -/
def takeDocuments (body : Bytes) (secEnd : Nat) : (fuel secRest offset : Nat) →
    List RawDocument → Outcome ProtocolError (List RawDocument × Nat)
  | 0, _, _, _ => .hang
  | fuel + 1, secRest, offset, documents =>
    if secRest = 0 then .ok (documents, offset) else do
    let (doc, next) ← takeDocument body offset secEnd
    let secRest ← usub secRest (← usub next offset)
    takeDocuments body secEnd fuel secRest next (documents ++ [doc])

/-- The identifier and the documents of a section that ends at `secEnd`. -/
def takePayload (body : Bytes) (offset secEnd : Nat) :
    Outcome ProtocolError (DocumentSequence × Nat) := do
  let identLen ← ofOption (.invalidOpMsg "truncated section identifier")
    (nulPos (← slice body offset secEnd))
  let identifier ← ofOption (.invalidOpMsg "invalid UTF-8 in section identifier")
    (fromUtf8 (← slice body offset (offset + identLen)))
  let offset := offset + (identLen + 1)
  let secRest ← usub secEnd offset
  let (documents, offset) ← takeDocuments body secEnd (body.length + 1) secRest offset []
  return ({ identifier, documents }, offset)

/-- The arm of kind 1, with the cursor on the size field. -/
def takeSequence (body : Bytes) (offset stop : Nat) :
    Outcome ProtocolError (DocumentSequence × Nat) :=
  if stop < offset then .err (.invalidOpMsg "section cursor overran its end") else
  let sectionRoom := stop - offset
  if sectionRoom < 4 then .err (.invalidOpMsg "truncated section size") else do
  let rawSize ← u32At body offset
  let secSize : Int := rawSize.toNat - 4
  if secSize < 5 then .err (.invalidOpMsg "section size too small") else do
  let room ← usub (← usub stop offset) 4
  if (room : Int) < secSize then .err (.invalidOpMsg "section exceeds the message") else
  takePayload body (offset + 4) (offset + 4 + secSize.toNat)

/-- What the section loop carries from one round to the next. -/
structure Cursor where
  offset : Nat
  bodyDoc : Option RawDocument
  sequences : List DocumentSequence

/-- One round of the section loop. -/
def takeSection (body : Bytes) (stop : Nat) (c : Cursor) : Outcome ProtocolError Cursor :=
  match body[c.offset]? with
  | none => .err (.invalidOpMsg "truncated section kind")
  | some kind =>
    let offset := c.offset + 1
    if kind = 0 then
      if c.bodyDoc.isSome then .err (.invalidOpMsg "multiple kind 0 sections") else
      if c.sequences ≠ [] then .err (.invalidOpMsg "kind 0 section must be the first section") else
      do
      let (doc, next) ← takeDocument body offset stop
      return { c with offset := next, bodyDoc := some doc }
    else if kind = 1 then do
      let (seq, next) ← takeSequence body offset stop
      return { c with offset := next, sequences := c.sequences ++ [seq] }
    else .err (.invalidOpMsg "unknown section kind")

def takeSections (body : Bytes) (stop : Nat) : (fuel : Nat) → Cursor → Outcome ProtocolError Cursor
  | 0, _ => .hang
  | fuel + 1, c => do
    let c ← takeSection body stop c
    if c.offset = stop then .ok c else takeSections body stop fuel c

def takeTrailer (body : Bytes) (stop : Nat) (checksummed : Bool) :
    Outcome ProtocolError (Option UInt32) :=
  if checksummed then do return some (← u32At body stop) else .ok none

def parseBody (body : Bytes) : Outcome ProtocolError OpMsg :=
  if body.length < 5 then .err (.invalidOpMsg "body too short for OP_MSG") else do
  let flags ← MsgFlags.parse (← u32At body 0)
  let checksummed := flags.contains .checksumPresent
  let trailer := if checksummed then 4 else 0
  if body.length < 6 + trailer then .err (.invalidOpMsg "body too short for OP_MSG") else do
  let stop ← usub body.length trailer
  let c ← takeSections body stop (body.length + 1) ⟨4, none, []⟩
  let checksum ← takeTrailer body stop checksummed
  let bodyDoc ← ofOption (.invalidOpMsg "no kind 0 section") c.bodyDoc
  let sections ← Sections.new bodyDoc c.sequences
  return { flags, sections, checksum }

end OpMsg

end MongoWire
