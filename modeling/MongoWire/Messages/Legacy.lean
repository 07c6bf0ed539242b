import MongoWire.Messages.OpMsg

/-!
# `OP_QUERY` and `OP_REPLY`

`mongowire/src/messages/op_query.rs` and `op_reply.rs`. Both slice documents
off the body with the same `take_document`.
-/

open MongoWire.Lib MongoWire.Lib.Outcome MongoWire.Io

namespace MongoWire

namespace Legacy

/-- `take_document`: the document at the cursor `r` over `body`, and the cursor past it. -/
def takeDocument (body r : Bytes) : Outcome ProtocolError (RawDocument × Bytes) := do
  let start ← usub body.length r.length
  let len ← mapErr (fun _ => .invalidBody "truncated document") (peekI32Le r)
  if len.toInt < minDocLen ∨ r.length < i32AsUsize len then
    .err (.invalidBody "invalid document length")
  else do
  let doc ← mapErr .bson (RawDocument.fromBytes (← slice body start (start + i32AsUsize len)))
  let (_, r) ← mapErr (fun _ => .invalidBody "truncated document") (readBytes (i32AsUsize len) r)
  return (doc, r)

end Legacy

/-! ## `OP_QUERY` -/

structure QueryFlags where
  bits : Int32
  deriving DecidableEq

namespace QueryFlags

def all : Int32 :=
  QueryFlag.tailableCursor ||| QueryFlag.slaveOk ||| QueryFlag.oplogReplay
    ||| QueryFlag.noCursorTimeout ||| QueryFlag.awaitData ||| QueryFlag.exhaust
    ||| QueryFlag.allowPartial

def fromBitsTruncate (raw : Int32) : QueryFlags := ⟨raw &&& all⟩

end QueryFlags

structure OpQuery where
  flags : QueryFlags
  fullCollectionName : String
  numberToSkip : Int32
  numberToReturn : Int32
  query : RawDocument
  returnFieldsSelector : Option RawDocument
  deriving DecidableEq

namespace OpQuery

def bodyLen (q : OpQuery) : Nat :=
  12 + (utf8 q.fullCollectionName).length + 1 + q.query.bytes.length +
    match q.returnFieldsSelector with
    | some d => d.bytes.length
    | none => 0

def encodeBody (q : OpQuery) (out : Bytes) : Bytes :=
  let out := putU8 0 (putBytes (utf8 q.fullCollectionName) (putI32Le q.flags.bits out))
  let out := putI32Le q.numberToReturn (putI32Le q.numberToSkip out)
  let out := putBytes q.query.bytes out
  match q.returnFieldsSelector with
  | some selector => putBytes selector.bytes out
  | none => out

/-- The optional document at the end. -/
def takeSelector (body r : Bytes) : Outcome ProtocolError (Option RawDocument × Bytes) :=
  if r = [] then .ok (none, r) else do
  let (d, r) ← Legacy.takeDocument body r
  return (some d, r)

def parseBody (body : Bytes) : Outcome ProtocolError OpQuery := do
  let (raw, r) ← mapErr .io (readI32Le body)
  let (name, r) ← mapErr .io (readCstring r)
  if name = [] then .err (.invalidBody "empty fullCollectionName") else do
  let fullCollectionName ← ofOption (.invalidBody "invalid UTF-8 in fullCollectionName")
    (fromUtf8 name)
  let (numberToSkip, r) ← mapErr .io (readI32Le r)
  let (numberToReturn, r) ← mapErr .io (readI32Le r)
  let (query, r) ← Legacy.takeDocument body r
  let (returnFieldsSelector, r) ← takeSelector body r
  if r ≠ [] then .err (.invalidBody "trailing bytes after returnFieldsSelector") else
  .ok { flags := .fromBitsTruncate raw, fullCollectionName, numberToSkip, numberToReturn, query,
        returnFieldsSelector }

end OpQuery

/-! ## `OP_REPLY` -/

structure ReplyFlags where
  bits : Int32
  deriving DecidableEq

namespace ReplyFlags

def all : Int32 :=
  ReplyFlag.cursorNotFound ||| ReplyFlag.queryFailure ||| ReplyFlag.shardConfigStale
    ||| ReplyFlag.awaitCapable

def fromBitsTruncate (raw : Int32) : ReplyFlags := ⟨raw &&& all⟩

end ReplyFlags

structure OpReply where
  responseFlags : ReplyFlags
  cursorId : Int64
  startingFrom : Int32
  numberReturned : Int32
  documents : List RawDocument
  deriving DecidableEq

namespace OpReply

def bodyLen (r : OpReply) : Nat := 20 + documentsLen r.documents

def encodeBody (r : OpReply) (out : Bytes) : Bytes :=
  let out := putI64Le r.cursorId (putI32Le r.responseFlags.bits out)
  -- The count on the wire is that of the documents, not `number_returned`.
  let out := putI32Le (.ofNat r.documents.length) (putI32Le r.startingFrom out)
  putDocuments r.documents out

/-- `n` documents off the cursor. -/
def takeDocuments (body : Bytes) : (n : Nat) → (r : Bytes) → List RawDocument →
    Outcome ProtocolError (List RawDocument × Bytes)
  | 0, r, documents => .ok (documents, r)
  | n + 1, r, documents => do
    let (doc, r) ← Legacy.takeDocument body r
    takeDocuments body n r (documents ++ [doc])

def parseBody (body : Bytes) : Outcome ProtocolError OpReply := do
  let (raw, r) ← mapErr .io (readI32Le body)
  let (cursorId, r) ← mapErr .io (readI64Le r)
  let (startingFrom, r) ← mapErr .io (readI32Le r)
  let (numberReturned, r) ← mapErr .io (readI32Le r)
  if numberReturned.toInt < 0 then .err (.invalidBody "negative numberReturned") else
  if r.length / minDocLen < i32AsUsize numberReturned then
    .err (.invalidBody "numberReturned exceeds the body size")
  else do
  let (documents, r) ← takeDocuments body numberReturned.toInt.toNat r []
  if r ≠ [] then .err (.invalidBody "trailing bytes after the documents") else
  .ok { responseFlags := .fromBitsTruncate raw, cursorId, startingFrom, numberReturned, documents }

end OpReply

end MongoWire
