import MongoWire.Auth.Scram
import MongoWire.Bson.Encode
import MongoWire.Messages.Body

/-!
# Connections, commands and replies

`mongowire/src/error.rs`, `api/client_info.rs`, `api/handler.rs`,
`api/response.rs` and the negotiation of `api/mod.rs`. The clock is a parameter.
-/

open MongoWire.Lib MongoWire.Lib.Outcome

namespace MongoWire

/-! ## Errors -/

inductive Error where
  /-- The byte stream is unusable. -/
  | protocol (e : ProtocolError)
  /-- A failure that is reported to the client. -/
  | command (code : Int32) (codeName message : String)
  deriving DecidableEq

namespace Error

/-- `0.0` and `1.0`, as their bits. -/
def zero : Bson := .double 0
def one : Bson := .double 0x3FF0000000000000

def toErrorResponseDoc : Error → Option Document
  | protocol _ => none
  | command code codeName message => some ⟨[
      ⟨"ok", zero⟩,
      ⟨"errmsg", .string message⟩,
      ⟨"code", .int32 code⟩,
      ⟨"codeName", .string codeName⟩,
      ⟨"$db", .string "admin"⟩]⟩

end Error

/-! ## Per-connection state -/

structure AuthState where
  scram : Option (ScramMechanism × ScramServer)
  authenticated : Option String
  deriving DecidableEq

structure ConnectionInfo where
  requestIdCounter : Int32
  negotiatedCompressors : List CompressorId
  checksum : Bool
  auth : AuthState
  deriving DecidableEq

namespace ConnectionInfo

def new : ConnectionInfo where
  requestIdCounter := 0
  negotiatedCompressors := []
  checksum := true
  auth := ⟨none, none⟩

/-- `next_request_id`: the id, and the counter after `fetch_add`, which wraps. -/
def nextRequestId : Method ε ConnectionInfo Int32 := do
  let ctx ← .get
  .modify fun ctx => { ctx with requestIdCounter := ctx.requestIdCounter + 1 }
  return ctx.requestIdCounter

end ConnectionInfo

/-! ## Handlers -/

structure Command where
  name : String
  body : RawDocument
  sequences : List DocumentSequence
  flags : MsgFlags
  deriving DecidableEq

inductive Reply where
  | msg (m : OpMsg)
  | noReply
  deriving DecidableEq

/-- `CommandHandler`: any method of the connection's state that comes back. -/
structure Handler where
  handleCommand : Command → Method Error ConnectionInfo Reply
  returns : ∀ command, (handleCommand command).Returns

/-! ## Ready-made replies -/

def bsonError (e : BsonError) : Error := .protocol (.bson e)

def opMsg (flags : MsgFlags) (body : RawDocument) : Outcome Error OpMsg :=
  mapErr .protocol (OpMsg.new flags body [])

@[simp] theorem opMsg_eq (flags : MsgFlags) (body : RawDocument) :
    opMsg flags body = .ok ⟨flags.difference .checksumPresent, ⟨body, []⟩, none⟩ := by
  simp [opMsg, OpMsg.new, Sections.new]

def CompressorId.name : CompressorId → String
  | noop => "noop"
  | snappy => "snappy"
  | zlib => "zlib"
  | zstd => "zstd"

def handshakeDoc (compressors : List CompressorId) (maxMsgLen : Int32) (legacyIsMaster : Bool)
    (now : Int64) : Document :=
  ⟨[⟨"ok", Error.one⟩,
    ⟨if legacyIsMaster then "ismaster" else "isWritablePrimary", .bool true⟩,
    ⟨"helloOk", .bool true⟩,
    ⟨"maxBsonObjectSize", .int32 (.ofNat maxBsonLen)⟩,
    ⟨"maxMessageSizeBytes", .int32 maxMsgLen⟩,
    ⟨"maxWriteBatchSize", .int32 100000⟩,
    ⟨"localTime", .dateTime now⟩,
    ⟨"logicalSessionTimeoutMinutes", .int32 30⟩,
    ⟨"connectionId", .int32 1⟩,
    ⟨"minWireVersion", .int32 0⟩,
    ⟨"maxWireVersion", .int32 21⟩,
    ⟨"readOnly", .bool false⟩] ++
    if compressors = [] then []
    else [⟨"compression", .array ⟨compressors.map fun c => .string c.name⟩⟩]⟩

def handshakeReply (compressors : List CompressorId) (maxMsgLen : Int32) (legacyIsMaster : Bool)
    (now : Int64) : Outcome Error OpMsg := do
  let raw ← mapErr bsonError (handshakeDoc compressors maxMsgLen legacyIsMaster now).encode
  opMsg ⟨0⟩ raw

def queryHandshakeReply (body : RawDocument) : OpReply where
  responseFlags := ⟨ReplyFlag.awaitCapable⟩
  cursorId := 0
  startingFrom := 0
  numberReturned := 1
  documents := [body]

/-! ## Negotiation -/

/-- The text of a string value; other values are passed over. -/
def stringOf : Bson → Option String
  | .string name => some name
  | _ => none

def requestedCompressors (body : RawDocument) : Outcome Error (Option (List String)) := do
  match ← toOption (body.get "compression") with
  | some (some (.array names)) =>
    match ← toOption names.shallow with
    | some array => return some (array.values.filterMap stringOf)
    | none => return none
  | _ => return none

def negotiate (configured : List CompressorId) : Option (List String) → List CompressorId
  | none => []
  | some requested => configured.filter fun c => requested.any fun name => name = c.name

end MongoWire
