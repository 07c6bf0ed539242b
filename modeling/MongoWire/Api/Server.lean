import MongoWire.Api.Connection
import MongoWire.Ingress
import MongoWire.Lib.Loop

/-!
# One connection

`process_socket`, `error_reply` and `send_reply` of `mongowire/src/api/mod.rs`.
What arrives is a sequence of decoded frames, and a write to the socket succeeds.
-/

open MongoWire.Lib MongoWire.Lib.Outcome

namespace MongoWire

structure ServerConfig where
  maxMsgLen : Int32
  checksum : Bool
  compressors : List CompressorId

/-- What `framed.next()` gave, and the time at which it is looked at. -/
structure Arrival where
  frame : Except ProtocolError (Header × MessageBody)
  now : Int64

structure Sent where
  header : Header
  body : MessageBody
  bytes : Bytes

/-- The state of `process_socket`, with a record of what it did: the calls of the handler and the
replies, in order. -/
structure Socket where
  ctx : ConnectionInfo
  calls : List (Command × Except Error Reply)
  sent : List Sent

/-- How `process_socket` returns before the stream ends. -/
inductive Exit where
  /-- `Ok(())`. -/
  | closed
  /-- An I/O error of the kind `InvalidData`. -/
  | invalidData (e : Error)
  deriving DecidableEq

namespace Socket

def setCtx (s : Socket) (ctx : ConnectionInfo) : Socket := { s with ctx }

def new (config : ServerConfig) : Socket where
  ctx := { ConnectionInfo.new with checksum := config.checksum }
  calls := []
  sent := []

end Socket

namespace Server

/-! ## Replies -/

/-- The reply to a request that failed, or `none` when the connection must close. -/
def errorReply (e : Error) (request : MessageBody) : Outcome Exit (Option MessageBody) :=
  match e.toErrorResponseDoc with
  | none => .ok none
  | some doc => do
    match ← toOption doc.encode with
    | none => return none
    | some raw =>
      match request with
      | .query _ =>
        let reply := queryHandshakeReply raw
        return some (.reply { reply with
          responseFlags := ⟨reply.responseFlags.bits ||| ReplyFlag.queryFailure⟩ })
      | _ => return (← toOption (opMsg ⟨0⟩ raw)).map .msg

/-- Only an `OP_MSG` can carry a checksum. -/
def signs (ctx : ConnectionInfo) : MessageBody → Bool
  | .msg _ => ctx.checksum
  | _ => false

/-- Both ways to write a reply end in `encode_message` on an empty buffer. -/
def sendReply (crc : Checksum) (responseTo : Int32) (body : MessageBody) :
    Method Exit Socket Unit := do
  let requestId ← ConnectionInfo.nextRequestId.zoom Socket.ctx Socket.setCtx
  let s ← .get
  let header : Header := ⟨0, requestId, responseTo, body.opcode⟩
  let encoded := Framing.encodeMessage crc header body (signs s.ctx body) []
  .check (mapErr (fun e => .invalidData (.protocol e)) encoded.result)
  .modify fun s => { s with sent := s.sent ++ [⟨encoded.header, body, encoded.out⟩] }

/-! ## Requests -/

def callHandler (handler : Handler) (command : Command) :
    Method Exit Socket (Except Error Reply) := do
  let outcome ← (handler.handleCommand command).attempt.zoom Socket.ctx Socket.setCtx
  .modify fun s => { s with calls := s.calls ++ [(command, outcome)] }
  return outcome

def commandNotFound : Error :=
  .command 59 "CommandNotFound" "OP_QUERY only supports hello/isMaster"

def isHandshake (name : String) : Bool := name = "hello" ∨ name = "isMaster" ∨ name = "ismaster"

def processQuery (crc : Checksum) (config : ServerConfig) (now : Int64) (header : Header)
    (query : OpQuery) : Method Exit Socket Unit := do
  let name ← .check (mapErr (fun _ => .closed) query.query.command)
  if ¬ isHandshake name then
    match ← .check (errorReply commandNotFound (.query query)) with
    | some reply => sendReply crc header.requestId reply
    | none => return ()
  else do
    let requested ← .check (mapErr .invalidData (requestedCompressors query.query))
    let negotiated := negotiate config.compressors requested
    .modify fun s => s.setCtx { s.ctx with negotiatedCompressors := negotiated }
    let reply ← .check
      (mapErr .invalidData (handshakeReply negotiated config.maxMsgLen true now))
    sendReply crc header.requestId (.reply (queryHandshakeReply reply.sections.body))

def processMsg (crc : Checksum) (handler : Handler) (header : Header) (msg : OpMsg) :
    Method Exit Socket Unit := do
  let name ← .check (mapErr (fun _ => .closed) msg.sections.body.command)
  let command : Command := ⟨name, msg.sections.body, msg.sections.sequences, msg.flags⟩
  let outcome ← callHandler handler command
  -- The handler runs, but its result is not wanted.
  if command.flags.contains .moreToCome then return () else
  match outcome with
  | .ok (.msg reply) => sendReply crc header.requestId (.msg reply)
  | .ok .noReply => return ()
  | .error e =>
    match ← .check (errorReply e (.msg msg)) with
    | some reply => sendReply crc header.requestId reply
    | none => .check (.err .closed)

/-- The body of the loop. -/
def processFrame (crc : Checksum) (build : Build) (config : ServerConfig)
    (handler : Handler) (arrival : Arrival) : Method Exit Socket Unit :=
  match arrival.frame with
  | .error _ => .check (.err .closed)
  | .ok (header, wire) => do
    match ← .check (mapErr (fun _ => .closed) (Ingress.unwrap build config.maxMsgLen wire)) with
    | .query query => processQuery crc config arrival.now header query
    | .msg msg => processMsg crc handler header msg
    | .reply _ => return ()
    | .compressed _ => .check (.err .closed)

def processSocket (crc : Checksum) (build : Build) (config : ServerConfig)
    (handler : Handler) (arrivals : List Arrival) : Outcome Exit Unit × Socket :=
  Method.forEach (processFrame crc build config handler) arrivals (.new config)

end Server

end MongoWire
