import MongoWire.Api.Connection

/-!
# The SASL bridge

`mongowire/src/api/auth.rs`: `saslStart` and `saslContinue` on top of a SCRAM
server, everything else passed on. The random bytes of a server nonce are a
parameter of the call.
-/

open MongoWire.Lib MongoWire.Lib.Outcome

namespace MongoWire

/-- `CredentialSource::lookup`. -/
abbrev CredentialSource := ScramMechanism → String → Option StoredCredentials

structure ScramBridge where
  inner : Handler
  credentials : CredentialSource

def ConnectionInfo.setScram (ctx : ConnectionInfo) (scram : Option (ScramMechanism × ScramServer)) :
    ConnectionInfo :=
  { ctx with auth := { ctx.auth with scram } }

def ConnectionInfo.setAuthenticated (ctx : ConnectionInfo) (user : String) : ConnectionInfo :=
  { ctx with auth := { ctx.auth with authenticated := some user } }

namespace ScramBridge

def authFailed (message : String) : Error := .command 18 "AuthenticationFailed" message

/-! ## The fields of a SASL command -/

def parseMechanism (body : RawDocument) : Outcome Error ScramMechanism := do
  match ← mapErr bsonError (body.get "mechanism") with
  | some (.string name) =>
    ofOption (authFailed ("unsupported authentication mechanism " ++ name))
      (ScramMechanism.fromName name)
  | _ => .err (authFailed "saslStart requires a string mechanism")

def payloadBytes (body : RawDocument) : Outcome Error Bytes := do
  match ← mapErr bsonError (body.get "payload") with
  | some (.binary binary) => .ok binary.bytes
  | some (.string payload) => .ok (utf8 payload)
  | some _ => .err (authFailed "payload must be a string or binary")
  | none => .err (authFailed "missing payload")

def payloadStr (body : RawDocument) : Outcome Error String := do
  ofOption (authFailed "payload is not valid UTF-8") (fromUtf8 (← payloadBytes body))

/-- An `Int64` is cut to its low 32 bits, and anything unreadable counts as 1. -/
def conversationIdOf (body : RawDocument) : Outcome Error Int32 := do
  match ← toOption (body.get "conversationId") with
  | some (some (.int32 id)) => return id
  | some (some (.int64 id)) => return id.toInt32
  | _ => return 1

def payloadBson (message : String) : Bson := .binary ⟨.generic, utf8 message⟩

def saslReply (conversationId : Int32) (done : Bool) (payload : String) : Outcome Error OpMsg := do
  let doc : Document := ⟨[
    ⟨"conversationId", .int32 conversationId⟩,
    ⟨"done", .bool done⟩,
    ⟨"payload", payloadBson payload⟩,
    ⟨"ok", Error.one⟩]⟩
  let raw ← mapErr bsonError doc.encode
  opMsg ⟨0⟩ raw

/-- Undo the escapes of a username, the comma first. -/
def unescapeUsername (username : String) : String :=
  Str.replace "=3D" "=" (Str.replace "=2C" "," username)

def parseClientFirstUsername (clientFirst : String) : Option String := do
  let bare := (Str.stripPrefix "n,," clientFirst).getD clientFirst
  let username ← Str.stripPrefix "n=" (← (Str.split ',' bare).head?)
  return unescapeUsername username

/-! ## The commands -/

section Commands

variable (crypto : Crypto) (bridge : ScramBridge)

/-- What `saslStart` does before it stores the exchange: the mechanism, the server-first message
and the SCRAM server that waits for the client's proof. -/
def openExchange (random : Bytes) (body : RawDocument) :
    Outcome Error (ScramMechanism × String × ScramServer) := do
  let mechanism ← parseMechanism body
  let clientFirst ← payloadStr body
  let username ← ofOption (authFailed "malformed client-first message")
    (parseClientFirstUsername clientFirst)
  let credentials ← ofOption (authFailed "Authentication failed.")
    (bridge.credentials mechanism username)
  let (serverFirst, server) ← mapErr (fun e => authFailed e.toString)
    ((ScramServer.handleClientFirst crypto clientFirst username credentials).on
      (.new crypto mechanism random))
  return (mechanism, serverFirst, server)

def saslStart (random : Bytes) (body : RawDocument) : Method Error ConnectionInfo Reply := do
  let ctx ← .get
  .require (ctx.auth.scram = none)
    (authFailed "saslStart while an authentication exchange is already in progress")
  let (mechanism, serverFirst, server) ← .check (openExchange crypto bridge random body)
  .modify fun ctx => ctx.setScram (some (mechanism, server))
  let reply ← .check (saslReply 1 false serverFirst)
  return .msg reply

/-- What `saslContinue` does with the exchange that it took: the conversation, the server-final
message and the SCRAM server, which has verified the proof. -/
def closeExchange (scram : Option (ScramMechanism × ScramServer)) (clientFinal : String)
    (body : RawDocument) : Outcome Error (Int32 × String × ScramServer) := do
  let (_, server) ← ofOption (authFailed "saslContinue without saslStart") scram
  let conversationId ← conversationIdOf body
  let (serverFinal, server) ← mapErr (fun e => authFailed e.toString)
    ((ScramServer.handleClientFinal crypto clientFinal).on server)
  return (conversationId, serverFinal, server)

def saslContinue (body : RawDocument) : Method Error ConnectionInfo Reply := do
  let clientFinal ← .check (payloadStr body)
  let ctx ← .get
  -- `take()`: the exchange is gone, whatever happens next.
  .modify fun ctx => ctx.setScram none
  let (conversationId, serverFinal, server) ← .check
    (closeExchange crypto ctx.auth.scram clientFinal body)
  .modify fun ctx => ctx.setAuthenticated server.username
  let reply ← .check (saslReply conversationId true serverFinal)
  return .msg reply

def handleCommand (random : Bytes) (command : Command) : Method Error ConnectionInfo Reply :=
  if command.name = "saslStart" then saslStart crypto bridge random command.body
  else if command.name = "saslContinue" then saslContinue crypto command.body
  else bridge.inner.handleCommand command

end Commands

end ScramBridge

end MongoWire
