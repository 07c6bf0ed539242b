import MongoWire.Lib.Method
import MongoWire.Lib.Str

/-!
# SCRAM

`mongo_common/src/auth/scram.rs` and the errors of `mongo_common/src/auth/mod.rs`:
the client and the server of one exchange. The cryptography is a parameter, and
so are the random bytes of a nonce. Assignments to fields with no exit between
them are one `modify`. Assertions that only debug builds make are left out.
-/

open MongoWire.Lib MongoWire.Lib.Outcome

namespace MongoWire

inductive AuthError where
  | invalidMessage (what : String)
  | failure (text : String)
  | nonceMismatch
  | serverSignatureMismatch
  | clientProofMismatch
  | state
  deriving DecidableEq

def AuthError.toString : AuthError → String
  | invalidMessage what => "invalid authentication message: " ++ what
  | failure text => "authentication failed: " ++ text
  | nonceMismatch => "nonce mismatch"
  | serverSignatureMismatch => "server signature mismatch"
  | clientProofMismatch => "client proof mismatch"
  | state => "authentication step out of order"

namespace Scram

def usernameKey : Char := 'n'
def nonceKey : Char := 'r'
def saltKey : Char := 's'
def iterationKey : Char := 'i'
def channelBindingKey : Char := 'c'
def proofKey : Char := 'p'
def verifierKey : Char := 'v'
def errorKey : Char := 'e'

def noChannelBindingFlag : String := "biws"

def maxScramIterations : UInt32 := 1000000

def gs2NoBindingHeader : String := "n,,"

end Scram

open Scram

/-! ## Mechanisms and their cryptography -/

inductive ScramMechanism where
  | sha1
  | sha256
  deriving DecidableEq

namespace ScramMechanism

def name : ScramMechanism → String
  | sha1 => "SCRAM-SHA-1"
  | sha256 => "SCRAM-SHA-256"

def fromName (name : String) : Option ScramMechanism :=
  if name = "SCRAM-SHA-1" then some sha1
  else if name = "SCRAM-SHA-256" then some sha256
  else none

end ScramMechanism

/-- What the crates `hmac`, `sha1`, `sha2`, `md5`, `pbkdf2` and `base64` compute. -/
structure Crypto where
  hmac : ScramMechanism → Bytes → Bytes → Bytes
  hash : ScramMechanism → Bytes → Bytes
  pbkdf2 : ScramMechanism → Bytes → Bytes → UInt32 → Bytes
  md5 : Bytes → Bytes
  base64Encode : Bytes → String
  base64Decode : String → Option Bytes

variable (crypto : Crypto)

namespace Scram

def hexDigit (n : UInt8) : Char := Nat.digitChar n.toNat

def toLowerHex (bytes : Bytes) : String :=
  .ofList (bytes.flatMap fun b => [hexDigit (b / 16), hexDigit (b % 16)])

def mongoSha1Password (username password : String) : String :=
  toLowerHex (crypto.md5 (utf8 username ++ utf8 ":mongo:" ++ utf8 password))

def xorBytes (lhs rhs : Bytes) : Bytes := List.zipWith (· ^^^ ·) lhs rhs

def escapeUsername (username : String) : String :=
  Str.replaceChar ',' "=2C" (Str.replaceChar '=' "=3D" username)

def effectivePassword (mechanism : ScramMechanism) (username password : String) : String :=
  match mechanism with
  | .sha1 => mongoSha1Password crypto username password
  | .sha256 => password

/-- The nonce that 18 random bytes give. -/
def generateNonce (random : Bytes) : String := crypto.base64Encode random

/-! ## Attributes -/

/-- `format!("{key}={value}")`. -/
def attr (key : Char) (value : String) : String := String.singleton key ++ "=" ++ value

def parseAttribute (part : String) : Outcome AuthError (Char × String) :=
  match part.toList with
  | key :: '=' :: value => .ok (key, .ofList value)
  | _ => .err (.invalidMessage "malformed SCRAM attribute")

def parseAttributes (msg : String) : Outcome AuthError (List (Char × String)) :=
  (Str.split ',' msg).mapM parseAttribute

/-- The client-final message without its proof. -/
def withoutProof (fullNonce : String) : String :=
  attr channelBindingKey noChannelBindingFlag ++ "," ++ attr nonceKey fullNonce

end Scram

/-! ## Credentials -/

structure StoredCredentials where
  salt : Bytes
  iterations : UInt32
  storedKey : Bytes
  serverKey : Bytes
  deriving DecidableEq

def StoredCredentials.derive (mechanism : ScramMechanism) (password : String) (salt : Bytes)
    (iterations : UInt32) : StoredCredentials :=
  let saltedPassword := crypto.pbkdf2 mechanism (utf8 password) salt iterations
  let clientKey := crypto.hmac mechanism saltedPassword (utf8 "Client Key")
  { salt, iterations
    storedKey := crypto.hash mechanism clientKey
    serverKey := crypto.hmac mechanism saltedPassword (utf8 "Server Key") }

/-! ## The server-first message -/

structure ServerFirst where
  nonce : String
  salt : Bytes
  iterations : UInt32
  deriving DecidableEq

namespace ServerFirst

/-- The locals of `parse`. -/
structure Seen where
  nonce : Option String
  salt : Option Bytes
  iterations : Option UInt32

/-- The body of the loop. -/
def Seen.add (seen : Seen) : Char × String → Outcome AuthError Seen
  | (key, value) =>
    if key = nonceKey ∧ seen.nonce = none then .ok { seen with nonce := some value }
    else if key = saltKey ∧ seen.salt = none then do
      let salt ← ofOption (.invalidMessage "invalid base64 salt") (crypto.base64Decode value)
      return { seen with salt := some salt }
    else if key = iterationKey ∧ seen.iterations = none then do
      let parsed ← ofOption (.invalidMessage "invalid iteration count") (Str.parseU32 value)
      if parsed = 0 ∨ parsed > maxScramIterations then
        .err (.invalidMessage "iteration count out of range")
      else return { seen with iterations := some parsed }
    else .ok seen

def parse (msg : String) : Outcome AuthError ServerFirst := do
  let attrs ← parseAttributes msg
  let seen ← attrs.foldlM (Seen.add crypto) ⟨none, none, none⟩
  let nonce ← ofOption (.invalidMessage "missing server nonce") (seen.nonce.filter (· ≠ ""))
  let salt ← ofOption (.invalidMessage "missing salt") seen.salt
  let iterations ← ofOption (.invalidMessage "missing iteration count") seen.iterations
  return { nonce, salt, iterations }

end ServerFirst

/-! ## The client -/

inductive ClientState where
  | init
  /-- Covers "client-first sent" and "server-first received". -/
  | firstSent
  | finalSent
  | done
  deriving DecidableEq

structure ScramClient where
  mechanism : ScramMechanism
  username : String
  password : String
  clientNonce : String
  serverFirst : Option ServerFirst
  saltedPassword : Option Bytes
  authMessage : String
  state : ClientState
  deriving DecidableEq

namespace ScramClient

def withNonce (mechanism : ScramMechanism) (username effectivePassword clientNonce : String) :
    ScramClient where
  mechanism := mechanism
  username := username
  password := effectivePassword
  clientNonce := clientNonce
  serverFirst := none
  saltedPassword := none
  authMessage := ""
  state := .init

def new (mechanism : ScramMechanism) (username password : String) (random : Bytes) : ScramClient :=
  withNonce mechanism username (effectivePassword crypto mechanism username password)
    (generateNonce crypto random)

def clientFirstMessage : Method AuthError ScramClient String := do
  let self ← .get
  .require (self.state = .init) .state
  let bare := attr usernameKey (escapeUsername self.username) ++ "," ++ attr nonceKey self.clientNonce
  .modify fun self => { self with authMessage := bare, state := .firstSent }
  return "n,," ++ bare

def receiveServerFirst (msg : String) : Method AuthError ScramClient Unit := do
  let self ← .get
  .require (self.state = .firstSent ∧ self.serverFirst = none) .state
  let serverFirst ← .check (ServerFirst.parse crypto msg)
  .require (Str.startsWith serverFirst.nonce self.clientNonce) .nonceMismatch
  let saltedPassword :=
    crypto.pbkdf2 self.mechanism (utf8 self.password) serverFirst.salt serverFirst.iterations
  .modify fun self => { self with
    authMessage := self.authMessage ++ "," ++ msg ++ ","
    saltedPassword := some saltedPassword
    serverFirst := some serverFirst }
  return ()

def clientFinalMessage : Method AuthError ScramClient String := do
  let self ← .get
  .require (self.state = .firstSent) .state
  let serverFirst ← .check (ofOption .state self.serverFirst)
  let saltedPassword ← .check (ofOption .state self.saltedPassword)
  let clientKey := crypto.hmac self.mechanism saltedPassword (utf8 "Client Key")
  let storedKey := crypto.hash self.mechanism clientKey
  let final := withoutProof serverFirst.nonce
  .modify fun self => { self with authMessage := self.authMessage ++ final }
  let self ← .get
  let clientSignature := crypto.hmac self.mechanism storedKey (utf8 self.authMessage)
  let proof := xorBytes clientKey clientSignature
  .modify fun self => { self with state := .finalSent }
  return final ++ "," ++ attr proofKey (crypto.base64Encode proof)

def serverFinalVerifier (msg : String) : Outcome AuthError String := do
  match ← parseAttributes msg with
  | [(key, value)] =>
    if key = errorKey then .err (.failure value)
    else if key = verifierKey then .ok value
    else .err (.invalidMessage "expected v= or e= in server-final message")
  | _ => .err (.invalidMessage "malformed server-final message")

def receiveServerFinal (msg : String) : Method AuthError ScramClient Unit := do
  let self ← .get
  .require (self.state = .finalSent) .state
  let value ← .check (serverFinalVerifier msg)
  let received ← .check
    (ofOption (.invalidMessage "invalid base64 server signature") (crypto.base64Decode value))
  let saltedPassword ← .check (ofOption .state self.saltedPassword)
  let serverKey := crypto.hmac self.mechanism saltedPassword (utf8 "Server Key")
  let expected := crypto.hmac self.mechanism serverKey (utf8 self.authMessage)
  .require (expected = received) .serverSignatureMismatch
  .modify fun self => { self with state := .done }
  return ()

end ScramClient

/-! ## The server -/

inductive ServerState where
  | expectClientFirst
  | expectClientFinal
  | done
  deriving DecidableEq

structure ScramServer where
  mechanism : ScramMechanism
  serverNonce : String
  clientFirstBare : String
  serverFirstMessage : String
  state : ServerState
  username : String
  clientNonce : String
  credentials : Option StoredCredentials
  deriving DecidableEq

namespace ScramServer

def withNonce (mechanism : ScramMechanism) (serverNonce : String) : ScramServer where
  mechanism := mechanism
  serverNonce := serverNonce
  clientFirstBare := ""
  serverFirstMessage := ""
  state := .expectClientFirst
  username := ""
  clientNonce := ""
  credentials := none

def new (mechanism : ScramMechanism) (random : Bytes) : ScramServer :=
  withNonce mechanism (generateNonce crypto random)

/-- The client-first message without its GS2 header. -/
def stripGs2Header (msg : String) : Outcome AuthError String :=
  match Str.stripPrefix gs2NoBindingHeader msg with
  | some bare => .ok bare
  | none =>
    if Str.startsWith msg "y,," || Str.startsWith msg "p=" then
      .err (.invalidMessage "channel binding is not supported")
    else .err (.invalidMessage "invalid GS2 header")

/-- The client nonce, from the attributes after the GS2 header. -/
def clientFirstNonce : List (Char × String) → Outcome AuthError String
  | (key, _claimed) :: attrs =>
    if key ≠ usernameKey then .err (.invalidMessage "expected n=<username> attribute")
    else match attrs with
      | (key, clientNonce) :: _ =>
        if key ≠ nonceKey then .err (.invalidMessage "expected r=<nonce> attribute")
        else if clientNonce = "" then .err (.invalidMessage "missing client nonce")
        else .ok clientNonce
      | [] => .err (.invalidMessage "expected r=<nonce> attribute")
  | [] => .err (.invalidMessage "expected n=<username> attribute")

def handleClientFirst (msg username : String) (credentials : StoredCredentials) :
    Method AuthError ScramServer String := do
  let self ← .get
  .require (self.state = .expectClientFirst) .state
  let bare ← .check (stripGs2Header msg)
  let attrs ← .check (parseAttributes bare)
  .require (¬ attrs.any fun a => a.1 = 'm') (.invalidMessage "mandatory extension not supported")
  let clientNonce ← .check (clientFirstNonce attrs)
  let fullNonce := clientNonce ++ self.serverNonce
  let serverFirstMessage := attr nonceKey fullNonce ++ "," ++
    attr saltKey (crypto.base64Encode credentials.salt) ++ "," ++
    attr iterationKey (toString credentials.iterations.toNat)
  .modify fun self => { self with
    clientFirstBare := bare
    clientNonce
    username
    credentials := some credentials
    serverFirstMessage
    state := .expectClientFinal }
  return serverFirstMessage

/-- The locals of `handle_client_final`. -/
structure Seen where
  channelBinding : Option String
  nonce : Option String
  proof : Option String

/-- The body of the loop: any other attribute, or a second one of a kind, is refused. -/
def Seen.add (seen : Seen) : Char × String → Outcome AuthError Seen
  | (key, value) =>
    if key = channelBindingKey ∧ seen.channelBinding = none then
      .ok { seen with channelBinding := some value }
    else if key = nonceKey ∧ seen.nonce = none then .ok { seen with nonce := some value }
    else if key = proofKey ∧ seen.proof = none then .ok { seen with proof := some value }
    else .err (.invalidMessage "unexpected attribute in client-final message")

def readClientFinal (msg : String) : Outcome AuthError Seen := do
  let attrs ← parseAttributes msg
  attrs.foldlM Seen.add ⟨none, none, none⟩

def handleClientFinal (msg : String) : Method AuthError ScramServer String := do
  let self ← .get
  .require (self.state = .expectClientFinal) .state
  let credentials ← .check (ofOption .state self.credentials)
  let seen ← .check (readClientFinal msg)
  .require (seen.channelBinding = some noChannelBindingFlag)
    (.invalidMessage "expected c=biws channel binding")
  let fullNonce := self.clientNonce ++ self.serverNonce
  .require (seen.nonce = some fullNonce) .nonceMismatch
  let proofB64 ← .check (ofOption (.invalidMessage "missing p=<proof> attribute") seen.proof)
  let proof ← .check
    (ofOption (.invalidMessage "invalid base64 client proof") (crypto.base64Decode proofB64))
  let authMessage :=
    self.clientFirstBare ++ "," ++ self.serverFirstMessage ++ "," ++ withoutProof fullNonce
  let clientSignature := crypto.hmac self.mechanism credentials.storedKey (utf8 authMessage)
  .require (proof.length = clientSignature.length)
    (.invalidMessage "client proof has the wrong length")
  let clientKey := xorBytes proof clientSignature
  .require (crypto.hash self.mechanism clientKey = credentials.storedKey) .clientProofMismatch
  let serverSignature := crypto.hmac self.mechanism credentials.serverKey (utf8 authMessage)
  .modify fun self => { self with state := .done }
  return attr verifierKey (crypto.base64Encode serverSignature)

end ScramServer

end MongoWire
