import MongoWire.Auth.Machine
import MongoWire.Lib.Base64

/-!
# Honest exchanges

A client that knows the password and a server that holds the credentials
derived from it complete the exchange.
-/

open MongoWire.Lib MongoWire.Lib.Outcome

namespace MongoWire

open Scram

/-- What the exchange needs of the cryptography: Base64 can be undone and has no comma, and the
digests of a mechanism have one length. -/
structure Crypto.Lawful (crypto : Crypto) (digestLen : ScramMechanism → Nat) : Prop where
  decode_encode : ∀ b, crypto.base64Decode (crypto.base64Encode b) = some b
  no_comma : ∀ b, ',' ∉ (crypto.base64Encode b).toList
  length_hmac : ∀ m key input, (crypto.hmac m key input).length = digestLen m
  length_hash : ∀ m input, (crypto.hash m input).length = digestLen m

/-- The six steps of an exchange, each message carried to the other side. -/
def runExchange (crypto : Crypto) (client : ScramClient) (server : ScramServer) (username : String)
    (credentials : StoredCredentials) : Outcome AuthError (ScramClient × ScramServer) := do
  let (clientFirst, client) ← ScramClient.clientFirstMessage.on client
  let (serverFirst, server) ←
    (ScramServer.handleClientFirst crypto clientFirst username credentials).on server
  let (_, client) ← (ScramClient.receiveServerFirst crypto serverFirst).on client
  let (clientFinal, client) ← (ScramClient.clientFinalMessage crypto).on client
  let (serverFinal, server) ← (ScramServer.handleClientFinal crypto clientFinal).on server
  let (_, client) ← (ScramClient.receiveServerFinal crypto serverFinal).on client
  return (client, server)

/-! ## Each message is understood by the other side -/

theorem Scram.comma_not_mem_escapeUsername (username : String) :
    ',' ∉ (escapeUsername username).toList :=
  Str.not_mem_replaceChar (by decide) _

theorem Scram.xorBytes_cancel (a b : Bytes) (h : a.length = b.length) :
    xorBytes (xorBytes a b) b = a := by
  unfold xorBytes
  induction a generalizing b with
  | nil => rfl
  | cons x a ih =>
    rcases b with _ | ⟨y, b⟩
    · cases h
    · simp only [List.length_cons, Nat.add_right_cancel_iff] at h
      simp only [List.zipWith_cons_cons, ih b h, List.cons.injEq, and_true]
      rw [UInt8.xor_assoc, UInt8.xor_self, UInt8.xor_zero]

theorem Scram.length_xorBytes (a b : Bytes) (h : a.length = b.length) :
    (xorBytes a b).length = b.length := by
  unfold xorBytes
  rw [List.length_zipWith, h, Nat.min_self]

section Messages

variable {crypto : Crypto} {digestLen : ScramMechanism → Nat}

theorem ScramClient.split_bare (c : ScramClient) (hcomma : ',' ∉ c.clientNonce.toList) :
    Str.split ',' c.bare =
      [attr usernameKey (escapeUsername c.username), attr nonceKey c.clientNonce] := by
  unfold ScramClient.bare
  rw [split_attr_comma (by decide) (comma_not_mem_escapeUsername _), split_attr (by decide) hcomma]

theorem ScramClient.parseAttributes_bare (c : ScramClient) (hcomma : ',' ∉ c.clientNonce.toList) :
    parseAttributes c.bare =
      .ok [(usernameKey, escapeUsername c.username), (nonceKey, c.clientNonce)] := by
  rw [parseAttributes_eq_ok, c.split_bare hcomma]
  rfl

theorem ScramClient.clientFirst_bare (c : ScramClient) (hne : c.clientNonce ≠ "")
    (hcomma : ',' ∉ c.clientNonce.toList) :
    ScramServer.ClientFirst ("n,," ++ c.bare) c.bare c.clientNonce := by
  refine ⟨rfl, ⟨escapeUsername c.username, [], c.parseAttributes_bare hcomma⟩, hne, ?_⟩
  rintro ⟨value, hmem⟩
  rw [c.split_bare hcomma] at hmem
  simp only [List.mem_cons, List.not_mem_nil, or_false] at hmem
  rcases hmem with h | h
  · exact absurd (attr_inj h).1 (by decide)
  · exact absurd (attr_inj h).1 (by decide)

theorem ServerFirst.parse_serverFirst (hlaw : crypto.Lawful digestLen) (fullNonce : String)
    (hne : fullNonce ≠ "") (hcomma : ',' ∉ fullNonce.toList) (credentials : StoredCredentials)
    (hone : 1 ≤ credentials.iterations) (hmax : credentials.iterations ≤ maxScramIterations) :
    ServerFirst.parse crypto (ScramServer.serverFirst crypto fullNonce credentials) =
      .ok ⟨fullNonce, credentials.salt, credentials.iterations⟩ := by
  have hdigits : ',' ∉ (toString credentials.iterations.toNat).toList := by
    rw [Str.toList_toString]
    exact Str.not_mem_toDigits (by decide) _
  rw [ServerFirst.parse_eq_ok]
  refine ⟨[(nonceKey, fullNonce), (saltKey, crypto.base64Encode credentials.salt),
    (iterationKey, toString credentials.iterations.toNat)], ?_, ?_⟩
  · rw [parseAttributes_eq_ok]
    unfold ScramServer.serverFirst
    rw [split_attr_attr_comma (by decide) hcomma (by decide) (hlaw.no_comma _),
      split_attr (by decide) hdigits]
    rfl
  · exact ⟨rfl, hne, ⟨_, rfl, hlaw.decode_encode _⟩, ⟨_, rfl, Str.parseU32_toString _⟩, hone, hmax⟩

theorem ScramServer.readClientFinal_withoutProof (nonce proof : String)
    (hnonce : ',' ∉ nonce.toList) (hproof : ',' ∉ proof.toList) :
    ScramServer.readClientFinal (withoutProof nonce ++ "," ++ attr proofKey proof) =
      .ok ⟨some noChannelBindingFlag, some nonce, some proof⟩ := by
  have hparse : parseAttributes (withoutProof nonce ++ "," ++ attr proofKey proof) =
      .ok [(channelBindingKey, noChannelBindingFlag), (nonceKey, nonce), (proofKey, proof)] := by
    rw [parseAttributes_eq_ok]
    unfold withoutProof
    rw [split_attr_attr_comma (by decide) (by decide) (by decide) hnonce,
      split_attr (by decide) hproof]
    rfl
  unfold ScramServer.readClientFinal
  rw [hparse]
  rfl

theorem ScramClient.serverFinalVerifier_attr (value : String) (hcomma : ',' ∉ value.toList) :
    ScramClient.serverFinalVerifier (attr verifierKey value) = .ok value := by
  rw [ScramClient.serverFinalVerifier_eq_ok, parseAttributes_eq_ok,
    split_attr (by decide) hcomma]
  rfl

end Messages

/-! ## The whole exchange -/

section Exchange

variable {crypto : Crypto} {digestLen : ScramMechanism → Nat}

theorem Scram.hash_proof (hlaw : crypto.Lawful digestLen) (mechanism : ScramMechanism)
    (saltedPassword : Bytes) (authMessage : String) :
    let storedKey := crypto.hash mechanism (crypto.hmac mechanism saltedPassword (utf8 "Client Key"))
    let signature := crypto.hmac mechanism storedKey (utf8 authMessage)
    let proof := ScramClient.proof crypto mechanism saltedPassword authMessage
    proof.length = signature.length ∧
      crypto.hash mechanism (xorBytes proof signature) = storedKey := by
  intro storedKey signature proof
  have hlen : (crypto.hmac mechanism saltedPassword (utf8 "Client Key")).length =
      signature.length := by rw [hlaw.length_hmac, hlaw.length_hmac]
  refine ⟨length_xorBytes _ _ hlen, ?_⟩
  show crypto.hash mechanism (xorBytes (xorBytes _ _) _) = storedKey
  rw [xorBytes_cancel _ _ hlen]

/-- An honest exchange: the password as `PBKDF2` consumes it, what the credentials were derived
with, and the nonces that both sides drew. -/
structure Honest where
  mechanism : ScramMechanism
  username : String
  password : String
  salt : Bytes
  iterations : UInt32
  clientNonce : String
  serverNonce : String
  one_le : 1 ≤ iterations
  le_max : iterations ≤ maxScramIterations
  nonce_ne : clientNonce ≠ ""
  client_comma : ',' ∉ clientNonce.toList
  server_comma : ',' ∉ serverNonce.toList

namespace Honest

variable (crypto) (x : Honest)

def nonce : String := x.clientNonce ++ x.serverNonce

theorem fullNonce_ne : x.nonce ≠ "" := by
  intro h
  exact x.nonce_ne (String.append_eq_empty_iff.mp h).1

theorem comma_not_mem_nonce : ',' ∉ x.nonce.toList := by
  unfold nonce
  rw [String.toList_append, List.mem_append]
  exact not_or.mpr ⟨x.client_comma, x.server_comma⟩

def credentials : StoredCredentials :=
  .derive crypto x.mechanism x.password x.salt x.iterations

def salted : Bytes := crypto.pbkdf2 x.mechanism (utf8 x.password) x.salt x.iterations

def serverFirst : String := ScramServer.serverFirst crypto x.nonce (x.credentials crypto)

/-! The two machines before the exchange, and after each of their steps. -/

def client : ScramClient := .withNonce x.mechanism x.username x.password x.clientNonce

def server : ScramServer := .withNonce x.mechanism x.serverNonce

def clientSent : ScramClient := { x.client with authMessage := x.client.bare, state := .firstSent }

def serverWaiting : ScramServer := { x.server with
  clientFirstBare := x.client.bare
  clientNonce := x.clientNonce
  username := x.username
  credentials := some (x.credentials crypto)
  serverFirstMessage := x.serverFirst crypto
  state := .expectClientFinal }

def clientReady : ScramClient := { x.clientSent with
  authMessage := x.client.bare ++ "," ++ x.serverFirst crypto ++ ","
  saltedPassword := some (x.salted crypto)
  serverFirst := some ⟨x.nonce, x.salt, x.iterations⟩ }

def clientProved : ScramClient := { x.clientReady crypto with
  authMessage := (x.serverWaiting crypto).transcript
  state := .finalSent }

def clientFinal : String :=
  withoutProof x.nonce ++ "," ++ attr proofKey (crypto.base64Encode
    (ScramClient.proof crypto x.mechanism (x.salted crypto) (x.serverWaiting crypto).transcript))

def serverFinal : String :=
  attr verifierKey (crypto.base64Encode (crypto.hmac x.mechanism (x.credentials crypto).serverKey
    (utf8 (x.serverWaiting crypto).transcript)))

/-! The steps. -/

theorem clientFirstMessage_client :
    ScramClient.clientFirstMessage x.client = (.ok ("n,," ++ x.client.bare), x.clientSent) :=
  (ScramClient.clientFirstMessage_eq_ok _ _ _).mpr ⟨rfl, rfl, rfl⟩

theorem handleClientFirst_server :
    ScramServer.handleClientFirst crypto ("n,," ++ x.client.bare) x.username (x.credentials crypto)
      x.server = (.ok (x.serverFirst crypto), x.serverWaiting crypto) := by
  have hfirst := x.client.clientFirst_bare x.nonce_ne x.client_comma
  exact (ScramServer.handleClientFirst_eq_ok _ _ _ _ _ _).mpr ⟨rfl, _, _, hfirst, rfl, rfl⟩

theorem clientFinalMessage_ready :
    ScramClient.clientFinalMessage crypto (x.clientReady crypto) =
      (.ok (x.clientFinal crypto), x.clientProved crypto) :=
  (ScramClient.clientFinalMessage_eq_ok _ _ _).mpr ⟨rfl, _, x.salted crypto, rfl, rfl, rfl, rfl⟩

variable {crypto} (hlaw : crypto.Lawful digestLen)

include hlaw

theorem receiveServerFirst_sent :
    ScramClient.receiveServerFirst crypto (x.serverFirst crypto) x.clientSent =
      (.ok (), x.clientReady crypto) := by
  have hparse := ServerFirst.parse_serverFirst hlaw x.nonce x.fullNonce_ne x.comma_not_mem_nonce
    (x.credentials crypto) x.one_le x.le_max
  have hnonce := (Str.startsWith_iff x.nonce x.clientNonce).mpr ⟨x.serverNonce, rfl⟩
  exact (ScramClient.receiveServerFirst_eq_ok _ _ _ _).mpr ⟨rfl, rfl, _, hparse, hnonce, rfl⟩

theorem handleClientFinal_waiting :
    ScramServer.handleClientFinal crypto (x.clientFinal crypto) (x.serverWaiting crypto) =
      (.ok (x.serverFinal crypto), { x.serverWaiting crypto with state := .done }) := by
  have hread := ScramServer.readClientFinal_withoutProof x.nonce _ x.comma_not_mem_nonce
    (hlaw.no_comma (ScramClient.proof crypto x.mechanism (x.salted crypto)
      (x.serverWaiting crypto).transcript))
  obtain ⟨hlen, hhash⟩ := hash_proof hlaw x.mechanism (x.salted crypto)
    (x.serverWaiting crypto).transcript
  exact (ScramServer.handleClientFinal_eq_ok _ _ _ _).mpr
    ⟨rfl, _, _, _, rfl, hread, hlaw.decode_encode _, hlen, hhash, rfl, rfl⟩

theorem receiveServerFinal_proved :
    ScramClient.receiveServerFinal crypto (x.serverFinal crypto) (x.clientProved crypto) =
      (.ok (), { x.clientProved crypto with state := .done }) := by
  have hverifier := ScramClient.serverFinalVerifier_attr _ (hlaw.no_comma
    (crypto.hmac x.mechanism (x.credentials crypto).serverKey
      (utf8 (x.serverWaiting crypto).transcript)))
  exact (ScramClient.receiveServerFinal_eq_ok _ _ _ _).mpr
    ⟨rfl, _, x.salted crypto, hverifier, rfl, hlaw.decode_encode _, rfl⟩

theorem runExchange_completes :
    runExchange crypto x.client x.server x.username (x.credentials crypto) =
      .ok ({ x.clientProved crypto with state := .done },
        { x.serverWaiting crypto with state := .done }) := by
  unfold runExchange
  rw [Method.on_bind x.clientFirstMessage_client]
  dsimp only
  rw [Method.on_bind (x.handleClientFirst_server crypto)]
  dsimp only
  rw [Method.on_bind (x.receiveServerFirst_sent hlaw)]
  dsimp only
  rw [Method.on_bind (x.clientFinalMessage_ready crypto)]
  dsimp only
  rw [Method.on_bind (x.handleClientFinal_waiting hlaw)]
  dsimp only
  rw [Method.on_bind (x.receiveServerFinal_proved hlaw)]
  rfl

end Honest

/-- An honest client and an honest server complete the exchange: for every mechanism, username,
password, salt and iteration count that a peer may send, and any nonces without a comma. -/
theorem honest_exchange_completes (hlaw : crypto.Lawful digestLen) (mechanism : ScramMechanism)
    (username password : String) (salt : Bytes) (iterations : UInt32) (hone : 1 ≤ iterations)
    (hmax : iterations ≤ 1000000) (clientNonce serverNonce : String)
    (hclient : clientNonce ≠ "" ∧ ',' ∉ clientNonce.toList) (hserver : ',' ∉ serverNonce.toList) :
    ∃ client server,
      runExchange crypto
        (.withNonce mechanism username (effectivePassword crypto mechanism username password)
          clientNonce)
        (.withNonce mechanism serverNonce) username
        (.derive crypto mechanism (effectivePassword crypto mechanism username password) salt
          iterations) = .ok (client, server) ∧
      client.state = .done ∧ server.state = .done ∧ client.authMessage = server.transcript := by
  let x : Honest := ⟨mechanism, username, effectivePassword crypto mechanism username password, salt,
    iterations, clientNonce, serverNonce, hone, hmax, hclient.1, hclient.2, hserver⟩
  exact ⟨_, _, x.runExchange_completes hlaw, rfl, rfl, rfl⟩

end Exchange

/-! ## The example of RFC 7677

The values that the digests take in the published exchange of user `user` with password `pencil`. -/

namespace Rfc7677

def clientNonce : String := "rOprNGfwEbeRWgbNEkqO"

def serverNonce : String := "%hvYDpWUa2RaTCAfuxFIlj)hNlF$k0"

def salt : Bytes :=
  [91, 109, 153, 104, 157, 18, 53, 142, 236, 160, 75, 20, 18, 54, 250, 129]

def salted : Bytes :=
  [196, 164, 149, 16, 50, 58, 180, 249, 82, 202, 193, 250, 153, 68, 25, 57, 231, 142, 167,
    77, 107, 232, 29, 223, 112, 150, 232, 117, 19, 220, 97, 93]

def clientKey : Bytes :=
  [166, 15, 201, 35, 214, 126, 134, 68, 169, 45, 22, 185, 110, 218, 94, 244, 101, 107, 12,
    114, 92, 72, 67, 116, 190, 37, 83, 85, 118, 153, 110, 139]

def storedKey : Bytes :=
  [88, 110, 93, 242, 131, 230, 220, 235, 92, 62, 121, 29, 139, 133, 40, 236, 25, 30, 102,
    64, 69, 206, 151, 23, 146, 226, 230, 181, 187, 19, 226, 166]

def serverKey : Bytes :=
  [193, 243, 203, 193, 193, 58, 157, 53, 161, 76, 9, 144, 238, 217, 118, 41, 234, 34, 88,
    99, 229, 102, 164, 49, 74, 185, 159, 63, 0, 229, 217, 213]

def clientSignature : Bytes :=
  [210, 115, 18, 70, 124, 40, 164, 10, 138, 127, 5, 199, 60, 13, 227, 62, 179, 203, 251, 74,
    131, 120, 59, 88, 20, 76, 241, 154, 198, 190, 27, 223]

def serverSignature : Bytes :=
  [234, 186, 226, 77, 16, 98, 219, 117, 169, 69, 31, 240, 182, 234, 126, 152, 200, 84, 101,
    73, 255, 116, 30, 103, 45, 50, 81, 178, 57, 125, 228, 110]

def authMessage : String :=
  "n=user,r=rOprNGfwEbeRWgbNEkqO,r=rOprNGfwEbeRWgbNEkqO%hvYDpWUa2RaTCAfuxFIlj)hNlF$k0," ++
    "s=W22ZaJ0SNY7soEsUEjb6gQ==,i=4096,c=biws,r=rOprNGfwEbeRWgbNEkqO%hvYDpWUa2RaTCAfuxFIlj)hNlF$k0"

/-! The same exchange with a server nonce of 18 zero bytes, in Base64. -/

def zeroNonce : String := "AAAAAAAAAAAAAAAAAAAAAAAA"

def zeroClientSignature : Bytes :=
  [60, 116, 131, 2, 151, 96, 208, 168, 134, 55, 98, 147, 171, 10, 45, 57, 238, 72, 13, 160,
    194, 173, 42, 39, 29, 131, 225, 214, 57, 137, 252, 72]

def zeroServerSignature : Bytes :=
  [66, 164, 79, 64, 173, 238, 198, 147, 131, 126, 207, 56, 88, 71, 123, 31, 182, 245, 55,
    33, 25, 156, 9, 217, 230, 12, 211, 83, 160, 194, 113, 232]

/-- The digest of `zeroClientSignature`, which a proof of zeros makes the server compute. -/
def zeroProofDigest : Bytes :=
  [100, 120, 28, 38, 116, 55, 235, 227, 212, 67, 190, 233, 103, 27, 222, 75, 228, 255, 78, 24,
    248, 130, 86, 114, 85, 40, 193, 190, 21, 163, 2, 17]

def zeroAuthMessage : String :=
  "n=user,r=rOprNGfwEbeRWgbNEkqO,r=rOprNGfwEbeRWgbNEkqOAAAAAAAAAAAAAAAAAAAAAAAA," ++
    "s=W22ZaJ0SNY7soEsUEjb6gQ==,i=4096,c=biws,r=rOprNGfwEbeRWgbNEkqOAAAAAAAAAAAAAAAAAAAAAAAA"

def digestLen : ScramMechanism → Nat
  | .sha1 => 20
  | .sha256 => 32

def hmacSha256 (key input : Bytes) : Bytes :=
  if key = salted ∧ input = utf8 "Client Key" then clientKey
  else if key = salted ∧ input = utf8 "Server Key" then serverKey
  else if key = storedKey ∧ input = utf8 authMessage then clientSignature
  else if key = serverKey ∧ input = utf8 authMessage then serverSignature
  else if key = storedKey ∧ input = utf8 zeroAuthMessage then zeroClientSignature
  else if key = serverKey ∧ input = utf8 zeroAuthMessage then zeroServerSignature
  else .replicate 32 0

def sha256 (input : Bytes) : Bytes :=
  if input = clientKey then storedKey
  else if input = zeroClientSignature then zeroProofDigest
  else .replicate 32 0

def crypto : Crypto where
  hmac
    | .sha1, _, _ => .replicate 20 0
    | .sha256, key, input => hmacSha256 key input
  hash
    | .sha1, _ => .replicate 20 0
    | .sha256, input => sha256 input
  pbkdf2
    | .sha1, _, _, _ => .replicate 20 0
    | .sha256, password, s, iterations =>
      if password = utf8 "pencil" ∧ s = salt ∧ iterations = 4096 then salted else .replicate 32 0
  md5 _ := .replicate 16 0
  base64Encode := Base64.encode
  base64Decode := Base64.decode

theorem length_hmacSha256 (key input : Bytes) : (hmacSha256 key input).length = 32 := by
  unfold hmacSha256
  repeat' split
  all_goals rfl

theorem length_sha256 (input : Bytes) : (sha256 input).length = 32 := by
  unfold sha256
  repeat' split
  all_goals rfl

theorem lawful : crypto.Lawful digestLen where
  decode_encode := Base64.decode_encode
  no_comma := Base64.comma_not_mem_encode
  length_hmac m key input := by
    rcases m with _ | _
    · rfl
    · exact length_hmacSha256 key input
  length_hash m input := by
    rcases m with _ | _
    · rfl
    · exact length_sha256 input

def client : ScramClient := .withNonce .sha256 "user" "pencil" clientNonce

def credentials : StoredCredentials := .derive crypto .sha256 "pencil" salt 4096

end Rfc7677

theorem honest_exchange_completes_rfc7677 :
    ∃ client server,
      runExchange Rfc7677.crypto
        (.withNonce .sha256 "user" (effectivePassword Rfc7677.crypto .sha256 "user" "pencil")
          Rfc7677.clientNonce)
        (.withNonce .sha256 Rfc7677.serverNonce) "user"
        (.derive Rfc7677.crypto .sha256 (effectivePassword Rfc7677.crypto .sha256 "user" "pencil")
          Rfc7677.salt 4096) = .ok (client, server) ∧
      client.state = .done ∧ server.state = .done ∧ client.authMessage = server.transcript :=
  honest_exchange_completes Rfc7677.lawful .sha256 "user" "pencil" Rfc7677.salt 4096 (by decide)
    (by decide) Rfc7677.clientNonce Rfc7677.serverNonce (by decide) (by decide)

end MongoWire
