import MongoWire.Auth.ScramSpec

/-!
# The two SCRAM machines

What each method does when it returns, that a failed call changes nothing, and
what follows for any sequence of calls.
-/

open MongoWire.Lib MongoWire.Lib.Outcome

namespace MongoWire

open Scram

variable {crypto : Crypto}

/-! ## The client, call by call -/

namespace ScramClient

/-- The client-first message without its GS2 header. -/
def bare (c : ScramClient) : String :=
  attr usernameKey (escapeUsername c.username) ++ "," ++ attr nonceKey c.clientNonce

theorem clientFirstMessage_eq_ok (c c' : ScramClient) (m : String) :
    clientFirstMessage c = (.ok m, c') ↔
      c.state = .init ∧ m = "n,," ++ c.bare ∧
        c' = { c with authMessage := c.bare, state := .firstSent } := by
  unfold clientFirstMessage
  simp only [Method.get_bind, Method.require_bind_eq_ok, Method.modify_bind, Method.pure_eq_ok]
  rfl

theorem receiveServerFirst_eq_ok (msg : String) (c c' : ScramClient) (u : Unit) :
    receiveServerFirst crypto msg c = (.ok u, c') ↔
      c.state = .firstSent ∧ c.serverFirst = none ∧
      ∃ first, ServerFirst.parse crypto msg = .ok first ∧
        Str.startsWith first.nonce c.clientNonce = true ∧
        c' = { c with
          authMessage := c.authMessage ++ "," ++ msg ++ ","
          saltedPassword :=
            some (crypto.pbkdf2 c.mechanism (utf8 c.password) first.salt first.iterations)
          serverFirst := some first } := by
  unfold receiveServerFirst
  simp only [Method.get_bind, Method.require_bind_eq_ok, Method.check_bind_eq_ok,
    Method.modify_bind, Method.pure_eq_ok, true_and, and_assoc]

/-- `ClientProof`: the client key under the signature of the transcript. -/
def proof (crypto : Crypto) (mechanism : ScramMechanism) (saltedPassword : Bytes)
    (authMessage : String) : Bytes :=
  let clientKey := crypto.hmac mechanism saltedPassword (utf8 "Client Key")
  xorBytes clientKey
    (crypto.hmac mechanism (crypto.hash mechanism clientKey) (utf8 authMessage))

theorem clientFinalMessage_eq_ok (c c' : ScramClient) (m : String) :
    clientFinalMessage crypto c = (.ok m, c') ↔
      c.state = .firstSent ∧ ∃ first salted, c.serverFirst = some first ∧
        c.saltedPassword = some salted ∧
        m = withoutProof first.nonce ++ "," ++ attr proofKey (crypto.base64Encode
          (proof crypto c.mechanism salted (c.authMessage ++ withoutProof first.nonce))) ∧
        c' = { c with
          authMessage := c.authMessage ++ withoutProof first.nonce
          state := .finalSent } := by
  unfold clientFinalMessage
  simp only [Method.get_bind, Method.require_bind_eq_ok, Method.check_bind_eq_ok,
    Method.modify_bind, Method.pure_eq_ok, ofOption_eq_ok]
  constructor
  · rintro ⟨hstate, first, hfirst, salted, hsalted, rfl, rfl⟩
    exact ⟨hstate, first, salted, hfirst, hsalted, rfl, rfl⟩
  · rintro ⟨hstate, first, salted, hfirst, hsalted, rfl, rfl⟩
    exact ⟨hstate, first, hfirst, salted, hsalted, rfl, rfl⟩

theorem serverFinalVerifier_eq_ok (msg value : String) :
    serverFinalVerifier msg = .ok value ↔ parseAttributes msg = .ok [(verifierKey, value)] := by
  unfold serverFinalVerifier
  rw [bind_eq_ok]
  constructor
  · rintro ⟨attrs, hparse, hvalue⟩
    rw [hparse]
    split at hvalue
    · rename_i key v
      rw [ite_err_eq_ok] at hvalue
      obtain ⟨-, hvalue⟩ := hvalue
      split at hvalue
      · cases hvalue
        simp [*]
      · cases hvalue
    · cases hvalue
  · intro hparse
    exact ⟨_, hparse, by simp [verifierKey, errorKey]⟩

theorem receiveServerFinal_eq_ok (msg : String) (c c' : ScramClient) (u : Unit) :
    receiveServerFinal crypto msg c = (.ok u, c') ↔
      c.state = .finalSent ∧ ∃ value salted, serverFinalVerifier msg = .ok value ∧
        c.saltedPassword = some salted ∧
        crypto.base64Decode value = some (crypto.hmac c.mechanism
          (crypto.hmac c.mechanism salted (utf8 "Server Key")) (utf8 c.authMessage)) ∧
        c' = { c with state := .done } := by
  unfold receiveServerFinal
  simp only [Method.get_bind, Method.require_bind_eq_ok, Method.check_bind_eq_ok,
    Method.modify_bind, Method.pure_eq_ok, ofOption_eq_ok]
  constructor
  · rintro ⟨hstate, value, hvalue, received, hdecode, salted, hsalted, hexpected, -, rfl⟩
    exact ⟨hstate, value, salted, hvalue, hsalted, hdecode.trans (congrArg some hexpected.symm), rfl⟩
  · rintro ⟨hstate, value, salted, hvalue, hsalted, hdecode, rfl⟩
    exact ⟨hstate, value, hvalue, _, hdecode, salted, hsalted, rfl, trivial, rfl⟩

/-! A failed call leaves the client as it was: every check stands before every assignment. -/

open Method

theorem atomic_clientFirstMessage : clientFirstMessage.Atomic := by
  unfold clientFirstMessage
  refine keeps_get.bind fun self => (keeps_require _ _).bind fun _ => Succeeds.atomic ?_
  apply succeeds_modify_bind
  exact succeeds_pure _

theorem atomic_receiveServerFirst (msg : String) : (receiveServerFirst crypto msg).Atomic := by
  unfold receiveServerFirst
  refine keeps_get.bind fun self => (keeps_require _ _).bind fun _ => ?_
  refine (keeps_check _).bind fun first => (keeps_require _ _).bind fun _ => Succeeds.atomic ?_
  apply succeeds_modify_bind
  exact succeeds_pure _

theorem atomic_clientFinalMessage : (clientFinalMessage crypto).Atomic := by
  unfold clientFinalMessage
  refine keeps_get.bind fun self => (keeps_require _ _).bind fun _ => ?_
  refine (keeps_check _).bind fun first => (keeps_check _).bind fun salted => Succeeds.atomic ?_
  intro c
  exact ⟨_, rfl⟩

theorem atomic_receiveServerFinal (msg : String) : (receiveServerFinal crypto msg).Atomic := by
  unfold receiveServerFinal
  refine keeps_get.bind fun self => (keeps_require _ _).bind fun _ => ?_
  refine (keeps_check _).bind fun value => (keeps_check _).bind fun received => ?_
  refine (keeps_check _).bind fun salted => (keeps_require _ _).bind fun _ => Succeeds.atomic ?_
  apply succeeds_modify_bind
  exact succeeds_pure _

theorem returns_receiveServerFirst (msg : String) : (receiveServerFirst crypto msg).Returns := by
  unfold receiveServerFirst
  refine returns_get.bind fun self => (returns_require _ _).bind fun _ => ?_
  refine (returns_check (ServerFirst.returns_parse crypto msg)).bind fun first => ?_
  exact (returns_require _ _).bind fun _ => (returns_modify _).bind fun _ => returns_pure _

theorem returns_receiveServerFinal (msg : String) : (receiveServerFinal crypto msg).Returns := by
  unfold receiveServerFinal
  refine returns_get.bind fun self => (returns_require _ _).bind fun _ => ?_
  refine (returns_check (returns_serverFinalVerifier msg)).bind fun value => ?_
  refine (returns_check (returns_ofOption _ _)).bind fun received => ?_
  refine (returns_check (returns_ofOption _ _)).bind fun salted => ?_
  exact (returns_require _ _).bind fun _ => (returns_modify _).bind fun _ => returns_pure _

end ScramClient

/-! ## The server, call by call -/

namespace ScramServer

/-- The attributes of a client-first message that a server takes, and the nonce in it. -/
structure ClientFirst (msg bare nonce : String) : Prop where
  header : msg = gs2NoBindingHeader ++ bare
  parts : ∃ claimed rest, parseAttributes bare =
    .ok ((usernameKey, claimed) :: (nonceKey, nonce) :: rest)
  nonce_ne : nonce ≠ ""
  no_extension : ¬ HasKey 'm' bare

def serverFirst (crypto : Crypto) (fullNonce : String) (credentials : StoredCredentials) : String :=
  attr nonceKey fullNonce ++ "," ++ attr saltKey (crypto.base64Encode credentials.salt) ++ "," ++
    attr iterationKey (toString credentials.iterations.toNat)

theorem hasKey_iff_any {msg : String} {attrs : List (Char × String)} (key : Char)
    (h : parseAttributes msg = .ok attrs) :
    HasKey key msg ↔ attrs.any (fun a => a.1 = key) = true := by
  rw [List.any_eq_true]
  constructor
  · intro hkey
    obtain ⟨value, hmem⟩ := hkey.mem h
    exact ⟨(key, value), hmem, by simp⟩
  · rintro ⟨⟨k, v⟩, hmem, hk⟩
    simp only [decide_eq_true_eq] at hk
    subst hk
    refine ⟨v, ?_⟩
    rw [(parseAttributes_eq_ok _ _).mp h]
    exact List.mem_map.mpr ⟨(k, v), hmem, rfl⟩

theorem handleClientFirst_eq_ok (msg username : String) (credentials : StoredCredentials)
    (s s' : ScramServer) (m : String) :
    handleClientFirst crypto msg username credentials s = (.ok m, s') ↔
      s.state = .expectClientFirst ∧ ∃ bare nonce, ClientFirst msg bare nonce ∧
        m = serverFirst crypto (nonce ++ s.serverNonce) credentials ∧
        s' = { s with
          clientFirstBare := bare
          clientNonce := nonce
          username
          credentials := some credentials
          serverFirstMessage := m
          state := .expectClientFinal } := by
  unfold handleClientFirst
  simp only [Method.get_bind, Method.require_bind_eq_ok, Method.check_bind_eq_ok,
    Method.modify_bind, Method.pure_eq_ok, stripGs2Header_eq_ok, clientFirstNonce_eq_ok]
  constructor
  · rintro ⟨hstate, bare, hheader, attrs, hparse, hany, nonce, ⟨claimed, rest, rfl, hne⟩, rfl, rfl⟩
    refine ⟨hstate, bare, nonce, ⟨hheader, ⟨claimed, rest, hparse⟩, hne, ?_⟩, rfl, rfl⟩
    rwa [hasKey_iff_any 'm' hparse]
  · rintro ⟨hstate, bare, nonce, ⟨hheader, ⟨claimed, rest, hparse⟩, hne, hext⟩, rfl, rfl⟩
    rw [hasKey_iff_any 'm' hparse] at hext
    exact ⟨hstate, bare, hheader, _, hparse, hext, nonce, ⟨claimed, rest, rfl, hne⟩, rfl, rfl⟩

/-- The transcript that the server signs. -/
def transcript (s : ScramServer) : String :=
  s.clientFirstBare ++ "," ++ s.serverFirstMessage ++ "," ++ withoutProof (s.clientNonce ++ s.serverNonce)

theorem handleClientFinal_eq_ok (msg : String) (s s' : ScramServer) (m : String) :
    handleClientFinal crypto msg s = (.ok m, s') ↔
      s.state = .expectClientFinal ∧ ∃ credentials proofB64 proof,
        s.credentials = some credentials ∧
        readClientFinal msg =
          .ok ⟨some noChannelBindingFlag, some (s.clientNonce ++ s.serverNonce), some proofB64⟩ ∧
        crypto.base64Decode proofB64 = some proof ∧
        proof.length = (crypto.hmac s.mechanism credentials.storedKey (utf8 s.transcript)).length ∧
        crypto.hash s.mechanism
            (xorBytes proof (crypto.hmac s.mechanism credentials.storedKey (utf8 s.transcript))) =
          credentials.storedKey ∧
        m = attr verifierKey
          (crypto.base64Encode (crypto.hmac s.mechanism credentials.serverKey (utf8 s.transcript))) ∧
        s' = { s with state := .done } := by
  unfold handleClientFinal transcript
  simp only [Method.get_bind, Method.require_bind_eq_ok, Method.check_bind_eq_ok,
    Method.modify_bind, Method.pure_eq_ok, ofOption_eq_ok]
  constructor
  · rintro ⟨hstate, credentials, hcred, ⟨binding, nonce, proofAttr⟩, hread, hbinding, hnonce,
      proofB64, hproof, proof, hdecode, hlen, hhash, rfl, rfl⟩
    simp only at hbinding hnonce hproof
    subst hbinding hnonce hproof
    exact ⟨hstate, credentials, proofB64, proof, hcred, hread, hdecode, hlen, hhash, rfl, rfl⟩
  · rintro ⟨hstate, credentials, proofB64, proof, hcred, hread, hdecode, hlen, hhash, rfl, rfl⟩
    exact ⟨hstate, credentials, hcred, _, hread, rfl, rfl, proofB64, rfl, proof, hdecode, hlen,
      hhash, rfl, rfl⟩

open Method

theorem atomic_handleClientFirst (msg username : String) (credentials : StoredCredentials) :
    (handleClientFirst crypto msg username credentials).Atomic := by
  unfold handleClientFirst
  refine keeps_get.bind fun self => (keeps_require _ _).bind fun _ => ?_
  refine (keeps_check _).bind fun bare => (keeps_check _).bind fun attrs => ?_
  refine (keeps_require _ _).bind fun _ => (keeps_check _).bind fun nonce => Succeeds.atomic ?_
  apply succeeds_modify_bind
  exact succeeds_pure _

theorem atomic_handleClientFinal (msg : String) : (handleClientFinal crypto msg).Atomic := by
  unfold handleClientFinal
  refine keeps_get.bind fun self => (keeps_require _ _).bind fun _ => ?_
  refine (keeps_check _).bind fun credentials => (keeps_check _).bind fun seen => ?_
  refine (keeps_require _ _).bind fun _ => (keeps_require _ _).bind fun _ => ?_
  refine (keeps_check _).bind fun proofB64 => (keeps_check _).bind fun proof => ?_
  refine (keeps_require _ _).bind fun _ => (keeps_require _ _).bind fun _ => Succeeds.atomic ?_
  apply succeeds_modify_bind
  exact succeeds_pure _

theorem returns_handleClientFirst (msg username : String) (credentials : StoredCredentials) :
    (handleClientFirst crypto msg username credentials).Returns := by
  unfold handleClientFirst
  refine returns_get.bind fun self => (returns_require _ _).bind fun _ => ?_
  refine (returns_check (returns_stripGs2Header msg)).bind fun bare => ?_
  refine (returns_check (returns_parseAttributes bare)).bind fun attrs => ?_
  refine (returns_require _ _).bind fun _ => ?_
  refine (returns_check (returns_clientFirstNonce attrs)).bind fun nonce => ?_
  exact (returns_modify _).bind fun _ => returns_pure _

theorem returns_handleClientFinal (msg : String) : (handleClientFinal crypto msg).Returns := by
  unfold handleClientFinal
  refine returns_get.bind fun self => (returns_require _ _).bind fun _ => ?_
  refine (returns_check (returns_ofOption _ _)).bind fun credentials => ?_
  refine (returns_check (returns_readClientFinal msg)).bind fun seen => ?_
  refine (returns_require _ _).bind fun _ => (returns_require _ _).bind fun _ => ?_
  refine (returns_check (returns_ofOption _ _)).bind fun proofB64 => ?_
  refine (returns_check (returns_ofOption _ _)).bind fun proof => ?_
  refine (returns_require _ _).bind fun _ => (returns_require _ _).bind fun _ => ?_
  exact (returns_modify _).bind fun _ => returns_pure _

end ScramServer

end MongoWire
