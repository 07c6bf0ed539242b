import MongoWire.Auth.Exchange

/-!
# Any sequence of calls on a SCRAM machine

The steps that succeed come in protocol order, each at most once, and a client
that is done has verified the server.
-/

open MongoWire.Lib MongoWire.Lib.Outcome

namespace MongoWire

open Scram

variable {crypto : Crypto}

/-! ## The client -/

namespace ScramClient

inductive Step where
  | clientFirst
  | serverFirst
  | clientFinal
  | serverFinal
  deriving DecidableEq

inductive Call where
  | clientFirstMessage
  | receiveServerFirst (msg : String)
  | clientFinalMessage
  | receiveServerFinal (msg : String)
  deriving DecidableEq

def Call.step : Call → Step
  | .clientFirstMessage => .clientFirst
  | .receiveServerFirst _ => .serverFirst
  | .clientFinalMessage => .clientFinal
  | .receiveServerFinal _ => .serverFinal

/-- The method that a call names, with the message it makes, if it makes one. -/
def call (crypto : Crypto) : Call → Method AuthError ScramClient (Option String)
  | .clientFirstMessage => do return some (← clientFirstMessage)
  | .receiveServerFirst msg => do receiveServerFirst crypto msg; return none
  | .clientFinalMessage => do return some (← clientFinalMessage crypto)
  | .receiveServerFinal msg => do receiveServerFinal crypto msg; return none

theorem atomic_call (i : Call) : (call crypto i).Atomic := by
  cases i with
  | clientFirstMessage => exact atomic_clientFirstMessage.bind_pure _
  | receiveServerFirst msg => exact (atomic_receiveServerFirst msg).bind_pure _
  | clientFinalMessage => exact atomic_clientFinalMessage.bind_pure _
  | receiveServerFinal msg => exact (atomic_receiveServerFinal msg).bind_pure _

/-- `PBKDF2` of the client's password with the salt and the count of a server-first message. -/
def salted (crypto : Crypto) (c : ScramClient) (first : ServerFirst) : Bytes :=
  crypto.pbkdf2 c.mechanism (utf8 c.password) first.salt first.iterations

/-- The transcript after the server-first message `s`. -/
def transcript (c : ScramClient) (s : String) (first : ServerFirst) : String :=
  c.bare ++ "," ++ s ++ "," ++ withoutProof first.nonce

/-- The signature of the transcript that only a holder of the server key can make. -/
def serverSignature (crypto : Crypto) (c : ScramClient) (s : String) (first : ServerFirst) : Bytes :=
  crypto.hmac c.mechanism (crypto.hmac c.mechanism (c.salted crypto first) (utf8 "Server Key"))
    (utf8 (c.transcript s first))

/-- The client has a server-first message that it may use. -/
def Takes (crypto : Crypto) (c : ScramClient) (s : String) (first : ServerFirst) : Prop :=
  ServerFirst.parse crypto s = .ok first ∧ ∃ rest, first.nonce = c.clientNonce ++ rest

/-- Where the accepted calls have brought the client that started as `c`. -/
inductive Stage (crypto : Crypto) (c : ScramClient) : List Call → ScramClient → Prop where
  | init : c.state = .init → c.serverFirst = none → Stage crypto c [] c
  | firstSent : c.serverFirst = none →
      Stage crypto c [.clientFirstMessage] { c with authMessage := c.bare, state := .firstSent }
  | firstReceived (s : String) (first : ServerFirst) : c.Takes crypto s first →
      Stage crypto c [.clientFirstMessage, .receiveServerFirst s] { c with
        authMessage := c.bare ++ "," ++ s ++ ","
        saltedPassword := some (c.salted crypto first)
        serverFirst := some first
        state := .firstSent }
  | finalSent (s : String) (first : ServerFirst) : c.Takes crypto s first →
      Stage crypto c [.clientFirstMessage, .receiveServerFirst s, .clientFinalMessage] { c with
        authMessage := c.transcript s first
        saltedPassword := some (c.salted crypto first)
        serverFirst := some first
        state := .finalSent }
  | done (s : String) (first : ServerFirst) (b64 : String) : c.Takes crypto s first →
      crypto.base64Decode b64 = some (c.serverSignature crypto s first) →
      Stage crypto c [.clientFirstMessage, .receiveServerFirst s, .clientFinalMessage,
        .receiveServerFinal (attr verifierKey b64)] { c with
        authMessage := c.transcript s first
        saltedPassword := some (c.salted crypto first)
        serverFirst := some first
        state := .done }

theorem eq_attr_of_serverFinalVerifier {msg value : String}
    (h : serverFinalVerifier msg = .ok value) : msg = attr verifierKey value := by
  rw [serverFinalVerifier_eq_ok, parseAttributes_eq_ok] at h
  exact Str.eq_of_split_eq_singleton h

theorem Stage.step {c d d' : ScramClient} {history : List Call} {i : Call} {a : Option String}
    (h : Stage crypto c history d) (hcall : call crypto i d = (.ok a, d')) :
    Stage crypto c (history ++ [i]) d' := by
  cases i with
  | clientFirstMessage =>
    obtain ⟨_, hcall, -⟩ := (Method.bind_pure_eq_ok _ _ _ _ _).mp hcall
    obtain ⟨hstate, -, rfl⟩ := (clientFirstMessage_eq_ok _ _ _).mp hcall
    cases h with
    | init _ hnone => exact .firstSent hnone
    | _ => cases hstate
  | receiveServerFirst msg =>
    obtain ⟨_, hcall, -⟩ := (Method.bind_pure_eq_ok _ _ _ _ _).mp hcall
    obtain ⟨hstate, hnone, first, hparse, hnonce, rfl⟩ :=
      (receiveServerFirst_eq_ok _ _ _ _).mp hcall
    cases h with
    | firstSent => exact .firstReceived msg first ⟨hparse, (Str.startsWith_iff _ _).mp hnonce⟩
    | init h0 => rw [h0] at hstate; cases hstate
    | firstReceived => cases hnone
    | _ => cases hstate
  | clientFinalMessage =>
    obtain ⟨_, hcall, -⟩ := (Method.bind_pure_eq_ok _ _ _ _ _).mp hcall
    obtain ⟨hstate, first, salted, hfirst, hsalted, -, rfl⟩ :=
      (clientFinalMessage_eq_ok _ _ _).mp hcall
    cases h with
    | firstReceived s _ htakes =>
      cases hfirst
      exact .finalSent s first htakes
    | init h0 => rw [h0] at hstate; cases hstate
    | firstSent hnone =>
      simp only at hfirst
      rw [hnone] at hfirst
      cases hfirst
    | _ => cases hstate
  | receiveServerFinal msg =>
    obtain ⟨_, hcall, -⟩ := (Method.bind_pure_eq_ok _ _ _ _ _).mp hcall
    obtain ⟨hstate, value, salted, hvalue, hsalted, hdecode, rfl⟩ :=
      (receiveServerFinal_eq_ok _ _ _ _).mp hcall
    cases h with
    | finalSent s first htakes =>
      cases hsalted
      rw [eq_attr_of_serverFinalVerifier hvalue]
      exact .done s first value htakes hdecode
    | init h0 => rw [h0] at hstate; cases hstate
    | _ => cases hstate

theorem stage_calls (c : ScramClient) (hstate : c.state = .init) (hfirst : c.serverFirst = none)
    (is : List Call) :
    Stage crypto c ((Method.accepted (Method.calls (call crypto) is c).1).map Prod.fst)
      (Method.calls (call crypto) is c).2 := by
  refine Method.accepted_induction atomic_call
    (P := fun history d => Stage crypto c (history.map Prod.fst) d) (.init hstate hfirst) ?_ is
  intro history d i a d' h hcall
  rw [List.map_append]
  exact h.step hcall

def order : List Step := [.clientFirst, .serverFirst, .clientFinal, .serverFinal]

theorem Stage.in_order {c d : ScramClient} {history : List Call}
    (h : Stage crypto c history d) : history.map Call.step <+: order := by
  cases h <;> exact List.isPrefixOf_iff_prefix.mp rfl

theorem Stage.of_done {c d : ScramClient} {history : List Call} (h : Stage crypto c history d)
    (hdone : d.state = .done) : ∃ s first b64,
      history = [.clientFirstMessage, .receiveServerFirst s, .clientFinalMessage,
        .receiveServerFinal (attr verifierKey b64)] ∧
      c.Takes crypto s first ∧ crypto.base64Decode b64 = some (c.serverSignature crypto s first) := by
  cases h with
  | done s first b64 htakes hdecode => exact ⟨s, first, b64, rfl, htakes, hdecode⟩
  | init h0 => rw [h0] at hdone; cases hdone
  | _ => cases hdone

end ScramClient

/-! ## The server -/

namespace ScramServer

inductive Step where
  | clientFirst
  | clientFinal
  deriving DecidableEq

inductive Call where
  | handleClientFirst (msg username : String) (credentials : StoredCredentials)
  | handleClientFinal (msg : String)
  deriving DecidableEq

def Call.step : Call → Step
  | .handleClientFirst .. => .clientFirst
  | .handleClientFinal _ => .clientFinal

def call (crypto : Crypto) : Call → Method AuthError ScramServer String
  | .handleClientFirst msg username credentials =>
    handleClientFirst crypto msg username credentials
  | .handleClientFinal msg => handleClientFinal crypto msg

theorem atomic_call (i : Call) : (call crypto i).Atomic := by
  cases i with
  | handleClientFirst msg username credentials => exact atomic_handleClientFirst _ _ _
  | handleClientFinal msg => exact atomic_handleClientFinal _

/-- The steps that brought the server to its state. -/
def stepsTo : ServerState → List Step
  | .expectClientFirst => []
  | .expectClientFinal => [.clientFirst]
  | .done => [.clientFirst, .clientFinal]

theorem stepsTo_call {s s' : ScramServer} {i : Call} {m : String}
    (h : call crypto i s = (.ok m, s')) : stepsTo s'.state = stepsTo s.state ++ [i.step] := by
  cases i with
  | handleClientFirst msg username credentials =>
    obtain ⟨hstate, _, _, -, -, rfl⟩ := (handleClientFirst_eq_ok _ _ _ _ _ _).mp h
    rw [hstate]
    rfl
  | handleClientFinal msg =>
    obtain ⟨hstate, _, _, _, -, -, -, -, -, -, rfl⟩ := (handleClientFinal_eq_ok _ _ _ _).mp h
    rw [hstate]
    rfl

theorem stepsTo_calls (s : ScramServer) (hstate : s.state = .expectClientFirst) (is : List Call) :
    (Method.accepted (Method.calls (call crypto) is s).1).map (fun r => r.1.step) =
      stepsTo (Method.calls (call crypto) is s).2.state := by
  refine Method.accepted_induction atomic_call
    (P := fun history s => history.map (fun r => r.1.step) = stepsTo s.state) ?_ ?_ is
  · rw [hstate]
    rfl
  · intro history s i m s' h hcall
    rw [List.map_append, h, stepsTo_call hcall]
    rfl

def order : List Step := [.clientFirst, .clientFinal]

theorem stepsTo_in_order (state : ServerState) : stepsTo state <+: order := by
  cases state <;> exact List.isPrefixOf_iff_prefix.mp rfl

end ScramServer

/-! ## Both -/

theorem ScramClient.bare_eq (c : ScramClient) :
    c.bare = "n=" ++ escapeUsername c.username ++ ",r=" ++ c.clientNonce := by
  apply String.toList_inj.mp
  simp [ScramClient.bare, usernameKey, nonceKey]

theorem Scram.withoutProof_eq (nonce : String) : withoutProof nonce = "c=biws,r=" ++ nonce := by
  apply String.toList_inj.mp
  simp [withoutProof, channelBindingKey, noChannelBindingFlag, nonceKey]

/-- Both machines are atomic and keep to the order of the protocol, and a client is done only
after it has verified the server's signature of the whole transcript. -/
theorem scram_atomic_and_ordered (crypto : Crypto) :
    (∀ i (c c' : ScramClient) e, ScramClient.call crypto i c = (.err e, c') → c' = c) ∧
    (∀ i (s s' : ScramServer) e, ScramServer.call crypto i s = (.err e, s') → s' = s) ∧
    (∀ mechanism serverNonce is,
      let run := Method.calls (ScramServer.call crypto) is (.withNonce mechanism serverNonce)
      (Method.accepted run.1).map (fun r => r.1.step) <+: ScramServer.order) ∧
    (∀ mechanism username password clientNonce is,
      let c := ScramClient.withNonce mechanism username password clientNonce
      let run := Method.calls (ScramClient.call crypto) is c
      (Method.accepted run.1).map (fun r => r.1.step) <+: ScramClient.order ∧
      (run.2.state = .done → ∃ s first b64,
        (Method.accepted run.1).map Prod.fst =
          [.clientFirstMessage, .receiveServerFirst s, .clientFinalMessage,
            .receiveServerFinal ("v=" ++ b64)] ∧
        ServerFirst.parse crypto s = .ok first ∧ (∃ rest, first.nonce = clientNonce ++ rest) ∧
        1 ≤ first.iterations ∧ first.iterations ≤ 1000000 ∧
        let saltedPassword :=
          crypto.pbkdf2 mechanism (utf8 password) first.salt first.iterations
        crypto.base64Decode b64 = some (crypto.hmac mechanism
          (crypto.hmac mechanism saltedPassword (utf8 "Server Key"))
          (utf8 (("n=" ++ escapeUsername username ++ ",r=" ++ clientNonce) ++ "," ++ s ++ "," ++
            ("c=biws,r=" ++ first.nonce)))))) := by
  refine ⟨fun i c c' e h => (ScramClient.atomic_call i).of_err h,
    fun i s s' e h => (ScramServer.atomic_call i).of_err h, ?_, ?_⟩
  · intro mechanism serverNonce is run
    rw [ScramServer.stepsTo_calls _ rfl is]
    exact ScramServer.stepsTo_in_order _
  · intro mechanism username password clientNonce is c run
    have hstage : ScramClient.Stage crypto c _ run.2 := ScramClient.stage_calls c rfl rfl is
    refine ⟨?_, ?_⟩
    · have := hstage.in_order
      rwa [List.map_map] at this
    · intro hdone
      obtain ⟨s, first, b64, hcalls, htakes, hdecode⟩ := hstage.of_done hdone
      obtain ⟨attrs, -, hfirst⟩ := (ServerFirst.parse_eq_ok s first).mp htakes.1
      refine ⟨s, first, b64, ?_, htakes.1, htakes.2, hfirst.one_le, hfirst.le_max, ?_⟩
      · rw [hcalls, attr_eq_append "v=" rfl]
      · rw [hdecode]
        unfold ScramClient.serverSignature ScramClient.transcript
        rw [ScramClient.bare_eq, withoutProof_eq]
        rfl

def Rfc7677.clientCalls : List ScramClient.Call :=
  [.clientFirstMessage,
    .receiveServerFirst ("r=rOprNGfwEbeRWgbNEkqO%hvYDpWUa2RaTCAfuxFIlj)hNlF$k0," ++
      "s=W22ZaJ0SNY7soEsUEjb6gQ==,i=4096"),
    .clientFinalMessage,
    .receiveServerFinal "v=6rriTRBi23WpRR/wtup+mMhUZUn/dB5nLTJRsjl95G4="]

theorem Rfc7677.run_clientCalls :
    let run := Method.calls (ScramClient.call Rfc7677.crypto) clientCalls
      (.withNonce .sha256 "user" "pencil" clientNonce)
    run.1.map Prod.snd =
      [.ok (some "n,,n=user,r=rOprNGfwEbeRWgbNEkqO"), .ok none,
        .ok (some ("c=biws,r=rOprNGfwEbeRWgbNEkqO%hvYDpWUa2RaTCAfuxFIlj)hNlF$k0," ++
          "p=dHzbZapWIk4jUhN+Ute9ytag9zjfMHgsqmmiz7AndVQ=")), .ok none] ∧
    run.2.state = .done := by
  decide +kernel

theorem scram_atomic_and_ordered_rfc7677 :
    let run := Method.calls (ScramClient.call Rfc7677.crypto) Rfc7677.clientCalls
      (.withNonce .sha256 "user" "pencil" Rfc7677.clientNonce)
    run.2.state = .done ∧ ∃ s b64, (Method.accepted run.1).map Prod.fst =
      [.clientFirstMessage, .receiveServerFirst s, .clientFinalMessage,
        .receiveServerFinal ("v=" ++ b64)] := by
  intro run
  have hdone : run.2.state = .done := Rfc7677.run_clientCalls.2
  obtain ⟨s, _, b64, hcalls, -⟩ := ((scram_atomic_and_ordered Rfc7677.crypto).2.2.2 .sha256 "user"
    "pencil" Rfc7677.clientNonce Rfc7677.clientCalls).2 hdone
  exact ⟨hdone, s, b64, hcalls⟩

/-! ## Mandatory extensions -/

/-- Leaving `m=` aside, the message answers a client with this nonce: every part is an attribute,
the first nonce extends the client's, and the first salt and iteration count can be used. -/
def ServerFirst.Answers (crypto : Crypto) (clientNonce msg : String) : Prop :=
  ∃ (attrs : List (Char × String)) (first : ServerFirst),
    Str.split ',' msg = attrs.map (fun a => attr a.1 a.2) ∧ first.Describes crypto attrs ∧
      ∃ rest, first.nonce = clientNonce ++ rest

theorem ScramClient.receiveServerFirst_iff_answers (msg : String) (c : ScramClient)
    (hstate : c.state = .firstSent) (hnone : c.serverFirst = none) :
    (∃ u c', ScramClient.receiveServerFirst crypto msg c = (.ok u, c')) ↔
      ServerFirst.Answers crypto c.clientNonce msg := by
  simp only [ScramClient.receiveServerFirst_eq_ok, ServerFirst.parse_eq_ok, parseAttributes_eq_ok,
    Str.startsWith_iff]
  constructor
  · rintro ⟨_, _, -, -, first, ⟨attrs, hsplit, hfirst⟩, hnonce, -⟩
    exact ⟨attrs, first, hsplit, hfirst, hnonce⟩
  · rintro ⟨attrs, first, hsplit, hfirst, hnonce⟩
    exact ⟨(), _, hstate, hnone, first, ⟨attrs, hsplit, hfirst⟩, hnonce, rfl⟩

theorem Scram.HasKey.of_gs2Header {bare : String}
    (h : HasKey 'm' (gs2NoBindingHeader ++ bare)) : HasKey 'm' bare := by
  have hsplit : Str.split ',' (gs2NoBindingHeader ++ bare) = "n" :: "" :: Str.split ',' bare := by
    have hmsg : gs2NoBindingHeader ++ bare = "n" ++ "," ++ ("" ++ "," ++ bare) := by
      apply String.toList_inj.mp
      simp [gs2NoBindingHeader]
    rw [hmsg]
    exact (Str.split_append_sep (by decide) _).trans
      (congrArg _ (Str.split_append_sep (by decide) _))
  obtain ⟨value, hmem⟩ := h
  rw [hsplit] at hmem
  refine ⟨value, ?_⟩
  rcases List.mem_cons.mp hmem with h | h
  · exact absurd (congrArg String.toList h) (by simp)
  rcases List.mem_cons.mp h with h | h
  · exact absurd (congrArg String.toList h) (by simp)
  · exact h

theorem ScramServer.handleClientFirst_of_extension {msg : String} (hm : HasKey 'm' msg)
    (username : String) (credentials : StoredCredentials) (s : ScramServer) :
    ∃ e, (handleClientFirst crypto msg username credentials s).1 = .err e := by
  refine (returns_handleClientFirst _ _ _).exists_err fun m s' hok => ?_
  obtain ⟨-, bare, nonce, hfirst, -⟩ := (handleClientFirst_eq_ok _ _ _ _ _ _).mp hok
  rw [hfirst.header] at hm
  exact hfirst.no_extension hm.of_gs2Header

theorem ScramServer.handleClientFinal_of_extension {msg : String} (hm : HasKey 'm' msg)
    (s : ScramServer) : ∃ e, (handleClientFinal crypto msg s).1 = .err e := by
  refine (returns_handleClientFinal _).exists_err fun m s' hok => ?_
  obtain ⟨-, _, _, _, -, hread, -⟩ := (handleClientFinal_eq_ok _ _ _ _).mp hok
  obtain ⟨value, hmem⟩ := hm
  have hpart := (readClientFinal_perm _ _ _ _ hread).mem_iff.mp hmem
  simp only [List.mem_cons, List.not_mem_nil, or_false] at hpart
  rcases hpart with h | h | h <;> exact absurd (attr_inj h).1 (by decide)

theorem ScramClient.receiveServerFinal_of_extension {msg : String} (hm : HasKey 'm' msg)
    (c : ScramClient) : ∃ e, (receiveServerFinal crypto msg c).1 = .err e := by
  refine (returns_receiveServerFinal _).exists_err fun u c' hok => ?_
  obtain ⟨-, value, _, hvalue, -⟩ := (receiveServerFinal_eq_ok _ _ _ _).mp hok
  obtain ⟨v, hmem⟩ := hm.mem ((serverFinalVerifier_eq_ok _ _).mp hvalue)
  rw [List.mem_singleton, Prod.mk.injEq] at hmem
  exact absurd hmem.1 (by decide)

/-- Three of the four readers refuse `m=` wherever it stands. The client's reader of a server-first
message does not look for it. -/
theorem mandatory_extension_refused_iff (crypto : Crypto) (msg : String) (hm : HasKey 'm' msg)
    (username : String) (credentials : StoredCredentials) (s₁ s₂ : ScramServer)
    (c₁ c₂ : ScramClient) (hc₁ : c₁.state = .firstSent ∧ c₁.serverFirst = none) :
    ((∃ e, (ScramServer.handleClientFirst crypto msg username credentials s₁).1 = .err e) ∧
      (∃ e, (ScramServer.handleClientFinal crypto msg s₂).1 = .err e) ∧
      (∃ e, (ScramClient.receiveServerFirst crypto msg c₁).1 = .err e) ∧
      (∃ e, (ScramClient.receiveServerFinal crypto msg c₂).1 = .err e)) ↔
      ¬ ServerFirst.Answers crypto c₁.clientNonce msg := by
  rw [← ScramClient.receiveServerFirst_iff_answers msg c₁ hc₁.1 hc₁.2]
  constructor
  · rintro ⟨-, -, ⟨e, herr⟩, -⟩ ⟨u, c', hok⟩
    rw [hok] at herr
    cases herr
  · intro hno
    have h₁ := (ScramClient.returns_receiveServerFirst msg).exists_err fun u c' hok => hno ⟨u, c', hok⟩
    exact ⟨ScramServer.handleClientFirst_of_extension hm username credentials s₁,
      ScramServer.handleClientFinal_of_extension hm s₂, h₁,
      ScramClient.receiveServerFinal_of_extension hm c₂⟩

/-- The client of the published exchange, after its first message. -/
def Rfc7677.waitingClient : ScramClient := (ScramClient.clientFirstMessage Rfc7677.client).2

/-- The published server-first message with an extension in front. -/
def Rfc7677.extendedFirst : String :=
  "m=ext,r=rOprNGfwEbeRWgbNEkqO%hvYDpWUa2RaTCAfuxFIlj)hNlF$k0,s=W22ZaJ0SNY7soEsUEjb6gQ==,i=4096"

theorem extendedFirst_accepted :
    HasKey 'm' Rfc7677.extendedFirst ∧ Rfc7677.waitingClient.state = .firstSent ∧
      Rfc7677.waitingClient.serverFirst = none ∧
      (ScramClient.receiveServerFirst Rfc7677.crypto Rfc7677.extendedFirst
        Rfc7677.waitingClient).1 = .ok () :=
  ⟨⟨"ext", by decide⟩, by decide, by decide, by decide⟩

theorem mandatory_extension_refused_saltless :
    HasKey 'm' "m=ext,r=rOprNGfwEbeRWgbNEkqO,i=4096" ∧
      ∃ e, (ScramClient.receiveServerFirst Rfc7677.crypto "m=ext,r=rOprNGfwEbeRWgbNEkqO,i=4096"
        Rfc7677.waitingClient).1 = .err e := by
  -- Without a salt the message is refused for another reason.
  have hkey : HasKey 'm' "m=ext,r=rOprNGfwEbeRWgbNEkqO,i=4096" := ⟨"ext", by decide⟩
  refine ⟨hkey, ((mandatory_extension_refused_iff Rfc7677.crypto _ hkey "user" Rfc7677.credentials
    (.withNonce .sha256 "") (.withNonce .sha256 "") Rfc7677.waitingClient Rfc7677.client
    ⟨by decide, by decide⟩).mpr ?_).2.2.1⟩
  rintro ⟨attrs, first, hsplit, hfirst, -⟩
  have hattrs : parseAttributes "m=ext,r=rOprNGfwEbeRWgbNEkqO,i=4096" =
      .ok [('m', "ext"), ('r', "rOprNGfwEbeRWgbNEkqO"), ('i', "4096")] := by decide
  rw [← parseAttributes_eq_ok, hattrs, ok.injEq] at hsplit
  subst hsplit
  obtain ⟨v, hv, -⟩ := hfirst.salt
  simp [List.lookup_cons, saltKey] at hv

end MongoWire
