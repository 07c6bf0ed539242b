import MongoWire.Api.BridgeRuns

/-!
# Failed authentication

What a refused SASL command leaves behind, and what it tells the client.
-/

open MongoWire.Lib MongoWire.Lib.Outcome

namespace MongoWire

open Scram

namespace ScramBridge

variable {crypto : Crypto} {bridge : ScramBridge}

/-! ## Payloads and replies -/

def HasTextPayload (body : RawDocument) : Prop :=
  ∃ value, body.get "payload" = .ok (some value) ∧
    ((∃ s, value = .string s) ∨ ∃ b s, value = .binary b ∧ fromUtf8 b.bytes = some s)

theorem hasTextPayload_iff (body : RawDocument) :
    HasTextPayload body ↔ ∃ payload, payloadStr body = .ok payload := by
  unfold payloadStr HasTextPayload
  simp only [bind_eq_ok, ofOption_eq_ok, payloadBytes_eq_ok]
  constructor
  · rintro ⟨value, hget, ⟨s, rfl⟩ | ⟨b, s, rfl, htext⟩⟩
    · exact ⟨s, _, ⟨_, hget, .inl ⟨s, rfl, rfl⟩⟩, fromUtf8_utf8 s⟩
    · exact ⟨s, _, ⟨_, hget, .inr ⟨b, rfl, rfl⟩⟩, htext⟩
  · rintro ⟨s, _, ⟨value, hget, ⟨t, rfl, rfl⟩ | ⟨b, rfl, rfl⟩⟩, htext⟩
    · exact ⟨_, hget, .inl ⟨t, rfl⟩⟩
    · exact ⟨_, hget, .inr ⟨b, s, rfl, htext⟩⟩

/-! ## A failed `saslContinue` -/

/-- A `saslStart` that names a known user in a well-formed client-first message, and whose answer
fits into a document. -/
def WellFormedStart (crypto : Crypto) (bridge : ScramBridge) (random : Bytes) (start : Command) :
    Prop :=
  start.name = "saslStart" ∧ ∃ mechanism clientFirst bare nonce username credentials,
    parseMechanism start.body = .ok mechanism ∧ payloadStr start.body = .ok clientFirst ∧
    ScramServer.ClientFirst clientFirst bare nonce ∧
    parseClientFirstUsername clientFirst = some username ∧
    bridge.credentials mechanism username = some credentials ∧
    (utf8 (ScramServer.serverFirst crypto (nonce ++ generateNonce crypto random)
      credentials)).length + 58 < 2 ^ 31

theorem handleCommand_wellFormedStart {random : Bytes} {start : Command} {ctx : ConnectionInfo}
    (hnone : ctx.auth.scram = none) (h : WellFormedStart crypto bridge random start) :
    ∃ reply exchange, handleCommand crypto bridge random start ctx =
      (.ok reply, ctx.setScram (some exchange)) := by
  obtain ⟨hname, mechanism, clientFirst, bare, nonce, username, credentials, hmech, hpayload,
    hfirst, huser, hcred, hfits⟩ := h
  have hopen := (@openExchange_eq_ok crypto bridge random start.body mechanism _ _).mpr
    ⟨hmech, clientFirst, username, credentials, hpayload, huser, hcred,
      (ScramServer.handleClientFirst_eq_ok _ _ _ _ _ _).mpr ⟨rfl, bare, nonce, hfirst, rfl, rfl⟩⟩
  obtain ⟨m, hm⟩ := exists_saslReply 1 false _ hfits
  rw [handleCommand_saslStart hname, saslStart_of_open hnone hopen]
  exact ⟨.msg m, _, congrArg (·, _) ((congrArg (· >>= _) hm).trans (ok_bind _ _))⟩

/-- A failed `saslContinue` leaves no exchange behind, so that a well-formed `saslStart` is answered,
unless it fails on its payload with an exchange in flight. -/
theorem failed_continue_aborts_iff (crypto : Crypto) (bridge : ScramBridge) (ctx : ConnectionInfo)
    (random : Bytes) (command : Command) (hname : command.name = "saslContinue") :
    let r := handleCommand crypto bridge random command ctx
    ((∃ e, r.1 = .err e) → r.2.auth.scram = none ∧
      ∀ random start, WellFormedStart crypto bridge random start →
        ∃ reply, (handleCommand crypto bridge random start r.2).1 = .ok reply) ↔
    HasTextPayload command.body ∨ ctx.auth.scram = none := by
  intro r
  have hr : r = saslContinue crypto command.body ctx := by
    rw [← handleCommand_saslContinue hname random]
  have hnext (hnone : r.2.auth.scram = none) : r.2.auth.scram = none ∧
      ∀ random start, WellFormedStart crypto bridge random start →
        ∃ reply, (handleCommand crypto bridge random start r.2).1 = .ok reply := by
    refine ⟨hnone, fun random start h => ?_⟩
    obtain ⟨reply, _, hrun⟩ := handleCommand_wellFormedStart hnone h
    exact ⟨reply, congrArg Prod.fst hrun⟩
  rw [hasTextPayload_iff]
  rcases saslContinue_cases crypto command.body ctx with ⟨hno, hkeep, -⟩ | ⟨payload, hpayload, hrest⟩
  · -- The payload was refused before the exchange was taken.
    obtain ⟨e, he⟩ := (returns_payloadStr command.body).exists_err hno
    have herr : r.1 = .err e := by rw [hr, saslContinue_of_err he]
    rw [← hr] at hkeep
    constructor
    · intro habort
      exact .inr (hkeep ▸ (habort ⟨e, herr⟩).1)
    · rintro (⟨payload, hpayload⟩ | hnone) -
      · exact absurd hpayload (hno payload)
      · exact hnext (hkeep ▸ hnone)
  · have hnone : r.2.auth.scram = none := by
      rcases hrest with ⟨hstate, -⟩ | ⟨id, final, server, -, hrun⟩
      · rw [hr, hstate]
        rfl
      · rw [hr, hrun]
        rfl
    exact ⟨fun _ => .inl ⟨payload, hpayload⟩, fun _ _ => hnext hnone⟩

/-! ## What the client sees -/

/-- What a command's answer shows on the wire, apart from the contents of a successful one. -/
inductive Visible where
  | accepted
  | refused (code : Int32) (codeName errmsg : String)
  | closed
  deriving DecidableEq

def visible : Outcome Error Reply → Visible
  | .ok _ => .accepted
  | .err (.command code codeName errmsg) => .refused code codeName errmsg
  | _ => .closed

/-- A client that sends one `saslStart`, and a `saslContinue` that may depend on the answer. -/
structure SaslClient where
  start : Command
  start_name : start.name = "saslStart"
  continuation : Outcome Error Reply → Command
  continuation_name : ∀ answer, (continuation answer).name = "saslContinue"

def attempt (crypto : Crypto) (bridge : ScramBridge) (client : SaslClient) (random : Bytes)
    (ctx : ConnectionInfo) : Visible × Visible :=
  let first := handleCommand crypto bridge random client.start ctx
  let second := handleCommand crypto bridge random (client.continuation first.1) first.2
  (visible first.1, visible second.1)

def withEntry (bridge : ScramBridge) (mechanism : ScramMechanism) (username : String)
    (entry : Option StoredCredentials) : ScramBridge :=
  { bridge with credentials := fun m u =>
      if m = mechanism ∧ u = username then entry else bridge.credentials m u }

def Claims (body : RawDocument) (mechanism : ScramMechanism) (username : String) : Prop :=
  parseMechanism body = .ok mechanism ∧ ∃ clientFirst, payloadStr body = .ok clientFirst ∧
    parseClientFirstUsername clientFirst = some username

theorem visible_eq_authFailed (x : Outcome Error Reply) (message : String) :
    visible x = visible (.err (authFailed message)) ↔ x = .err (authFailed message) := by
  rcases x with _ | (_ | ⟨_, _, _⟩) | _ | _
  all_goals simp [visible, authFailed]

theorem toString_ne (e : AuthError) : e.toString ≠ "Authentication failed." := by
  have happend (front text : String) (hfront : ¬ front.toList <+: "Authentication failed.".toList) :
      front ++ text ≠ "Authentication failed." := by
    intro heq
    rw [← heq, String.toList_append] at hfront
    exact hfront (List.prefix_append _ _)
  rcases e with what | text | _ | _ | _ | _
  · exact happend _ what (by decide +kernel)
  · exact happend _ text (by decide +kernel)
  all_goals decide

theorem saslStart_congr {bridge' : ScramBridge} {random : Bytes} {body : RawDocument}
    (h : openExchange crypto bridge random body = openExchange crypto bridge' random body) :
    saslStart crypto bridge random body = saslStart crypto bridge' random body := by
  unfold saslStart
  rw [h]

section Entries

variable {mechanism : ScramMechanism} {username : String} {body : RawDocument}

theorem openExchange_withEntry (h : ¬ Claims body mechanism username) (random : Bytes)
    (entry : Option StoredCredentials) :
    openExchange crypto (bridge.withEntry mechanism username entry) random body =
      openExchange crypto bridge random body := by
  unfold openExchange
  rcases hmech : parseMechanism body with m | _ | _ | _
  · rcases hpayload : payloadStr body with clientFirst | _ | _ | _
    · rcases huser : parseClientFirstUsername clientFirst with _ | u
      · simp only [ok_bind, huser, ofOption_none, err_bind]
      · have hother : ¬ (m = mechanism ∧ u = username) := by
          rintro ⟨rfl, rfl⟩
          exact h ⟨hmech, clientFirst, hpayload, huser⟩
        have hlookup : (bridge.withEntry mechanism username entry).credentials m u =
            bridge.credentials m u := if_neg hother
        simp only [ok_bind, huser, ofOption_some, hlookup]
    all_goals simp only [ok_bind, err_bind, panic_bind, hang_bind]
  all_goals simp only [err_bind, panic_bind, hang_bind]

theorem openExchange_unknown (h : Claims body mechanism username) (random : Bytes) :
    openExchange crypto (bridge.withEntry mechanism username none) random body =
      .err (authFailed "Authentication failed.") := by
  obtain ⟨hmech, clientFirst, hpayload, huser⟩ := h
  unfold openExchange withEntry
  simp [hmech, hpayload, huser]

theorem openExchange_known (h : Claims body mechanism username) (random : Bytes)
    (entry : StoredCredentials) :
    openExchange crypto (bridge.withEntry mechanism username (some entry)) random body ≠
      .err (authFailed "Authentication failed.") := by
  obtain ⟨hmech, clientFirst, hpayload, huser⟩ := h
  have hfails : (openExchange crypto (bridge.withEntry mechanism username (some entry)) random
      body).FailsWith (· ≠ authFailed "Authentication failed.") := by
    unfold openExchange withEntry
    simp [hmech, hpayload, huser, failsWith_bind, authFailed, toString_ne]
  intro heq
  rw [heq] at hfails
  exact hfails rfl

theorem saslStart_known (h : Claims body mechanism username) (random : Bytes)
    (entry : StoredCredentials) {ctx : ConnectionInfo} (hnone : ctx.auth.scram = none) :
    (saslStart crypto (bridge.withEntry mechanism username (some entry)) random body ctx).1 ≠
      .err (authFailed "Authentication failed.") := by
  rcases hopen : openExchange crypto (bridge.withEntry mechanism username (some entry)) random
      body with ⟨m, first, server⟩ | e | _ | _
  · rw [saslStart_of_open hnone hopen]
    rcases saslReply_cases 1 false first with ⟨reply, hreply⟩ | ⟨e, hreply⟩
    all_goals
      rw [hreply]
      nofun
  · rw [saslStart_of_err hnone hopen]
    intro heq
    apply openExchange_known h random entry
    rw [hopen, err.inj heq]
  all_goals
    have hreturns := returns_openExchange crypto
      (bridge.withEntry mechanism username (some entry)) random body
    rw [hopen] at hreturns
    exact absurd hreturns id

end Entries

/-- Whether a user has an entry shows in the answers if and only if the client claims that user
while no exchange is in flight. -/
theorem unknown_user_hidden_iff (crypto : Crypto) (bridge : ScramBridge)
    (mechanism : ScramMechanism) (username password : String) (salt : Bytes) (iterations : UInt32)
    (client : SaslClient) (random : Bytes) (ctx : ConnectionInfo) :
    attempt crypto (bridge.withEntry mechanism username none) client random ctx =
      attempt crypto (bridge.withEntry mechanism username (some (.derive crypto mechanism
        (effectivePassword crypto mechanism username password) salt iterations))) client random ctx ↔
    ctx.auth.scram ≠ none ∨ ¬ Claims client.start.body mechanism username := by
  unfold attempt
  simp only [handleCommand_saslStart client.start_name,
    handleCommand_saslContinue (client.continuation_name _)]
  by_cases hnone : ctx.auth.scram = none
  · by_cases hclaims : Claims client.start.body mechanism username
    · refine ⟨fun heq => ?_, fun h => absurd h (by simp [hnone, hclaims])⟩
      have hfirst := congrArg Prod.fst heq
      rw [saslStart_of_err hnone (openExchange_unknown hclaims random)] at hfirst
      exact absurd ((visible_eq_authFailed _ _).mp hfirst.symm) (saslStart_known hclaims random _ hnone)
    · refine ⟨fun _ => .inr hclaims, fun _ => ?_⟩
      rw [saslStart_congr ((openExchange_withEntry hclaims random none).trans
        (openExchange_withEntry hclaims random _).symm)]
  · refine ⟨fun _ => .inl hnone, fun _ => ?_⟩
    rw [saslStart_in_flight hnone, saslStart_in_flight hnone]

end ScramBridge

namespace Rfc7677

def emptyContinuation : Command :=
  ⟨"saslContinue", raw ⟨[⟨"saslContinue", .int32 1⟩, ⟨"conversationId", .int32 1⟩]⟩, [], ⟨0⟩⟩

theorem wellFormedStart :
    ScramBridge.WellFormedStart crypto bridge (.replicate 18 0) start.1 := by
  obtain ⟨hmech, hpayload, huser⟩ := startFields
  refine ⟨rfl, .sha256, _, _, _, "user", credentials, hmech, hpayload, clientFirst, huser, rfl, ?_⟩
  decide

theorem claims : ScramBridge.Claims start.1.body .sha256 "user" :=
  ⟨startFields.1, _, startFields.2⟩

theorem bridge_withEntry : bridge.withEntry .sha256 "user" (some credentials) = bridge := by
  unfold ScramBridge.withEntry bridge
  congr
  funext m u
  unfold source
  by_cases h : m = .sha256 ∧ u = "user"
  · rw [if_pos h, if_pos h]
  · rw [if_neg h]

theorem payloadStr_emptyContinuation : ScramBridge.payloadStr emptyContinuation.body =
    .err (ScramBridge.authFailed "missing payload") := by
  decide +kernel

/-- A `saslContinue` whose proof is all zeros. -/
def wrongContinuation : Command :=
  ⟨"saslContinue", continueBody "AAAAAAAAAAAAAAAAAAAAAAAAAAAAAAAAAAAAAAAAAAA=", [], ⟨0⟩⟩

def wrongFinal : String :=
  "c=biws,r=rOprNGfwEbeRWgbNEkqO" ++ zeroNonce ++ ",p=AAAAAAAAAAAAAAAAAAAAAAAAAAAAAAAAAAAAAAAAAAA="

theorem payloadStr_wrongContinuation :
    ScramBridge.payloadStr wrongContinuation.body = .ok wrongFinal := by
  decide +kernel

/-- The connection after the `saslStart`. -/
def opened : ConnectionInfo :=
  (ScramBridge.handleCommand crypto bridge (.replicate 18 0) start.1 .new).2

theorem opened_eq : opened = ConnectionInfo.new.setScram (some (.sha256, waitingServer)) := by
  obtain ⟨reply, hrun⟩ := handleCommand_start
  unfold opened
  rw [hrun]

theorem scram_opened : opened.auth.scram ≠ none := by
  rw [opened_eq]
  exact Option.some_ne_none _

theorem wrongContinuation_refused (random : Bytes) :
    (ScramBridge.handleCommand crypto bridge random wrongContinuation opened).1 =
      .err (ScramBridge.authFailed "client proof mismatch") := by
  have hclose : ScramBridge.closeExchange crypto opened.auth.scram wrongFinal wrongContinuation.body =
      .err (ScramBridge.authFailed "client proof mismatch") := by
    rw [opened_eq]
    decide +kernel
  rw [ScramBridge.handleCommand_saslContinue rfl,
    ScramBridge.saslContinue_of_close_err payloadStr_wrongContinuation hclose]

theorem wrongContinuation_without_start :
    (ScramBridge.saslContinue crypto wrongContinuation.body .new).1 =
      .err (ScramBridge.authFailed "saslContinue without saslStart") := by
  have hclose : ScramBridge.closeExchange crypto ConnectionInfo.new.auth.scram wrongFinal
      wrongContinuation.body = .err (ScramBridge.authFailed "saslContinue without saslStart") := rfl
  rw [ScramBridge.saslContinue_of_close_err payloadStr_wrongContinuation hclose]

end Rfc7677

/-- After a `saslContinue` without a payload the exchange is still in flight, and the next
`saslStart` is refused. -/
theorem empty_continue_keeps_exchange :
    ScramBridge.run Rfc7677.crypto Rfc7677.bridge .new [Rfc7677.start] = Rfc7677.opened ∧
    ScramBridge.handleCommand Rfc7677.crypto Rfc7677.bridge [] Rfc7677.emptyContinuation
      Rfc7677.opened = (.err (ScramBridge.authFailed "missing payload"), Rfc7677.opened) ∧
    Rfc7677.opened.auth.scram ≠ none ∧
    ScramBridge.WellFormedStart Rfc7677.crypto Rfc7677.bridge (.replicate 18 0) Rfc7677.start.1 ∧
    (ScramBridge.handleCommand Rfc7677.crypto Rfc7677.bridge (.replicate 18 0) Rfc7677.start.1
      Rfc7677.opened).1 = .err (ScramBridge.authFailed
        "saslStart while an authentication exchange is already in progress") := by
  refine ⟨Rfc7677.run_start.trans Rfc7677.opened_eq.symm, ?_, Rfc7677.scram_opened,
    Rfc7677.wellFormedStart, ?_⟩
  · rw [ScramBridge.handleCommand_saslContinue rfl,
      ScramBridge.saslContinue_of_err Rfc7677.payloadStr_emptyContinuation]
  · rw [ScramBridge.handleCommand_saslStart rfl, ScramBridge.saslStart_in_flight
      Rfc7677.scram_opened]

/-- The client of the published exchange, with a proof of zeros. -/
def Rfc7677.wrongClient : ScramBridge.SaslClient where
  start := Rfc7677.start.1
  start_name := rfl
  continuation _ := Rfc7677.wrongContinuation
  continuation_name _ := rfl

theorem unknown_user_visible :
    ScramBridge.attempt Rfc7677.crypto (Rfc7677.bridge.withEntry .sha256 "user" none)
        Rfc7677.wrongClient (.replicate 18 0) .new =
      (.refused 18 "AuthenticationFailed" "Authentication failed.",
        .refused 18 "AuthenticationFailed" "saslContinue without saslStart") ∧
    ScramBridge.attempt Rfc7677.crypto (Rfc7677.bridge.withEntry .sha256 "user" (some (.derive
        Rfc7677.crypto .sha256 (effectivePassword Rfc7677.crypto .sha256 "user" "pencil")
        Rfc7677.salt 4096))) Rfc7677.wrongClient (.replicate 18 0) .new =
      (.accepted, .refused 18 "AuthenticationFailed" "client proof mismatch") := by
  have hnone : ConnectionInfo.new.auth.scram = none := rfl
  constructor
  · have hfirst : ScramBridge.handleCommand Rfc7677.crypto
        (Rfc7677.bridge.withEntry .sha256 "user" none) (.replicate 18 0) Rfc7677.start.1 .new =
          (.err (ScramBridge.authFailed "Authentication failed."), .new) := by
      rw [ScramBridge.handleCommand_saslStart rfl]
      exact ScramBridge.saslStart_of_err hnone (ScramBridge.openExchange_unknown Rfc7677.claims _)
    unfold ScramBridge.attempt Rfc7677.wrongClient
    dsimp only
    rw [hfirst, ScramBridge.handleCommand_saslContinue rfl, Rfc7677.wrongContinuation_without_start]
    rfl
  · -- The published credentials are what the bridge has.
    obtain ⟨reply, hrun⟩ := Rfc7677.handleCommand_start
    show ScramBridge.attempt Rfc7677.crypto (Rfc7677.bridge.withEntry .sha256 "user"
      (some Rfc7677.credentials)) Rfc7677.wrongClient (.replicate 18 0) .new = _
    rw [Rfc7677.bridge_withEntry]
    unfold ScramBridge.attempt Rfc7677.wrongClient
    dsimp only
    rw [hrun, ← Rfc7677.opened_eq, Rfc7677.wrongContinuation_refused]
    rfl

theorem failed_continue_aborts_rfc7677 :
    (ScramBridge.handleCommand Rfc7677.crypto Rfc7677.bridge [] Rfc7677.wrongContinuation
      Rfc7677.opened).1 = .err (ScramBridge.authFailed "client proof mismatch") ∧
    ∃ reply, (ScramBridge.handleCommand Rfc7677.crypto Rfc7677.bridge (.replicate 18 0)
      Rfc7677.start.1 (ScramBridge.handleCommand Rfc7677.crypto Rfc7677.bridge []
        Rfc7677.wrongContinuation Rfc7677.opened).2).1 = .ok reply := by
  have habort := (ScramBridge.failed_continue_aborts_iff Rfc7677.crypto Rfc7677.bridge
    Rfc7677.opened [] Rfc7677.wrongContinuation rfl).mpr
      (.inl ((ScramBridge.hasTextPayload_iff _).mpr ⟨_, Rfc7677.payloadStr_wrongContinuation⟩))
  refine ⟨Rfc7677.wrongContinuation_refused [], ?_⟩
  exact (habort ⟨_, Rfc7677.wrongContinuation_refused []⟩).2 _ _ Rfc7677.wellFormedStart

end MongoWire
