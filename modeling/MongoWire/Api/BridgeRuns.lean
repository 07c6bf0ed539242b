import MongoWire.Api.BridgeSpec

/-!
# Runs of the SASL bridge

What one command does to the authentication state, and what follows for any
sequence of commands on a connection.
-/

open MongoWire.Lib MongoWire.Lib.Outcome

namespace MongoWire

open Scram

namespace ScramBridge

variable {crypto : Crypto} {bridge : ScramBridge}

/-! ## Sequences of commands

A command comes with the random bytes that are drawn if it needs a server nonce. -/

def run (crypto : Crypto) (bridge : ScramBridge) (ctx : ConnectionInfo)
    (commands : List (Command × Bytes)) : ConnectionInfo :=
  commands.foldl (fun ctx x => (handleCommand crypto bridge x.2 x.1 ctx).2) ctx

theorem run_append (ctx : ConnectionInfo) (xs ys : List (Command × Bytes)) :
    run crypto bridge ctx (xs ++ ys) = run crypto bridge (run crypto bridge ctx xs) ys :=
  List.foldl_append

theorem run_singleton (ctx : ConnectionInfo) (x : Command × Bytes) :
    run crypto bridge ctx [x] = (handleCommand crypto bridge x.2 x.1 ctx).2 := rfl

/-- An accepted `saslStart`: it leaves an exchange in flight where there was none. -/
def Starts (crypto : Crypto) (bridge : ScramBridge) (ctx : ConnectionInfo) (x : Command × Bytes) :
    Prop :=
  x.1.name = "saslStart" ∧ ctx.auth.scram = none ∧
    (handleCommand crypto bridge x.2 x.1 ctx).2.auth.scram ≠ none

/-- The command hands a proof to the exchange in flight. -/
def verifies (ctx : ConnectionInfo) (x : Command × Bytes) : Bool :=
  x.1.name = "saslContinue" && ctx.auth.scram.isSome &&
    match payloadStr x.1.body with
    | .ok _ => true
    | _ => false

def NoStart (crypto : Crypto) (bridge : ScramBridge) (ctx : ConnectionInfo) :
    List (Command × Bytes) → Prop
  | [] => True
  | x :: xs => ¬ Starts crypto bridge ctx x ∧ NoStart crypto bridge (run crypto bridge ctx [x]) xs

/-- How many of the commands hand a proof to an exchange. -/
def verifications (crypto : Crypto) (bridge : ScramBridge) (ctx : ConnectionInfo) :
    List (Command × Bytes) → Nat
  | [] => 0
  | x :: xs => (if verifies ctx x then 1 else 0) +
      verifications crypto bridge (run crypto bridge ctx [x]) xs

theorem noStart_append (ctx : ConnectionInfo) (xs ys : List (Command × Bytes)) :
    NoStart crypto bridge ctx (xs ++ ys) ↔
      NoStart crypto bridge ctx xs ∧ NoStart crypto bridge (run crypto bridge ctx xs) ys := by
  induction xs generalizing ctx with
  | nil => simp [NoStart, run]
  | cons x xs ih =>
    rw [List.cons_append, NoStart, NoStart, ih, and_assoc]
    rfl

section Runs

variable (hinner : ∀ command ctx, (bridge.inner.handleCommand command ctx).2.auth = ctx.auth)

include hinner

/-- Everything that one command can do to the authentication state. -/
theorem handleCommand_cases (ctx : ConnectionInfo) (x : Command × Bytes) :
    let r := handleCommand crypto bridge x.2 x.1 ctx
    (r.2.auth = ctx.auth ∧ verifies ctx x = false ∧
      (x.1.name = "saslContinue" → ∀ reply, r.1 ≠ .ok reply)) ∨
    (∃ mechanism first server, Starts crypto bridge ctx x ∧
      openExchange crypto bridge x.2 x.1.body = .ok (mechanism, first, server) ∧
      r.2.auth = ⟨some (mechanism, server), ctx.auth.authenticated⟩) ∨
    (x.1.name = "saslContinue" ∧ ∃ payload, payloadStr x.1.body = .ok payload ∧
      ((r.2.auth = ⟨none, ctx.auth.authenticated⟩ ∧ ∀ reply, r.1 ≠ .ok reply) ∨
      ∃ id final server,
        closeExchange crypto ctx.auth.scram payload x.1.body = .ok (id, final, server) ∧
        r.2.auth = ⟨none, some server.username⟩)) := by
  intro r
  by_cases hstart : x.1.name = "saslStart"
  · have hr : r = saslStart crypto bridge x.2 x.1.body ctx := by
      rw [← handleCommand_saslStart hstart]
    have hname : x.1.name ≠ "saslContinue" := by rw [hstart]; decide
    rcases saslStart_cases crypto bridge x.2 x.1.body ctx with ⟨hkeep, -⟩ |
        ⟨mechanism, first, server, hnone, hopen, hrun⟩
    · refine .inl ⟨by rw [hr, hkeep], by simp [verifies, hname], fun h => absurd h hname⟩
    · have hauth : r.2.auth = ⟨some (mechanism, server), ctx.auth.authenticated⟩ := by
        rw [hr, hrun]
        rfl
      refine .inr (.inl ⟨mechanism, first, server, ⟨hstart, hnone, ?_⟩, hopen, hauth⟩)
      show r.2.auth.scram ≠ none
      rw [hauth]
      exact Option.some_ne_none _
  by_cases hcont : x.1.name = "saslContinue"
  · have hr : r = saslContinue crypto x.1.body ctx := by
      rw [← handleCommand_saslContinue hcont x.2]
    rcases saslContinue_cases crypto x.1.body ctx with ⟨hno, hkeep, hfail⟩ |
        ⟨payload, hpayload, hrest⟩
    · refine .inl ⟨by rw [hr, hkeep], ?_, fun _ => by rw [hr]; exact hfail⟩
      unfold verifies
      split
      · exact absurd ‹_› (hno _)
      · simp
    · refine .inr (.inr ⟨hcont, payload, hpayload, ?_⟩)
      rcases hrest with ⟨hstate, hfail⟩ | ⟨id, final, server, hclose, hrun⟩
      · exact .inl ⟨by rw [hr, hstate]; rfl, by rw [hr]; exact hfail⟩
      · exact .inr ⟨id, final, server, hclose, by rw [hr, hrun]; rfl⟩
  · have hr : r = bridge.inner.handleCommand x.1 ctx := by
      show handleCommand crypto bridge x.2 x.1 ctx = _
      unfold handleCommand
      rw [if_neg hstart, if_neg hcont]
    exact .inl ⟨by rw [hr, hinner], by simp [verifies, hcont], fun h => absurd h hcont⟩

theorem in_flight (ctx : ConnectionInfo) (hctx : ctx.auth.scram = none)
    (xs : List (Command × Bytes)) (mechanism : ScramMechanism) (server : ScramServer)
    (h : (run crypto bridge ctx xs).auth.scram = some (mechanism, server)) :
    ∃ before start after, xs = before ++ start :: after ∧
      Starts crypto bridge (run crypto bridge ctx before) start ∧
      NoStart crypto bridge (run crypto bridge ctx (before ++ [start])) after ∧
      ∃ first, openExchange crypto bridge start.2 start.1.body = .ok (mechanism, first, server) := by
  induction xs using List.reverseRecOn with
  | nil =>
    rw [show run crypto bridge ctx [] = ctx from rfl, hctx] at h
    cases h
  | append_singleton xs x ih =>
    rw [run_append, run_singleton] at h
    rcases handleCommand_cases hinner (run crypto bridge ctx xs) x with ⟨hkeep, -⟩ |
        ⟨m, first, s, hstarts, hopen, hauth⟩ | ⟨-, _, -, ⟨hauth, -⟩ | ⟨_, _, _, -, hauth⟩⟩
    · -- The exchange was there before, and this command opened none.
      rw [hkeep] at h
      obtain ⟨before, start, after, rfl, hstart, hno, hopen⟩ := ih h
      refine ⟨before, start, after ++ [x], by simp, hstart, ?_, hopen⟩
      rw [noStart_append, ← run_append]
      refine ⟨hno, ?_, trivial⟩
      rintro ⟨-, hnone, -⟩
      rw [List.append_assoc, List.singleton_append, h] at hnone
      cases hnone
    · rw [hauth] at h
      cases h
      refine ⟨xs, x, [], by simp, hstarts, trivial, first, hopen⟩
    · rw [hauth] at h
      cases h
    · rw [hauth] at h
      cases h

theorem verifications_le (ctx : ConnectionInfo) (xs : List (Command × Bytes))
    (hno : NoStart crypto bridge ctx xs) :
    verifications crypto bridge ctx xs ≤ if ctx.auth.scram.isSome then 1 else 0 := by
  induction xs generalizing ctx with
  | nil => exact Nat.zero_le _
  | cons x xs ih =>
    have hrest := ih _ hno.2
    rw [run_singleton] at hrest
    unfold verifications
    rw [run_singleton]
    rcases handleCommand_cases hinner ctx x with ⟨hkeep, hfalse, -⟩ | ⟨_, _, _, hstarts, -⟩ |
        ⟨-, _, -, ⟨hauth, -⟩ | ⟨_, _, _, -, hauth⟩⟩
    · rw [hkeep] at hrest
      simpa [hfalse] using hrest
    · exact absurd hstarts hno.1
    -- The command took the exchange, so that nothing after it has one to hand a proof to.
    all_goals
      rw [hauth] at hrest
      have hzero := Nat.le_zero.mp hrest
      rw [hzero, Nat.add_zero]
      by_cases hv : verifies ctx x = true
      · have hsome : ctx.auth.scram.isSome = true := by
          simp only [verifies, Bool.and_eq_true] at hv
          exact hv.1.2
        simp [hv, hsome]
      · simp [hv]

end Runs

/-! ## Soundness -/

/-- What the last accepted `saslStart` and the `saslContinue` after it must hold for the user `u`
to be authenticated: a proof of the stored key under the transcript of that very exchange. -/
def Proves (crypto : Crypto) (bridge : ScramBridge) (start continuation : Command × Bytes)
    (u : String) : Prop :=
  ∃ mechanism clientFirst bare claimed clientNonce rest credentials,
    parseMechanism start.1.body = .ok mechanism ∧ payloadStr start.1.body = .ok clientFirst ∧
    clientFirst = "n,," ++ bare ∧
    Str.split ',' bare = ("n=" ++ claimed) :: ("r=" ++ clientNonce) :: rest ∧
    unescapeUsername claimed = u ∧ bridge.credentials mechanism u = some credentials ∧
    let nonce := clientNonce ++ generateNonce crypto start.2
    let serverFirst := "r=" ++ nonce ++ ",s=" ++ crypto.base64Encode credentials.salt ++
      ",i=" ++ toString credentials.iterations.toNat
    let authMessage := bare ++ "," ++ serverFirst ++ "," ++ ("c=biws,r=" ++ nonce)
    ∃ payload proofB64 proof, payloadStr continuation.1.body = .ok payload ∧
      (Str.split ',' payload).Perm ["c=biws", "r=" ++ nonce, "p=" ++ proofB64] ∧
      crypto.base64Decode proofB64 = some proof ∧
      crypto.hash mechanism
          (xorBytes proof (crypto.hmac mechanism credentials.storedKey (utf8 authMessage))) =
        credentials.storedKey

theorem serverFirst_eq (nonce : String) (credentials : StoredCredentials) :
    ScramServer.serverFirst crypto nonce credentials =
      "r=" ++ nonce ++ ",s=" ++ crypto.base64Encode credentials.salt ++
        ",i=" ++ toString credentials.iterations.toNat := by
  apply String.toList_inj.mp
  simp [ScramServer.serverFirst, nonceKey, saltKey, iterationKey]

theorem proves_of_exchange {start x : Command × Bytes} {mechanism : ScramMechanism} {first : String}
    {server : ScramServer} {payload final : String} {server' : ScramServer}
    (hopen : openExchange crypto bridge start.2 start.1.body = .ok (mechanism, first, server))
    (hpayload : payloadStr x.1.body = .ok payload)
    (hfinal : ScramServer.handleClientFinal crypto payload server = (.ok final, server')) :
    Proves crypto bridge start x server'.username := by
  obtain ⟨hmech, clientFirst, username, credentials, hfirstPayload, huser, hcred, hfirst⟩ :=
    (openExchange_eq_ok _ _ _ _ _).mp hopen
  obtain ⟨-, bare, nonce, hclient, rfl, rfl⟩ :=
    (ScramServer.handleClientFirst_eq_ok _ _ _ _ _ _).mp hfirst
  obtain ⟨claimed, rest, hsplit, hclaimed⟩ := parseClientFirstUsername_of_clientFirst hclient
  rw [hclaimed, Option.some.injEq] at huser
  obtain ⟨-, _, proofB64, proof, hsome, hread, hdecode, -, hhash, -, rfl⟩ :=
    (ScramServer.handleClientFinal_eq_ok _ _ _ _).mp hfinal
  cases hsome
  refine ⟨mechanism, clientFirst, bare, claimed, nonce, rest, credentials, hmech, hfirstPayload,
    hclient.header, ?_, huser, hcred, payload, proofB64, proof, hpayload, ?_, hdecode, ?_⟩
  · rw [hsplit, attr_eq_append "n=" rfl, attr_eq_append "r=" rfl]
  · have hperm := ScramServer.readClientFinal_perm _ _ _ _ hread
    rwa [attr_eq_append "c=" rfl, attr_eq_append "r=" rfl, attr_eq_append "p=" rfl] at hperm
  · unfold ScramServer.transcript at hhash
    rw [serverFirst_eq, withoutProof_eq] at hhash
    exact hhash

theorem proves_of_authenticated
    (hinner : ∀ command ctx, (bridge.inner.handleCommand command ctx).2.auth = ctx.auth)
    {xs : List (Command × Bytes)} {x : Command × Bytes} {u : String}
    (hname : x.1.name = "saslContinue")
    (hset : (handleCommand crypto bridge x.2 x.1 (run crypto bridge .new xs)).2.auth.authenticated =
      some u)
    (hnew : (run crypto bridge .new xs).auth.authenticated ≠ some u ∨
      ∃ reply, (handleCommand crypto bridge x.2 x.1 (run crypto bridge .new xs)).1 = .ok reply) :
    ∃ before start after, xs = before ++ start :: after ∧
      Starts crypto bridge (run crypto bridge .new before) start ∧
      NoStart crypto bridge (run crypto bridge .new (before ++ [start])) after ∧
      Proves crypto bridge start x u := by
  rcases handleCommand_cases hinner (run crypto bridge .new xs) x with ⟨hkeep, -, hfail⟩ |
      ⟨_, _, _, hstarts, -⟩ | ⟨-, payload, hpayload, ⟨hauth, hfail⟩ | ⟨id, final, server, hclose, hauth⟩⟩
  · rw [hkeep] at hset
    rcases hnew with hne | ⟨reply, hreply⟩
    · exact absurd hset hne
    · exact absurd hreply (hfail hname reply)
  · rw [hstarts.1] at hname
    exact absurd hname (by decide)
  · rw [hauth] at hset
    rcases hnew with hne | ⟨reply, hreply⟩
    · exact absurd hset hne
    · exact absurd hreply (hfail reply)
  · rw [hauth, Option.some.injEq] at hset
    subst hset
    obtain ⟨-, mechanism, opened, hscram, hfinal⟩ := (closeExchange_eq_ok _ _ _ _ _ _).mp hclose
    obtain ⟨before, start, after, hxs, hstart, hno, first, hopen⟩ :=
      in_flight hinner .new rfl xs mechanism opened hscram
    exact ⟨before, start, after, hxs, hstart, hno, proves_of_exchange hopen hpayload hfinal⟩

/-- Authentication is sound: only a `saslContinue` changes who is authenticated, it names the user
that the last accepted `saslStart` claimed, and it carries a proof for that very exchange. Each
accepted `saslStart` is good for one attempt. -/
theorem authentication_sound (crypto : Crypto) (bridge : ScramBridge)
    (hinner : ∀ command ctx, (bridge.inner.handleCommand command ctx).2.auth = ctx.auth)
    (xs : List (Command × Bytes)) (x : Command × Bytes) :
    let ctx := run crypto bridge .new xs
    let r := handleCommand crypto bridge x.2 x.1 ctx
    (r.2.auth.authenticated ≠ ctx.auth.authenticated → x.1.name = "saslContinue") ∧
    (∀ u, x.1.name = "saslContinue" → r.2.auth.authenticated = some u →
      (ctx.auth.authenticated ≠ some u ∨ ∃ reply, r.1 = .ok reply) →
      ∃ before start after, xs = before ++ start :: after ∧
        Starts crypto bridge (run crypto bridge .new before) start ∧
        NoStart crypto bridge (run crypto bridge .new (before ++ [start])) after ∧
        Proves crypto bridge start x u) ∧
    (∀ before start after, xs = before ++ start :: after →
      Starts crypto bridge (run crypto bridge .new before) start →
      NoStart crypto bridge (run crypto bridge .new (before ++ [start])) after →
      verifications crypto bridge (run crypto bridge .new (before ++ [start])) after ≤ 1) := by
  intro ctx r
  refine ⟨?_, fun u hname hset hnew => proves_of_authenticated hinner hname hset hnew, ?_⟩
  · intro hchange
    rcases handleCommand_cases hinner ctx x with ⟨hkeep, -⟩ | ⟨_, _, _, -, -, hauth⟩ | ⟨hname, -⟩
    · exact absurd (congrArg AuthState.authenticated hkeep) hchange
    · exact absurd (congrArg AuthState.authenticated hauth) hchange
    · exact hname
  · intro before start after _ _ hno
    refine (verifications_le hinner _ after hno).trans ?_
    split <;> omega

end ScramBridge

/-! ## The published exchange over the bridge -/

namespace Rfc7677

def raw (d : Document) : RawDocument :=
  match d.encode with
  | .ok raw => raw
  | _ => .default

def startBody : RawDocument :=
  raw ⟨[⟨"saslStart", .int32 1⟩, ⟨"mechanism", .string "SCRAM-SHA-256"⟩,
    ⟨"payload", .string "n,,n=user,r=rOprNGfwEbeRWgbNEkqO"⟩]⟩

def continueBody (proofB64 : String) : RawDocument :=
  raw ⟨[⟨"saslContinue", .int32 1⟩, ⟨"conversationId", .int32 1⟩,
    ⟨"payload", .string ("c=biws,r=rOprNGfwEbeRWgbNEkqOAAAAAAAAAAAAAAAAAAAAAAAA,p=" ++ proofB64)⟩]⟩

def start : Command × Bytes := (⟨"saslStart", startBody, [], ⟨0⟩⟩, .replicate 18 0)

def continuation : Command × Bytes :=
  (⟨"saslContinue", continueBody "mntKIUEeVuwvGnQqxdBzzYsjAdKe5WlTo6ayg08QksM=", [], ⟨0⟩⟩, [])

def silent : Handler := ⟨fun _ => pure .noReply, fun _ => Method.returns_pure _⟩

def source : CredentialSource := fun mechanism username =>
  if mechanism = .sha256 ∧ username = "user" then some credentials else none

def bridge : ScramBridge := ⟨silent, source⟩

theorem clientFirst : ScramServer.ClientFirst "n,,n=user,r=rOprNGfwEbeRWgbNEkqO"
    "n=user,r=rOprNGfwEbeRWgbNEkqO" clientNonce where
  header := by decide
  parts := ⟨"user", [], by decide⟩
  nonce_ne := by decide
  no_extension := by
    have hparse : parseAttributes "n=user,r=rOprNGfwEbeRWgbNEkqO" =
      .ok [('n', "user"), ('r', clientNonce)] := by decide
    rw [ScramServer.hasKey_iff_any 'm' hparse]
    decide

theorem startFields : ScramBridge.parseMechanism start.1.body = .ok .sha256 ∧
    ScramBridge.payloadStr start.1.body = .ok "n,,n=user,r=rOprNGfwEbeRWgbNEkqO" ∧
    ScramBridge.parseClientFirstUsername "n,,n=user,r=rOprNGfwEbeRWgbNEkqO" = some "user" := by
  decide +kernel

/-- The server between the two messages. -/
def waitingServer : ScramServer where
  mechanism := .sha256
  serverNonce := zeroNonce
  clientFirstBare := "n=user,r=rOprNGfwEbeRWgbNEkqO"
  serverFirstMessage :=
    "r=rOprNGfwEbeRWgbNEkqO" ++ zeroNonce ++ ",s=W22ZaJ0SNY7soEsUEjb6gQ==,i=4096"
  state := .expectClientFinal
  username := "user"
  clientNonce := clientNonce
  credentials := some credentials

theorem openExchange_start : ScramBridge.openExchange crypto bridge (.replicate 18 0) start.1.body =
    .ok (.sha256, waitingServer.serverFirstMessage, waitingServer) := by
  have hnonce : generateNonce crypto (.replicate 18 0) = zeroNonce := by decide +kernel
  have hfirst : waitingServer.serverFirstMessage =
      ScramServer.serverFirst crypto (clientNonce ++ zeroNonce) credentials := by decide +kernel
  obtain ⟨hmech, hpayload, huser⟩ := startFields
  refine (ScramBridge.openExchange_eq_ok _ _ _ _ _).mpr
    ⟨hmech, _, "user", credentials, hpayload, huser, rfl, ?_⟩
  refine (ScramServer.handleClientFirst_eq_ok _ _ _ _ _ _).mpr ⟨rfl, _, _, clientFirst, ?_, ?_⟩
  · unfold ScramServer.new ScramServer.withNonce
    rw [hnonce]
    exact hfirst
  · unfold ScramServer.new
    rw [hnonce]
    rfl

theorem handleCommand_start : ∃ reply,
    ScramBridge.handleCommand crypto bridge (.replicate 18 0) start.1 .new =
      (.ok reply, ConnectionInfo.new.setScram (some (.sha256, waitingServer))) := by
  have hnone : ConnectionInfo.new.auth.scram = none := rfl
  have hfits : (utf8 waitingServer.serverFirstMessage).length + 58 < 2 ^ 31 := by decide +kernel
  obtain ⟨m, hm⟩ := ScramBridge.exists_saslReply 1 false _ hfits
  rw [ScramBridge.handleCommand_saslStart rfl, ScramBridge.saslStart_of_open hnone openExchange_start,
    hm]
  exact ⟨.msg m, rfl⟩

theorem run_start : ScramBridge.run crypto bridge .new [start] =
    ConnectionInfo.new.setScram (some (.sha256, waitingServer)) := by
  obtain ⟨reply, hrun⟩ := handleCommand_start
  have hrandom : start.2 = .replicate 18 0 := rfl
  rw [ScramBridge.run_singleton, hrandom, hrun]

end Rfc7677

theorem authentication_sound_rfc7677 :
    (ScramBridge.run Rfc7677.crypto Rfc7677.bridge .new [Rfc7677.start]).auth.authenticated = none ∧
    (ScramBridge.handleCommand Rfc7677.crypto Rfc7677.bridge Rfc7677.continuation.2
      Rfc7677.continuation.1 (ScramBridge.run Rfc7677.crypto Rfc7677.bridge .new
        [Rfc7677.start])).2.auth.authenticated = some "user" ∧
    ∃ start, ScramBridge.Proves Rfc7677.crypto Rfc7677.bridge start Rfc7677.continuation "user" := by
  have hsound := (ScramBridge.authentication_sound Rfc7677.crypto Rfc7677.bridge (fun _ _ => rfl)
    [Rfc7677.start] Rfc7677.continuation).2.1 "user" rfl
  have hbefore : (ScramBridge.run Rfc7677.crypto Rfc7677.bridge .new
      [Rfc7677.start]).auth.authenticated = none := by
    rw [Rfc7677.run_start]
    rfl
  have hset : (ScramBridge.handleCommand Rfc7677.crypto Rfc7677.bridge Rfc7677.continuation.2
      Rfc7677.continuation.1 (ScramBridge.run Rfc7677.crypto Rfc7677.bridge .new
        [Rfc7677.start])).2.auth.authenticated = some "user" := by
    rw [Rfc7677.run_start]
    decide +kernel
  rw [hbefore] at hsound
  obtain ⟨_, start, _, -, -, -, hproves⟩ := hsound hset (.inl nofun)
  exact ⟨hbefore, hset, start, hproves⟩

end MongoWire
