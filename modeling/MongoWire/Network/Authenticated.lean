import MongoWire.Api.Stack
import MongoWire.Network

/-!
# Who is authenticated

Clients that log in over their connections, with the bytes on their way and the steps of all parties
in any order. Nobody is authenticated but by a proof on the same connection.
-/

open MongoWire.Lib MongoWire.Lib.Outcome

namespace MongoWire

namespace ScramBridge

variable {crypto : Crypto} {bridge : ScramBridge}

theorem proves_of_run
    (hinner : ∀ command ctx, (bridge.inner.handleCommand command ctx).2.auth = ctx.auth)
    {xs : List (Command × Bytes)} {u : String}
    (h : (run crypto bridge .new xs).auth.authenticated = some u) :
    ∃ before start between continuation after,
      xs = before ++ start :: (between ++ continuation :: after) ∧
      start.1.name = "saslStart" ∧ continuation.1.name = "saslContinue" ∧
      Proves crypto bridge start continuation u := by
  induction xs using List.reverseRecOn with
  | nil => cases h
  | append_singleton xs x ih =>
    rw [run_append, run_singleton] at h
    by_cases hsame : (run crypto bridge .new xs).auth.authenticated = some u
    · obtain ⟨before, start, between, continuation, after, rfl, hproves⟩ := ih hsame
      exact ⟨before, start, between, continuation, after ++ [x], by simp, hproves⟩
    · have hname : x.1.name = "saslContinue" := by
        rcases handleCommand_cases hinner (run crypto bridge .new xs) x with ⟨hkeep, -⟩ |
            ⟨_, _, _, -, -, hauth⟩ | ⟨hname, -⟩
        · exact absurd (hkeep ▸ h) hsame
        · rw [hauth] at h
          exact absurd h hsame
        · exact hname
      obtain ⟨before, start, between, rfl, hstarts, -, hproves⟩ :=
        proves_of_authenticated hinner hname h (.inl hsame)
      exact ⟨before, start, between, x, [], by simp, hstarts.1, hname, hproves⟩

end ScramBridge

namespace Network

variable {crc : Checksum} {build : Build} {config : ServerConfig} {crypto : Crypto}
  {credentials : CredentialSource}

/-- The command that a turn calls its handler with. -/
def Served.called (build : Build) (config : ServerConfig) (t : Served) : Option (Command × Handler) :=
  (Server.asked build config t.arrival).map fun command => (command, t.handler)

def Link.called (build : Build) (config : ServerConfig) (l : Link) : List (Command × Handler) :=
  l.served.filterMap (Served.called build config)

/-- A call of a stack, with the random bytes that it was given. -/
def Drew (crypto : Crypto) (credentials : CredentialSource) (x : Command × Handler)
    (y : Command × Bytes) : Prop :=
  x.1 = y.1 ∧ ∃ stack : Stack, x.2 = stack.handler crypto credentials ∧ stack.random = y.2

/-- The authentication state of a connection is that of the bridge alone, over the commands of this
connection. -/
def Tracks (crypto : Crypto) (credentials : CredentialSource) (build : Build)
    (config : ServerConfig) (served : List Served) (socket : Socket) : Prop :=
  ∃ log, List.Forall₂ (Drew crypto credentials) (served.filterMap (Served.called build config)) log ∧
    socket.ctx.auth = (ScramBridge.run crypto (.alone credentials) .new log).auth

theorem Tracks.turn {served : List Served} {socket : Socket} {t : Served} {stack : Stack}
    (h : Tracks crypto credentials build config served socket)
    (hstack : t.handler = stack.handler crypto credentials) :
    Tracks crypto credentials build config (served ++ [t])
      (processTurn crc build config t socket).2 := by
  obtain ⟨log, hlog, hauth⟩ := h
  have hturn := @Server.auth_processFrame crc build config t.handler t.arrival socket
  unfold Tracks
  rw [List.filterMap_append]
  rcases hasked : Server.asked build config t.arrival with _ | command
  · have hcalled : [t].filterMap (Served.called build config) = [] := by
      simp [Served.called, hasked]
    rw [hasked] at hturn
    exact ⟨log, by rwa [hcalled, List.append_nil], hturn.trans hauth⟩
  · have hcalled : [t].filterMap (Served.called build config) = [(command, t.handler)] := by
      simp [Served.called, hasked]
    rw [hasked] at hturn
    refine ⟨log ++ [(command, stack.random)], ?_, ?_⟩
    · rw [hcalled]
      exact List.rel_append hlog (.cons ⟨rfl, stack, hstack, rfl⟩ .nil)
    · rw [ScramBridge.run_append, ScramBridge.run_singleton]
      refine hturn.trans ?_
      dsimp only
      rw [hstack]
      exact Stack.auth_handler hauth

theorem forall₂_append_cons_right {α β : Type} {R : α → β → Prop} {xs : List α} {front back : List β}
    {y : β} (h : List.Forall₂ R xs (front ++ y :: back)) :
    ∃ before x after, xs = before ++ x :: after ∧ R x y ∧ List.Forall₂ R after back := by
  induction front generalizing xs with
  | nil =>
    obtain ⟨x, after, hx, hafter, rfl⟩ := List.forall₂_cons_right_iff.mp h
    exact ⟨[], x, after, rfl, hx, hafter⟩
  | cons b front ih =>
    obtain ⟨a, rest, -, hrest, rfl⟩ := List.forall₂_cons_right_iff.mp h
    obtain ⟨before, x, after, rfl, hx, hafter⟩ := ih hrest
    exact ⟨a :: before, x, after, rfl, hx, hafter⟩

/-- **Nobody is authenticated without a proof of their own.** Servers that put the bridge in front
of their handler, with one store of credentials, serve any number of connections in any order of
steps. If a connection has an authenticated user, then on this connection, and on no other, its
client asked for a `saslStart` that claims the user and after it for a `saslContinue` that proves
the stored key under the nonce drawn for that very `saslStart`. -/
theorem authenticated_by_own_proof {ι : Type} [DecidableEq ι] (crc : Checksum) (build : Build)
    (config : ServerConfig) (crypto : Crypto) (credentials : CredentialSource)
    (actions : List (ι × Action)) (i : ι)
    (hstacks : ∀ now handler, (i, .serve now handler) ∈ actions →
      ∃ stack : Stack, handler = stack.handler crypto credentials)
    (u : String)
    (hu : (World.run crc build config actions i).socket.ctx.auth.authenticated = some u) :
    ∃ before start between continuation after, ∃ stack : Stack,
      (World.run crc build config actions i).called build config =
        before ++ start :: (between ++ continuation :: after) ∧
      start.1.name = "saslStart" ∧ continuation.1.name = "saslContinue" ∧
      start.2 = stack.handler crypto credentials ∧
      ScramBridge.Proves crypto (.alone credentials) (start.1, stack.random) (continuation.1, []) u := by
  have htracks : Tracks crypto credentials build config (World.run crc build config actions i).served
      (World.run crc build config actions i).socket := by
    refine served_induction ⟨[], .nil, rfl⟩ fun served socket t now hmem h => ?_
    obtain ⟨stack, hstack⟩ := hstacks now t.handler hmem
    exact h.turn hstack
  obtain ⟨log, hlog, hauth⟩ := htracks
  rw [hauth] at hu
  obtain ⟨_, ⟨startCommand, random⟩, _, continuation, _, rfl, hstart, hcontinue, hproves⟩ :=
    ScramBridge.proves_of_run (fun _ _ => rfl) hu
  obtain ⟨before, start, rest, hcalled, ⟨hcommand, stack, hstack, rfl⟩, hrest⟩ :=
    forall₂_append_cons_right hlog
  obtain ⟨between, final, after, rfl, ⟨hfinal, -⟩, -⟩ := forall₂_append_cons_right hrest
  refine ⟨before, start, between, final, after, stack, hcalled, ?_, ?_, hstack, ?_⟩
  · rw [hcommand]
    exact hstart
  · rw [hfinal]
    exact hcontinue
  · rw [hcommand, hfinal]
    exact hproves

/-! The published exchange as two frames on one of two connections. -/

def bridgeStack : Stack where
  inner := Rfc7677.silent
  keeps _ _ := rfl
  compressors := []
  maxMsgLen := 1000
  now := 0
  random := .replicate 18 0

def saslFrame (body : RawDocument) : Bytes :=
  Header.layout ⟨.ofNat (21 + body.bytes.length), 1, 0, .msg⟩ ++ [0, 0, 0, 0, 0] ++ body.bytes

def loginActions : List (Bool × Action) :=
  [(true, .write (saslFrame Rfc7677.start.1.body)), (false, .write [1]), (true, .arrive 500),
    (true, .serve 0 (bridgeStack.handler Rfc7677.crypto Rfc7677.source)),
    (true, .write (saslFrame Rfc7677.continuation.1.body)), (true, .arrive 500),
    (true, .serve 0 (bridgeStack.handler Rfc7677.crypto Rfc7677.source))]

theorem authenticated_by_own_proof_rfc7677 : ∃ start random continuation,
    ScramBridge.Proves Rfc7677.crypto (.alone Rfc7677.source) (start, random) (continuation, [])
      "user" := by
  have hstacks : ∀ now handler, (true, .serve now handler) ∈ loginActions →
      handler = bridgeStack.handler Rfc7677.crypto Rfc7677.source := by
    intro now handler hmem
    simp only [loginActions, List.mem_cons, Prod.mk.injEq, Action.serve.injEq, reduceCtorEq,
      and_false, true_and, false_or, or_false, List.not_mem_nil] at hmem
    rcases hmem with ⟨-, rfl⟩ | ⟨-, rfl⟩ <;> rfl
  obtain ⟨_, start, _, continuation, _, stack, -, -, -, -, hproves⟩ :=
    authenticated_by_own_proof crc32c Server.Sample.build ⟨1000, false, []⟩ Rfc7677.crypto
      Rfc7677.source loginActions true
      (fun now handler hmem => ⟨bridgeStack, hstacks now handler hmem⟩) "user" (by decide +kernel)
  exact ⟨start.1, stack.random, continuation.1, hproves⟩

end Network

end MongoWire
