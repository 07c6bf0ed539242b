import MongoWire.Api.Readable
import MongoWire.Api.Stack

/-!
# Handlers around handlers

`BuiltinHandler` and `ScramBridge` answer a few commands and pass on the rest. What they answer can
be read like what they pass on.
-/

open MongoWire.Lib MongoWire.Lib.Outcome

namespace MongoWire

variable {crypto : Crypto}

/-! ## What they answer -/

namespace ScramBridge

variable {bridge : ScramBridge} {random : Bytes}

theorem plain_of_saslReply {id : Int32} {done : Bool} {payload : String} {reply : OpMsg}
    (h : (saslReply id done payload >>= fun m => .ok (.msg m)) = (.ok (.msg reply) : Outcome Error Reply)) :
    MessageBody.Plain (.msg reply) := by
  simp only [bind_eq_ok, ok.injEq, Reply.msg.injEq, exists_eq_right] at h
  exact plain_reply h

theorem plain_handler (hinner : bridge.inner.Plain) : (bridge.handler crypto random).Plain := by
  intro command ctx reply h
  replace h : (handleCommand crypto bridge random command ctx).1 = .ok (.msg reply) := h
  unfold handleCommand at h
  split at h
  · rcases saslStart_cases crypto bridge random command.body ctx with ⟨-, hfail⟩ |
        ⟨_, _, _, -, -, hrun⟩
    · exact absurd h (hfail _)
    · rw [hrun] at h
      exact plain_of_saslReply h
  · split at h
    · rcases saslContinue_cases crypto command.body ctx with ⟨-, -, hfail⟩ |
          ⟨_, -, ⟨-, hfail⟩ | ⟨_, _, _, -, hrun⟩⟩
      · exact absurd h (hfail _)
      · exact absurd h (hfail _)
      · rw [hrun] at h
        exact plain_of_saslReply h
    · exact hinner command ctx reply h

end ScramBridge

namespace BuiltinHandler

variable {builtin : BuiltinHandler} {now : Int64}

theorem plain_handler (hinner : builtin.inner.Plain) : (builtin.handler now).Plain := by
  intro command ctx reply h
  replace h : (builtin.handleCommand now command ctx).1 = .ok (.msg reply) := h
  unfold handleCommand at h
  split at h
  · obtain ⟨requested, hrequested⟩ := Server.exists_requestedCompressors command.body
    rw [hrequested, Method.check_ok_bind, Method.modify_bind, Method.check_bind_pure] at h
    simp only [bind_eq_ok, ok.injEq, Reply.msg.injEq, exists_eq_right] at h
    exact plain_reply h
  · split at h
    · rw [Method.check_bind_pure] at h
      simp only [bind_eq_ok, ok.injEq, Reply.msg.injEq, exists_eq_right] at h
      exact plain_reply h
    · exact hinner command ctx reply h

end BuiltinHandler

/-- **Wrapping a handler keeps its replies readable.** -/
theorem Stack.replies_read_back (crypto : Crypto) (credentials : CredentialSource) (stack : Stack)
    (hinner : stack.inner.Plain) : (stack.handler crypto credentials).Plain :=
  BuiltinHandler.plain_handler (ScramBridge.plain_handler hinner)

/-- A stack around a handler that answers everything. -/
def Server.Sample.stack : Stack where
  inner := pong
  keeps _ _ := rfl
  compressors := [.snappy]
  maxMsgLen := 1000
  now := 0
  random := []

theorem Stack.replies_read_back_pong :
    (Server.Sample.stack.handler Rfc7677.crypto Rfc7677.source).Plain :=
  Stack.replies_read_back Rfc7677.crypto Rfc7677.source Server.Sample.stack Server.Sample.plain_pong

end MongoWire
