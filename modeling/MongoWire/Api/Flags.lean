import MongoWire.Api.Turns

/-!
# The flags of a request

What `moreToCome` and `exhaustAllowed` decide, over a whole connection.
-/

open MongoWire.Lib MongoWire.Lib.Outcome MongoWire.Framing

namespace MongoWire.Server

variable {crc : Checksum} {build : Build} {config : ServerConfig} {handler : Handler}
  {arrivals : List Arrival} {t : Turn}

/-! ## Protocol errors -/

def ProtocolFailure (build : Build) (config : ServerConfig) (handler : Handler) (t : Turn)
    (m : OpMsg) : Prop :=
  ∃ header command e ctx,
    Called build config handler t.item t.before.ctx header m command (.error (.protocol e)) ctx

theorem result_of_protocolFailure {m : OpMsg} (ht : t ∈ turns crc build config handler arrivals)
    (h : ProtocolFailure build config handler t m) :
    t.result = if m.flags.contains .moreToCome then .ok () else .err .closed := by
  obtain ⟨header, command, e, ctx, hcalled⟩ := h
  obtain ⟨-, ⟨hmore | hnone, hresult, -⟩ | ⟨hmore, hrest⟩⟩ := (handled_of_mem_turns ht).msg hcalled
  · rw [hresult, if_pos hmore]
  · cases hnone
  · have hnot (reply : OpMsg) : ¬ Answers m (.error (.protocol e)) reply := by
      rintro (h | ⟨_, h, hreply⟩)
      · cases h
      · cases h
        cases hreply
    rw [if_neg (by rw [hmore]; decide)]
    rcases hrest with ⟨reply, _, h, -⟩ | ⟨reply, _, h, -⟩ | ⟨_, -, -, hresult, -⟩
    · exact absurd h (hnot reply)
    · exact absurd h (hnot reply)
    · exact hresult

/-- A protocol error of the handler ends the connection, if and only if no request that asks for
no reply is met with one. -/
theorem protocol_errors_close_iff (crc : Checksum) (build : Build) (config : ServerConfig)
    (handler : Handler) (arrivals : List Arrival) :
    (∀ front t back m, turns crc build config handler arrivals = front ++ t :: back →
      ProtocolFailure build config handler t m →
      back = [] ∧ (processSocket crc build config handler arrivals).1 = .err .closed) ↔
    ∀ t ∈ turns crc build config handler arrivals, ∀ m,
      ProtocolFailure build config handler t m → m.flags.contains .moreToCome = false := by
  constructor
  · intro hclose t ht m hfail
    obtain ⟨front, back, hsplit⟩ := List.append_of_mem ht
    obtain ⟨rfl, hclosed⟩ := hclose front t back m hsplit hfail
    rw [processSocket_of_last hsplit, result_of_protocolFailure ht hfail] at hclosed
    by_contra hmore
    rw [if_pos (by simpa using hmore)] at hclosed
    cases hclosed
  · intro hno front t back m hsplit hfail
    have ht : t ∈ turns crc build config handler arrivals := by rw [hsplit]; simp
    have hresult := result_of_protocolFailure ht hfail
    rw [hno t ht m hfail] at hresult
    have hback : back = [] := by
      by_contra hback
      have hok := Method.isOk_of_not_last hsplit hback
      rw [hresult] at hok
      cases hok
    subst hback
    exact ⟨rfl, by rw [processSocket_of_last hsplit, hresult]; rfl⟩

def Sample.brittle : Handler where
  handleCommand command := .check (if command.flags.contains .moreToCome
    then .err (.protocol (.invalidBody "unusable")) else .ok (.msg ⟨⟨0⟩, ⟨Sample.body, []⟩, none⟩))
  returns command := Method.returns_check (by split <;> trivial)

theorem protocol_error_survived :
    let r := processSocket crc32c Sample.build Sample.config Sample.brittle
      [Sample.ping .moreToCome 7, Sample.ping ⟨0⟩ 8]
    r.1 = .ok () ∧ r.2.calls.map (·.2) = [.error (.protocol (.invalidBody "unusable")),
        .ok (.msg ⟨⟨0⟩, ⟨Sample.body, []⟩, none⟩)] ∧
      r.2.sent.map (·.header.responseTo) = [8] := by
  decide

/-! ## Streaming -/

/-- An `OP_MSG` whose flag bits contain `moreToCome`. -/
def Streams (sent : Sent) : Prop :=
  sent.header.opCode = .msg ∧ (MsgFlags.mk (flagWord sent.bytes)).contains .moreToCome = true

theorem streams_iff {sent : Sent} {requestId responseTo : Int32} {reply : OpMsg}
    (h : sent.Carries requestId responseTo (.msg reply)) :
    Streams sent ↔ reply.flags.contains .moreToCome = true := by
  have hbit : (reply.flags.bits ||| MsgFlag.checksumPresent) &&& MsgFlag.moreToCome =
      reply.flags.bits &&& MsgFlag.moreToCome := by
    rw [MsgFlags.or_and, show MsgFlag.checksumPresent &&& MsgFlag.moreToCome = 0 by decide,
      UInt32.or_zero]
  unfold Streams MsgFlags.contains MsgFlags.moreToCome
  rw [h.opCode_eq]
  rcases h.word with hword | hword
  · rw [hword]
    exact and_iff_right rfl
  · rw [hword, show MessageBody.word (.msg reply) = reply.flags.bits from rfl, hbit]
    exact and_iff_right rfl

theorem Answers.of_streaming {m reply : OpMsg} {outcome : Except Error Reply}
    (h : Answers m outcome reply) (hmore : reply.flags.contains .moreToCome = true) :
    outcome = .ok (.msg reply) := by
  rcases h with h | ⟨e, -, hreply⟩
  · exact h
  · rcases e with _ | ⟨code, codeName, message⟩
    · cases hreply
    · rcases errorReply_command code codeName message m with ⟨raw, hcommand⟩ | hcommand
      · cases hreply.symm.trans hcommand
        have hzero : (MsgFlags.mk 0).contains .moreToCome = false := by decide
        cases hzero.symm.trans hmore
      · cases hreply.symm.trans hcommand

/-- Replies stream only where the request allows it, if and only if the handler sets `moreToCome`
only there. -/
theorem replies_stream_iff (crc : Checksum) (build : Build) (config : ServerConfig)
    (handler : Handler) (arrivals : List Arrival) :
    (∀ t ∈ turns crc build config handler arrivals, ∀ sent ∈ replies t, Streams sent →
      ∃ header m, Requests build config t.item header (.msg m) ∧
        m.flags.contains .exhaustAllowed = true) ↔
    ∀ t ∈ turns crc build config handler arrivals, ∀ header m command reply ctx,
      Called build config handler t.item t.before.ctx header m command (.ok (.msg reply)) ctx →
      m.flags.contains .moreToCome = false → Sendable ctx (.msg reply) →
      reply.flags.contains .moreToCome = true → m.flags.contains .exhaustAllowed = true := by
  constructor
  · intro hallowed t ht header m command reply ctx hcalled hmore hsendable hstream
    obtain ⟨-, sent, hsent, hcarries⟩ :=
      (handled_of_mem_turns ht).sends hcalled hmore (.inl rfl) hsendable
    have hmem : sent ∈ replies t := by rw [replies_eq hsent]; exact List.mem_singleton_self _
    obtain ⟨header', m', hreq, hexhaust⟩ :=
      hallowed t ht sent hmem ((streams_iff hcarries).mpr hstream)
    cases (hreq.unique hcalled.requests).2
    exact hexhaust
  · intro honly t ht sent hmem hstream
    rcases replies_cases (handled_of_mem_turns ht) with hnone | ⟨sent', hone, hwhich⟩
    · rw [hnone] at hmem
      cases hmem
    · rw [hone, List.mem_singleton] at hmem
      subst hmem
      rcases hwhich with ⟨header, q, reply, -, hcarries⟩ |
        ⟨header, m, command, outcome, ctx, reply, hcalled, hmore, hanswer, hsendable, hcarries⟩
      · have hop := hcarries.opCode_eq
        rw [hstream.1] at hop
        cases hop
      · have hflag := (streams_iff hcarries).mp hstream
        rw [hanswer.of_streaming hflag] at hcalled
        exact ⟨header, m, hcalled.requests,
          honly t ht header m command reply ctx hcalled hmore hsendable hflag⟩

theorem unsolicited_stream :
    let r := processSocket crc32c Sample.build Sample.config
      (Sample.always (.ok (.msg ⟨.moreToCome, ⟨Sample.body, []⟩, none⟩)) trivial)
      [Sample.ping ⟨0⟩ 7]
    r.2.sent.map (fun sent => (sent.header.responseTo, sent.header.opCode,
      (MsgFlags.mk (flagWord sent.bytes)).contains .moreToCome)) = [(7, .msg, true)] ∧
    (MsgFlags.mk 0).contains .exhaustAllowed = false := by
  decide +kernel

end MongoWire.Server
