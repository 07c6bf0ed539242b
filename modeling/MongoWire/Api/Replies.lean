import MongoWire.Api.Turns

/-!
# Replies and requests

Which reply belongs to which request, over a whole connection, and what ends the
connection.
-/

open MongoWire.Lib MongoWire.Lib.Outcome MongoWire.Framing

namespace MongoWire.Server

variable {crc : Checksum} {build : Build} {config : ServerConfig} {handler : Handler}
  {arrivals : List Arrival} {t : Turn}

/-! ## Request ids -/

/-- The `k`-th frame carries the request id `k`, which wraps. -/
def IdsInOrder (sents : List Sent) : Prop :=
  ∀ (k : Nat) (sent : Sent), sents[k]? = some sent → sent.header.requestId = Int32.ofNat k

/-- The counter has counted the replies, and each reply carries its number. -/
structure Numbered (s : Socket) : Prop where
  counter : s.ctx.requestIdCounter = Int32.ofNat s.sent.length
  ids : IdsInOrder s.sent

theorem IdsInOrder.concat {sents : List Sent} {sent : Sent} (h : IdsInOrder sents)
    (hlast : sent.header.requestId = Int32.ofNat sents.length) : IdsInOrder (sents ++ [sent]) := by
  intro k x hx
  rcases Nat.lt_trichotomy k sents.length with hlt | rfl | hgt
  · rw [List.getElem?_append_left hlt] at hx
    exact h k x hx
  · rw [List.getElem?_concat_length, Option.some.injEq] at hx
    rw [← hx, hlast]
  · rw [List.getElem?_eq_none (by simp; omega)] at hx
    cases hx

section Ids

variable (hcounter : ∀ command ctx,
  (handler.handleCommand command ctx).2.requestIdCounter = ctx.requestIdCounter)

include hcounter

theorem Called.counter_eq {arrival : Arrival} {ctx ctx' : ConnectionInfo} {header : Header}
    {m : OpMsg} {command : Command} {outcome : Except Error Reply}
    (h : Called build config handler arrival ctx header m command outcome ctx') :
    ctx'.requestIdCounter = ctx.requestIdCounter := by
  have hrun := hcounter command ctx
  rw [h.run_eq] at hrun
  exact hrun

theorem Handled.ids {arrival : Arrival} {s s' : Socket} {result : Outcome Exit Unit}
    (h : Handled build config handler arrival s result s') (hs : Numbered s) :
    IdsInOrder s'.sent := by
  rcases h with _ | _ | _ | _ | ⟨_, _, _, _, _, sent, _, _, _, hsent⟩ | _ | _ | _ |
    ⟨_, _, _, _, _, _, sent, h, _, _, _, hsent⟩ | _ | _
  case answeredQuery =>
    exact hs.ids.concat (hsent.requestId_eq.trans hs.counter)
  case answered =>
    exact hs.ids.concat (hsent.requestId_eq.trans ((h.counter_eq hcounter).trans hs.counter))
  all_goals exact hs.ids

end Ids

/-! ## Requests and their replies -/

/-- The reply to a command error with these texts fits into a frame. -/
def ErrorFits (ctx : ConnectionInfo) (codeName message : String) : Prop :=
  (utf8 message).length + (utf8 codeName).length + 91 + (if ctx.checksum then 4 else 0) ≤ maxMsgLen

theorem ErrorFits.exists_reply {ctx : ConnectionInfo} {codeName message : String}
    (h : ErrorFits ctx codeName message) (code : Int32) (m : OpMsg) :
    ∃ reply, errorReply (.command code codeName message) (.msg m) = .ok (some (.msg reply)) ∧
      Sendable ctx (.msg reply) := by
  have hsmall : (utf8 message).length + (utf8 codeName).length + 70 < 2 ^ 31 := by
    unfold ErrorFits maxMsgLen at h
    omega
  obtain ⟨reply, hreply⟩ := @exists_errorReply code codeName message hsmall m
  exact ⟨reply, hreply, (sendable_errorReply hreply ctx hsmall).mpr h⟩

/-- What one request gets, and how often the handler is called for it. -/
structure Corresponds (build : Build) (config : ServerConfig) (handler : Handler) (t : Turn) :
    Prop where
  /-- One reply at most, which names this request. -/
  addressed : replies t = [] ∨ ∃ sent header body, replies t = [sent] ∧
    Requests build config t.item header body ∧ sent.header.responseTo = header.requestId ∧
    sent.bytes.take msgHeaderLen = sent.header.layout
  query : ∀ header q, Requests build config t.item header (.query q) → calls t = [] ∧
    (t.result = .ok () → ∃ sent, replies t = [sent] ∧ sent.header.opCode = .reply)
  reply : ∀ header r, Requests build config t.item header (.reply r) →
    calls t = [] ∧ replies t = [] ∧ t.result = .ok ()
  /-- The handler is called once, with the state that the turn found. -/
  called : ∀ header m name, Requests build config t.item header (.msg m) →
    m.sections.body.command = .ok name → ∃ command outcome ctx, command.name = name ∧
      Called build config handler t.item t.before.ctx header m command outcome ctx ∧
      calls t = [(command, outcome)]
  silent : ∀ header m command outcome ctx,
    Called build config handler t.item t.before.ctx header m command outcome ctx →
    m.flags.contains .moreToCome = true ∨ outcome = .ok .noReply →
    replies t = [] ∧ t.result = .ok ()
  /-- A message of the handler is sent, if it can be encoded. -/
  message : ∀ header m command reply ctx,
    Called build config handler t.item t.before.ctx header m command (.ok (.msg reply)) ctx →
    m.flags.contains .moreToCome = false → Sendable ctx (.msg reply) →
    t.result = .ok () ∧ ∃ sent, replies t = [sent] ∧ sent.header.opCode = .msg ∧
      sent.body = .msg reply
  /-- A command error is reported, if its texts leave room for the rest of the frame. -/
  commandError : ∀ header m command code codeName message ctx,
    Called build config handler t.item t.before.ctx header m command
      (.error (.command code codeName message)) ctx →
    m.flags.contains .moreToCome = false →
    ErrorFits ctx codeName message →
    t.result = .ok () ∧ ∃ sent, replies t = [sent] ∧ sent.header.opCode = .msg

theorem Handled.corresponds (h : Handled build config handler t.item t.before t.result t.after) :
    Corresponds build config handler t where
  addressed := by
    rcases replies_cases h with hnone | ⟨sent, hone, ⟨header, q, reply, hreq, hcarries⟩ |
      ⟨header, m, command, outcome, ctx, reply, hcalled, -, -, -, hcarries⟩⟩
    · exact .inl hnone
    · exact .inr ⟨sent, header, _, hone, hreq, hcarries.responseTo_eq, hcarries.header_layout⟩
    · exact .inr ⟨sent, header, _, hone, hcalled.requests, hcarries.responseTo_eq,
        hcarries.header_layout⟩
  query header q hreq := by
    obtain ⟨hcalls, hanswer⟩ := h.query hreq
    refine ⟨calls_eq (by rw [hcalls, List.append_nil]), fun hok => ?_⟩
    obtain ⟨sent, reply, hsent, hcarries⟩ := hanswer hok
    exact ⟨sent, replies_eq hsent, hcarries.opCode_eq⟩
  reply header r hreq := by
    obtain ⟨hresult, hsame⟩ := h.reply hreq
    exact ⟨calls_eq (by rw [hsame, List.append_nil]), replies_eq (by rw [hsame, List.append_nil]),
      hresult⟩
  called header m name hreq hname := by
    obtain ⟨outcome, ctx, hrun⟩ := exists_handlerRun handler
      ⟨name, m.sections.body, m.sections.sequences, m.flags⟩ t.before.ctx
    have hcalled : Called build config handler t.item t.before.ctx header m _ outcome ctx :=
      ⟨hreq, hname, rfl, hrun⟩
    exact ⟨_, outcome, ctx, rfl, hcalled, calls_eq (h.msg hcalled).1⟩
  silent header m command outcome ctx hcalled hsilent := by
    obtain ⟨-, ⟨-, hresult, hsent⟩ | ⟨hmore, hrest⟩⟩ := h.msg hcalled
    · exact ⟨replies_eq (by rw [hsent, List.append_nil]), hresult⟩
    · rcases hsilent with hmore' | rfl
      · cases hmore.symm.trans hmore'
      · rcases hrest with ⟨reply, _, hanswer, -⟩ | ⟨reply, _, hanswer, -⟩ | ⟨_, h, -⟩
        · exact absurd hanswer (not_answers_noReply m reply)
        · exact absurd hanswer (not_answers_noReply m reply)
        · cases h
  message header m command reply ctx hcalled hmore hsendable := by
    obtain ⟨hresult, sent, hsent, hcarries⟩ := h.sends hcalled hmore (.inl rfl) hsendable
    exact ⟨hresult, sent, replies_eq hsent, hcarries.opCode_eq, hcarries.body_eq⟩
  commandError header m command code codeName message ctx hcalled hmore hfits := by
    obtain ⟨reply, hreply, hsendable⟩ := hfits.exists_reply code m
    obtain ⟨hresult, sent, hsent, hcarries⟩ :=
      h.sends hcalled hmore (.inr ⟨_, rfl, hreply⟩) hsendable
    exact ⟨hresult, sent, replies_eq hsent, hcarries.opCode_eq⟩

namespace Sample

end Sample

end MongoWire.Server
