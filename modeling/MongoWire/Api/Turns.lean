import MongoWire.Api.ServerSpec

/-!
# The turns of a connection

What a turn of the loop does, read off the kind of request that it found.
-/

open MongoWire.Lib MongoWire.Lib.Outcome MongoWire.Framing

namespace MongoWire.Server

/-! ## Sample traffic -/

namespace Sample

def body : RawDocument :=
  .ofFramed [15, 0, 0, 0, 16, 112, 105, 110, 103, 0, 1, 0, 0, 0, 0] (by decide)

def ping (flags : MsgFlags) (requestId : Int32) : Arrival where
  frame := .ok (⟨36, requestId, 0, .msg⟩, .msg ⟨flags, ⟨body, []⟩, none⟩)
  now := 0

def build : Build := ⟨none, none, none⟩

def config : ServerConfig := ⟨.ofNat maxMsgLen, true, []⟩

def always (outcome : Outcome Error Reply) (h : outcome.Returns) : Handler :=
  ⟨fun _ => .check outcome, fun _ => Method.returns_check h⟩

end Sample

/-! ## Turns -/

abbrev Turn := Method.Turn Exit Socket Arrival

def replies (t : Turn) : List Sent := t.after.sent.drop t.before.sent.length

def calls (t : Turn) : List (Command × Except Error Reply) :=
  t.after.calls.drop t.before.calls.length

def turns (crc : Checksum) (build : Build) (config : ServerConfig) (handler : Handler)
    (arrivals : List Arrival) : List Turn :=
  Method.turns (processFrame crc build config handler) arrivals (.new config)

variable {crc : Checksum} {build : Build} {config : ServerConfig} {handler : Handler}
  {arrivals : List Arrival} {t : Turn}

theorem handled_of_mem_turns (h : t ∈ turns crc build config handler arrivals) :
    Handled build config handler t.item t.before t.result t.after := by
  have hturn := processFrame_handled crc build config handler t.item t.before
  rw [Method.run_of_mem_turns h] at hturn
  exact hturn

theorem processSocket_of_last {front : List Turn}
    (h : turns crc build config handler arrivals = front ++ [t]) :
    processSocket crc build config handler arrivals = (t.result, t.after) := by
  unfold processSocket
  unfold turns at h
  rw [Method.forEach_eq, h, List.getLast?_concat]
  rfl

/-! ## One turn -/

theorem Requests.unique {arrival : Arrival} {header header' : Header} {body body' : MessageBody}
    (h : Requests build config arrival header body)
    (h' : Requests build config arrival header' body') : header = header' ∧ body = body' := by
  obtain ⟨wire, hframe, hunwrap⟩ := h
  obtain ⟨wire', hframe', hunwrap'⟩ := h'
  rw [hframe, Except.ok.injEq, Prod.mk.injEq] at hframe'
  obtain ⟨rfl, rfl⟩ := hframe'
  rw [hunwrap, ok.injEq] at hunwrap'
  exact ⟨rfl, hunwrap'⟩

theorem Called.unique {arrival : Arrival} {ctx : ConnectionInfo} {header header' : Header}
    {m m' : OpMsg} {command command' : Command} {outcome outcome' : Except Error Reply}
    {after after' : ConnectionInfo}
    (h : Called build config handler arrival ctx header m command outcome after)
    (h' : Called build config handler arrival ctx header' m' command' outcome' after') :
    header = header' ∧ m = m' ∧ command = command' ∧ outcome = outcome' ∧ after = after' := by
  obtain ⟨rfl, hbody⟩ := h.requests.unique h'.requests
  cases hbody
  have hname : command.name = command'.name := ok.inj (h.name_eq.symm.trans h'.name_eq)
  have hcommand : command = command' := by rw [h.command_eq, h'.command_eq, hname]
  subst hcommand
  have hrun := h.run_eq.symm.trans h'.run_eq
  obtain ⟨houtcome, rfl⟩ := Prod.mk.inj hrun
  refine ⟨rfl, rfl, rfl, ?_, rfl⟩
  rcases outcome with _ | _ <;> rcases outcome' with _ | _
  all_goals cases houtcome
  all_goals rfl

theorem Answers.unique {m reply reply' : OpMsg} {outcome : Except Error Reply}
    (h : Answers m outcome reply) (h' : Answers m outcome reply') : reply = reply' := by
  rcases h with rfl | ⟨e, rfl, hreply⟩
  · rcases h' with h' | ⟨_, h', -⟩
    · cases h'
      rfl
    · cases h'
  · rcases h' with h' | ⟨_, h', hreply'⟩
    · cases h'
    · cases h'
      cases hreply.symm.trans hreply'
      rfl

theorem not_answers_noReply (m reply : OpMsg) : ¬ Answers m (.ok .noReply) reply := by
  rintro (h | ⟨_, h, -⟩)
  · cases h
  · cases h

theorem Handled.appends (h : Handled build config handler t.item t.before t.result t.after) :
    t.after.sent = t.before.sent ++ replies t ∧ t.after.calls = t.before.calls ++ calls t := by
  unfold replies calls
  generalize t.result = result at h
  generalize t.after = after at h ⊢
  rcases h with _ | _ | _ | _ | _ | _ | _ | _ | _ | _ | _
  all_goals simp

section Kinds

variable {header : Header} {result : Outcome Exit Unit} {arrival : Arrival} {s s' : Socket}

theorem Requests.decodes {body : MessageBody} (h : Requests build config arrival header body)
    {e : ProtocolError} : arrival.frame ≠ .error e := by
  obtain ⟨wire, hframe, -⟩ := h
  rw [hframe]
  nofun

theorem Requests.unwraps {body wire : MessageBody} {header' : Header}
    (h : Requests build config arrival header body) (hframe : arrival.frame = .ok (header', wire))
    {e : ProtocolError} : Ingress.unwrap build config.maxMsgLen wire ≠ .err e := by
  obtain ⟨wire', hframe', hunwrap⟩ := h
  rw [hframe, Except.ok.injEq, Prod.mk.injEq] at hframe'
  rw [hframe'.2, hunwrap]
  nofun

theorem Handled.query {q : OpQuery} (h : Handled build config handler arrival s result s')
    (hreq : Requests build config arrival header (.query q)) :
    s'.calls = s.calls ∧ (result = .ok () → ∃ sent reply, s'.sent = s.sent ++ [sent] ∧
      sent.Carries s.ctx.requestIdCounter header.requestId (.reply reply)) := by
  rcases h with ⟨e, hframe⟩ | ⟨_, wire, e, hframe, hunwrap⟩ | ⟨_, r, h⟩ | _ |
    ⟨_, _, _, reply, ctx, sent, h, _, _, hsent⟩ | _ | ⟨_, _, _, h, _⟩ | ⟨_, _, _, _, _, h, _⟩ |
    ⟨_, _, _, _, _, _, _, h, _⟩ | ⟨_, _, _, _, _, _, _, h, _⟩ | ⟨_, _, _, _, _, h, _⟩
  · exact absurd hframe hreq.decodes
  · exact absurd hunwrap (hreq.unwraps hframe)
  · cases (hreq.unique h).2
  · exact ⟨rfl, nofun⟩
  · obtain ⟨rfl, -⟩ := hreq.unique h
    exact ⟨rfl, fun _ => ⟨sent, reply, rfl, hsent⟩⟩
  · exact ⟨rfl, nofun⟩
  · cases (hreq.unique h).2
  all_goals cases (hreq.unique h.requests).2

theorem Handled.reply {r : OpReply} (h : Handled build config handler arrival s result s')
    (hreq : Requests build config arrival header (.reply r)) : result = .ok () ∧ s' = s := by
  rcases h with ⟨e, hframe⟩ | ⟨_, wire, e, hframe, hunwrap⟩ | _ | ⟨_, _, _, h, _⟩ |
    ⟨_, _, _, _, _, _, h, _⟩ | ⟨_, _, _, _, _, h, _⟩ | ⟨_, _, _, h, _⟩ | ⟨_, _, _, _, _, h, _⟩ |
    ⟨_, _, _, _, _, _, _, h, _⟩ | ⟨_, _, _, _, _, _, _, h, _⟩ | ⟨_, _, _, _, _, h, _⟩
  · exact absurd hframe hreq.decodes
  · exact absurd hunwrap (hreq.unwraps hframe)
  · exact ⟨rfl, rfl⟩
  · cases (hreq.unique h).2
  · cases (hreq.unique h).2
  · cases (hreq.unique h).2
  · cases (hreq.unique h).2
  all_goals cases (hreq.unique h.requests).2

theorem Handled.msg {m : OpMsg} {command : Command} {outcome : Except Error Reply}
    {ctx : ConnectionInfo} (h : Handled build config handler arrival s result s')
    (hcalled : Called build config handler arrival s.ctx header m command outcome ctx) :
    s'.calls = s.calls ++ [(command, outcome)] ∧
    ((m.flags.contains .moreToCome = true ∨ outcome = .ok .noReply) ∧
        result = .ok () ∧ s'.sent = s.sent ∨
      m.flags.contains .moreToCome = false ∧ ((∃ reply sent, Answers m outcome reply ∧
          Sendable ctx (.msg reply) ∧
          sent.Carries ctx.requestIdCounter header.requestId (.msg reply) ∧
          result = .ok () ∧ s'.sent = s.sent ++ [sent]) ∨
        (∃ reply e, Answers m outcome reply ∧ ¬ Sendable ctx (.msg reply) ∧
          result = .err (.invalidData e) ∧ s'.sent = s.sent) ∨
        ∃ e, outcome = .error e ∧ errorReply e (.msg m) = .ok none ∧
          result = .err .closed ∧ s'.sent = s.sent)) := by
  have hreq := hcalled.requests
  rcases h with ⟨e, hframe⟩ | ⟨_, wire, e, hframe, hunwrap⟩ | ⟨_, _, h⟩ | ⟨_, _, _, h, _⟩ |
    ⟨_, _, _, _, _, _, h, _⟩ | ⟨_, _, _, _, _, h, _⟩ | ⟨_, _, _, h, hname⟩ |
    ⟨_, _, _, _, _, h, hsilent⟩ | ⟨_, _, _, _, _, reply, sent, h, hmore, hanswer, hsendable, hsent⟩ |
    ⟨_, _, _, _, _, reply, e, h, hmore, hanswer, hsendable⟩ | ⟨_, _, _, e, _, h, hmore, hreply⟩
  -- The arrival holds an `OP_MSG` with a command name, which leaves the last four.
  · exact absurd hframe hreq.decodes
  · exact absurd hunwrap (hreq.unwraps hframe)
  · cases (hreq.unique h).2
  · cases (hreq.unique h).2
  · cases (hreq.unique h).2
  · cases (hreq.unique h).2
  · cases (hreq.unique h).2
    cases hname.symm.trans hcalled.name_eq
  · obtain ⟨rfl, rfl, rfl, rfl, rfl⟩ := h.unique hcalled
    exact ⟨rfl, .inl ⟨hsilent, rfl, rfl⟩⟩
  · obtain ⟨rfl, rfl, rfl, rfl, rfl⟩ := h.unique hcalled
    exact ⟨rfl, .inr ⟨hmore, .inl ⟨reply, sent, hanswer, hsendable, hsent, rfl, rfl⟩⟩⟩
  · obtain ⟨rfl, rfl, rfl, rfl, rfl⟩ := h.unique hcalled
    exact ⟨rfl, .inr ⟨hmore, .inr (.inl ⟨reply, e, hanswer, hsendable, rfl, rfl⟩)⟩⟩
  · obtain ⟨rfl, rfl, rfl, rfl, rfl⟩ := h.unique hcalled
    exact ⟨rfl, .inr ⟨hmore, .inr (.inr ⟨e, rfl, hreply, rfl, rfl⟩)⟩⟩

theorem Handled.answers {m reply : OpMsg} {command : Command} {outcome : Except Error Reply}
    {ctx : ConnectionInfo} (h : Handled build config handler arrival s result s')
    (hcalled : Called build config handler arrival s.ctx header m command outcome ctx)
    (hmore : m.flags.contains .moreToCome = false) (hanswer : Answers m outcome reply) :
    (Sendable ctx (.msg reply) ∧ result = .ok () ∧ ∃ sent, s'.sent = s.sent ++ [sent] ∧
        sent.Carries ctx.requestIdCounter header.requestId (.msg reply)) ∨
      ¬ Sendable ctx (.msg reply) ∧ (∃ e, result = .err (.invalidData e)) ∧ s'.sent = s.sent := by
  obtain ⟨-, ⟨hmore' | rfl, -⟩ | ⟨-, hrest⟩⟩ := h.msg hcalled
  · cases hmore.symm.trans hmore'
  · exact absurd hanswer (not_answers_noReply m reply)
  · rcases hrest with ⟨reply', sent, hanswer', hsendable, hcarries, hresult, hsent⟩ |
      ⟨reply', e, hanswer', hsendable, hresult, hsent⟩ | ⟨e, rfl, hnone, -⟩
    · obtain rfl := hanswer.unique hanswer'
      exact .inl ⟨hsendable, hresult, sent, hsent, hcarries⟩
    · obtain rfl := hanswer.unique hanswer'
      exact .inr ⟨hsendable, ⟨e, hresult⟩, hsent⟩
    · rcases hanswer with h | ⟨_, h, hreply⟩
      · cases h
      · cases h
        cases hreply.symm.trans hnone

theorem Handled.sends {m reply : OpMsg} {command : Command} {outcome : Except Error Reply}
    {ctx : ConnectionInfo} (h : Handled build config handler arrival s result s')
    (hcalled : Called build config handler arrival s.ctx header m command outcome ctx)
    (hmore : m.flags.contains .moreToCome = false) (hanswer : Answers m outcome reply)
    (hsendable : Sendable ctx (.msg reply)) :
    result = .ok () ∧ ∃ sent, s'.sent = s.sent ++ [sent] ∧
      sent.Carries ctx.requestIdCounter header.requestId (.msg reply) := by
  rcases h.answers hcalled hmore hanswer with ⟨-, hsent⟩ | ⟨hunsendable, -⟩
  · exact hsent
  · exact absurd hsendable hunsendable

end Kinds

theorem replies_eq {new : List Sent} (h : t.after.sent = t.before.sent ++ new) :
    replies t = new := by
  unfold replies
  rw [h, List.drop_left]

theorem calls_eq {new : List (Command × Except Error Reply)}
    (h : t.after.calls = t.before.calls ++ new) : calls t = new := by
  unfold calls
  rw [h, List.drop_left]

theorem replies_cases (h : Handled build config handler t.item t.before t.result t.after) :
    replies t = [] ∨ ∃ sent, replies t = [sent] ∧
      ((∃ header q reply, Requests build config t.item header (.query q) ∧
        sent.Carries t.before.ctx.requestIdCounter header.requestId (.reply reply)) ∨
      ∃ header m command outcome ctx reply,
        Called build config handler t.item t.before.ctx header m command outcome ctx ∧
        m.flags.contains .moreToCome = false ∧ Answers m outcome reply ∧
        Sendable ctx (.msg reply) ∧
        sent.Carries ctx.requestIdCounter header.requestId (.msg reply)) := by
  unfold replies
  generalize t.result = result at h
  generalize t.after = after at h ⊢
  rcases h with _ | _ | _ | _ | ⟨header, q, _, reply, ctx, sent, h, _, _, hsent⟩ | _ | _ | _ |
    ⟨header, m, command, outcome, ctx, reply, sent, h, hmore, hanswer, hsendable, hsent⟩ | _ | _
  case answeredQuery => exact .inr ⟨sent, List.drop_left, .inl ⟨header, q, reply, h, hsent⟩⟩
  case answered =>
    exact .inr ⟨sent, List.drop_left,
      .inr ⟨header, m, command, outcome, ctx, reply, h, hmore, hanswer, hsendable, hsent⟩⟩
  all_goals exact .inl List.drop_length

end MongoWire.Server
