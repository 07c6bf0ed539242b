import MongoWire.Network.Order

/-!
# Every request is answered

A client writes requests that its server can read and has an answer to. However the bytes travel,
and whatever other connections do, the client gets one answer to each of them, and the server goes
on listening.
-/

open MongoWire.Lib MongoWire.Lib.Outcome MongoWire.Framing

namespace MongoWire.Network

/-- A request that expects an answer, as a letter that the server can read. -/
structure Ask (crc : Checksum) (build : Build) (config : ServerConfig) where
  letter : Letter
  /-- What comes out of its frame, decompressed. -/
  msg : OpMsg
  name : String
  unwraps : Ingress.unwrap build config.maxMsgLen (letter.received crc).2 = .ok (.msg msg)
  named : msg.sections.body.command = .ok name
  expects : msg.flags.contains .moreToCome = false
  fits : ((letter.frame crc).length : Int) ≤ config.maxMsgLen.toInt

variable {crc : Checksum} {build : Build} {config : ServerConfig}

namespace Ask

def command (a : Ask crc build config) : Command :=
  ⟨a.name, a.msg.sections.body, a.msg.sections.sequences, a.msg.flags⟩

/-- In every state of the connection, the handler has an answer that can be sent. -/
def AnsweredBy (a : Ask crc build config) (handler : Handler) (P : OpMsg → Prop) : Prop :=
  ∀ ctx, ∃ outcome ctx' reply, handler.handleCommand a.command ctx = (ofExcept outcome, ctx') ∧
    Server.Answers a.msg outcome reply ∧ Server.Sendable ctx' (.msg reply) ∧ P reply

/-- The message carries an answer to the request. -/
def Gets (P : Ask crc build config → OpMsg → Prop) (a : Ask crc build config) (sent : Sent) : Prop :=
  sent.header.responseTo = a.letter.header.requestId ∧ ∃ reply, sent.body = .msg reply ∧ P a reply

theorem gets_processTurn {P : Ask crc build config → OpMsg → Prop} {a : Ask crc build config}
    {handler : Handler} (h : a.AnsweredBy handler (P a)) (now : Int64) (s : Socket) :
    ∃ sent, a.Gets P sent ∧
      (processTurn crc build config ⟨⟨.ok (a.letter.received crc), now⟩, handler⟩ s).1 = .ok () ∧
      (processTurn crc build config ⟨⟨.ok (a.letter.received crc), now⟩, handler⟩ s).2.sent =
        s.sent ++ [sent] := by
  obtain ⟨outcome, ctx', reply, hrun, hanswers, hsendable, hreply⟩ := h s.ctx
  have hcalled : Server.Called build config handler ⟨.ok (a.letter.received crc), now⟩ s.ctx
      (a.letter.received crc).1 a.msg a.command outcome ctx' :=
    ⟨⟨_, rfl, a.unwraps⟩, a.named, rfl, hrun⟩
  obtain ⟨hresult, sent, hsent, hcarries⟩ :=
    (Server.processFrame_handled crc build config handler _ s).sends hcalled a.expects hanswers
      hsendable
  exact ⟨sent, ⟨hcarries.responseTo_eq, reply, hcarries.body_eq, hreply⟩, hresult, hsent⟩

theorem drainAll_asks (asks : List (Ask crc build config)) :
    drainAll (MongoCodec.decode crc ⟨config.maxMsgLen⟩) (asks.flatMap fun a => a.letter.frame crc) =
      ⟨asks.map fun a => a.letter.received crc, .ok []⟩ := by
  have hinc := incremental_decode crc ⟨config.maxMsgLen⟩
  have hcodes := hinc.drainAll_codes (fun a : Ask crc build config => a.letter.parses a.fits) asks []
  rwa [Drained.andThen_ok, hinc.drainAll_of_none (parseMessage_nil crc _), List.append_nil,
    List.append_nil] at hcodes

theorem found_answers {P : Ask crc build config → OpMsg → Prop} {asks : List (Ask crc build config)}
    {sents : List Sent} {found : List (Header × MessageBody)} (hsents : List.Forall₂ (Gets P) asks sents)
    (hfound : List.Forall₂ (fun sent x => x.1 = sent.header ∧ Shows sent.body x.2) sents found) :
    List.Forall₂ (fun a x => x.1.responseTo = a.letter.header.requestId ∧
      ∃ reply, P a reply ∧ Shows (.msg reply) x.2) asks found := by
  induction hsents generalizing found with
  | nil =>
    cases hfound
    exact .nil
  | cons hgets _ ih =>
    obtain _ | ⟨⟨hheader, hshows⟩, hrest⟩ := hfound
    obtain ⟨hto, reply, hbody, hreply⟩ := hgets
    refine .cons ⟨by rw [hheader, hto], reply, hreply, ?_⟩ (ih hrest)
    rwa [← hbody]

end Ask

/-! ## The invariant -/

/-- The server runs, and answered the requests that it took off the stream. -/
structure Answering (asks : List (Ask crc build config)) (P : Ask crc build config → OpMsg → Prop)
    (l : Link) : Prop where
  running : l.result = none
  answered : ∃ done rest, asks = done ++ rest ∧
    l.frames = done.map (fun a => a.letter.received crc) ∧ List.Forall₂ (Ask.Gets P) done l.socket.sent

theorem Link.act_grows (l : Link) (a : Action) : l.written <+: (l.act crc build config a).written ∧
    (l.closed = true → (l.act crc build config a).closed = true) := by
  cases a with
  | write bytes =>
    rw [Link.act, Link.write]
    split
    · exact ⟨List.prefix_rfl, id⟩
    · exact ⟨List.prefix_append _ _, id⟩
  | serve now handler =>
    rcases l.serve_cases now handler with ⟨hsame, -⟩ | ⟨-, ⟨msg, rest, -, hturn⟩ |
        ⟨e, rest, -, hturn⟩ | ⟨-, hend⟩⟩
    · rw [Link.act, hsame]
      exact ⟨List.prefix_rfl, id⟩
    · rw [Link.act, hturn]
      exact ⟨List.prefix_rfl, id⟩
    · rw [Link.act, hturn]
      exact ⟨List.prefix_rfl, id⟩
    · rw [Link.act, hend]
      exact ⟨List.prefix_rfl, id⟩
  | arrive n =>
    rw [Link.act, Link.arrive]
    split <;> exact ⟨List.prefix_rfl, id⟩
  | back n =>
    rw [Link.act, Link.back]
    split <;> exact ⟨List.prefix_rfl, id⟩
  | recv =>
    rcases @Link.recv_cases crc l with ⟨hsame, -⟩ | ⟨-, ⟨msg, rest, -, hrecv⟩ | ⟨e, rest, -, hrecv⟩⟩
    · rw [Link.act, hsame]
      exact ⟨List.prefix_rfl, id⟩
    · rw [Link.act, hrecv]
      exact ⟨List.prefix_rfl, id⟩
    · rw [Link.act, hrecv]
      exact ⟨List.prefix_rfl, id⟩
  | shutdown => exact ⟨List.prefix_rfl, fun _ => rfl⟩

namespace Answering

variable {asks : List (Ask crc build config)} {P : Ask crc build config → OpMsg → Prop} {l : Link}

theorem of_same {l' : Link} (h : Answering asks P l) (hresult : l'.result = l.result)
    (hserved : l'.served = l.served) (hsocket : l'.socket = l.socket) : Answering asks P l' := by
  refine ⟨hresult.trans h.running, ?_⟩
  unfold Link.frames
  rw [hserved, hsocket]
  exact h.answered

section Serve

variable (h : Answering asks P l) (hl : Consistent crc build config l)
  (hwritten : l.written <+: asks.flatMap fun a => a.letter.frame crc)

include h hl hwritten

theorem decode_ne_err (e : ProtocolError) :
    (MongoCodec.decode crc ⟨config.maxMsgLen⟩ l.inbox).1 ≠ .err e := by
  intro herr
  have hinc := incremental_decode crc ⟨config.maxMsgLen⟩
  obtain ⟨later, hlater⟩ := hwritten
  obtain ⟨arrived, hsplit, hreads⟩ := hl.reads h.running
  have hall := hreads (l.uplink ++ later)
  rw [← List.append_assoc, ← hsplit, hlater, Ask.drainAll_asks, Drained.andThen_ok,
    hinc.drainAll_of_err herr] at hall
  cases congrArg Drained.stop hall

theorem next {msg : Header × MessageBody} {rest : Bytes}
    (hdecode : MongoCodec.decode crc ⟨config.maxMsgLen⟩ l.inbox = (.ok (some msg), rest))
    {done todo : List (Ask crc build config)} (hasks : asks = done ++ todo)
    (hframes : l.frames = done.map fun a => a.letter.received crc) :
    ∃ a todo', todo = a :: todo' ∧ msg = a.letter.received crc := by
  have hinc := incremental_decode crc ⟨config.maxMsgLen⟩
  obtain ⟨later, hlater⟩ := hwritten
  obtain ⟨arrived, hsplit, hreads⟩ := hl.reads h.running
  have hfirst := (hreads.take hinc hdecode).first_items.trans (hinc.items_append _ (l.uplink ++ later))
  rw [← List.append_assoc, ← hsplit, hlater, Ask.drainAll_asks, hasks, hframes, List.map_append,
    List.prefix_append_right_inj] at hfirst
  rcases todo with _ | ⟨a, todo⟩
  · exact absurd (List.prefix_nil.mp hfirst) (List.cons_ne_nil _ _)
  · obtain ⟨hmsg, -⟩ := List.cons_prefix_cons.mp hfirst
    exact ⟨a, todo, rfl, hmsg⟩

theorem serve {handler : Handler} (hanswers : ∀ a ∈ asks, a.AnsweredBy handler (P a))
    (hopen : l.closed = false) (now : Int64) :
    Answering asks P (l.serve crc build config now handler) := by
  rcases l.serve_cases now handler with ⟨hsame, -⟩ | ⟨-, ⟨msg, rest, hdecode, hturn⟩ |
      ⟨e, rest, herr | hclosed, -⟩ | ⟨hclosed, -⟩⟩
  · rw [hsame]
    exact h
  · obtain ⟨done, todo, hasks, hframes, hsent⟩ := h.answered
    obtain ⟨a, todo', rfl, rfl⟩ := h.next hl hwritten hdecode hasks hframes
    have hmem : a ∈ asks := by
      rw [hasks]
      exact List.mem_append_right _ List.mem_cons_self
    obtain ⟨sent, hgets, hok, hnew⟩ := Ask.gets_processTurn (hanswers a hmem) now l.socket
    rw [hturn]
    refine ⟨?_, done ++ [a], todo', by rw [hasks, List.append_assoc]; rfl, ?_, ?_⟩
    · exact congrArg (fun r : Outcome Exit Unit => if r.isOk then none else some r) hok
    · refine List.filterMap_append.trans ?_
      rw [List.map_append]
      exact congrArg₂ _ hframes rfl
    · have hall : List.Forall₂ (Ask.Gets P) (done ++ [a]) (l.socket.sent ++ [sent]) :=
        List.rel_append hsent (.cons hgets .nil)
      rw [← hnew] at hall
      exact hall
  · exact absurd herr (h.decode_ne_err hl hwritten e)
  · cases hopen.symm.trans hclosed
  · cases hopen.symm.trans hclosed

end Serve

theorem act (h : Answering asks P l) (hl : Consistent crc build config l)
    (hwritten : l.written <+: asks.flatMap fun a => a.letter.frame crc) (hopen : l.closed = false)
    {x : Action}
    (hanswers : ∀ now handler, x = .serve now handler → ∀ a ∈ asks, a.AnsweredBy handler (P a)) :
    Answering asks P (l.act crc build config x) := by
  cases x with
  | serve now handler => exact h.serve hl hwritten (hanswers now handler rfl) hopen now
  | write bytes =>
    rw [Link.act, Link.write]
    split <;> exact h.of_same rfl rfl rfl
  | arrive n =>
    rw [Link.act, Link.arrive]
    split <;> exact h.of_same rfl rfl rfl
  | back n =>
    rw [Link.act, Link.back]
    split <;> exact h.of_same rfl rfl rfl
  | recv =>
    rcases @Link.recv_cases crc l with ⟨hsame, -⟩ | ⟨-, ⟨msg, rest, -, hrecv⟩ | ⟨e, rest, -, hrecv⟩⟩
    · rw [Link.act, hsame]
      exact h
    · rw [Link.act, hrecv]
      exact h.of_same rfl rfl rfl
    · rw [Link.act, hrecv]
      exact h.of_same rfl rfl rfl
  | shutdown => exact h.of_same rfl rfl rfl

end Answering

theorem answering_run {ι : Type} [DecidableEq ι] {asks : List (Ask crc build config)}
    {P : Ask crc build config → OpMsg → Prop} {actions : List (ι × Action)} {i : ι}
    (hanswers : ∀ now handler, (i, .serve now handler) ∈ actions →
      ∀ a ∈ asks, a.AnsweredBy handler (P a))
    (hwritten : (World.run crc build config actions i).written <+:
      asks.flatMap fun a => a.letter.frame crc)
    (hopen : (World.run crc build config actions i).closed = false) :
    Answering asks P (World.run crc build config actions i) := by
  induction actions using List.reverseRecOn with
  | nil => exact ⟨rfl, [], asks, rfl, rfl, .nil⟩
  | append_singleton actions x ih =>
    have hsofar := ih fun now handler hmem => hanswers now handler (List.mem_append_left _ hmem)
    rw [run_concat] at hwritten hopen ⊢
    split
    · rename_i hi
      rw [if_pos hi] at hwritten hopen
      obtain ⟨hgrows, hcloses⟩ := @Link.act_grows crc build config
        (World.run crc build config actions i) x.2
      have hwritten' := hgrows.trans hwritten
      have hopen' : (World.run crc build config actions i).closed = false := by
        refine Bool.eq_false_iff.mpr fun hclosed => ?_
        cases hopen.symm.trans (hcloses hclosed)
      refine (hsofar hwritten' hopen').act (consistent_run actions i) hwritten' hopen' ?_
      intro now handler hx
      refine hanswers now handler (List.mem_append_right _ (List.mem_singleton.mpr ?_))
      rw [hi, ← hx]
    · rename_i hi
      rw [if_neg hi] at hwritten hopen
      exact hsofar hwritten hopen

theorem Answering.received {asks : List (Ask crc build config)} {P : Ask crc build config → OpMsg → Prop}
    {l : Link} (h : Answering asks P l) (hl : Consistent crc build config l)
    (hreadable : AllReadable crc l.socket)
    (hwritten : l.written = asks.flatMap fun a => a.letter.frame crc) (hrest : AtRest crc config l) :
    List.Forall₂ (fun a x => x.1.responseTo = a.letter.header.requestId ∧
      ∃ reply, P a reply ∧ Shows (.msg reply) x.2) asks l.received := by
  -- The server took every request off the stream.
  obtain ⟨done, todo, hasks, hframes, hsent⟩ := h.answered
  have hall : l.frames = asks.map fun a => a.letter.received crc := by
    rw [hl.frames_at_rest hrest h.running, hwritten, Ask.drainAll_asks]
  have htodo : todo = [] := by
    have hlen := congrArg List.length (hframes.symm.trans hall)
    rw [hasks, List.length_map, List.length_map, List.length_append] at hlen
    exact List.length_eq_zero_iff.mp (by omega)
  obtain ⟨found, hdrain, hfound⟩ := drainAll_replies hreadable
  have hreceived : l.received = found := by
    rw [hl.received_at_rest hrest, Link.replies, hdrain]
  rw [hasks, htodo, List.append_nil, hreceived]
  exact Ask.found_answers hsent hfound

theorem atRest_of_empty {l : Link} (hopen : l.closed = false) (huplink : l.uplink = [])
    (hinbox : l.inbox = []) (hdownlink : l.downlink = []) (hbuf : l.buf = []) :
    AtRest crc config l := by
  refine ⟨fun _ => ⟨huplink, hopen, ?_⟩, fun _ => ⟨hdownlink, ?_⟩⟩
  · rw [hinbox]
    exact parseMessage_nil crc _
  · rw [hbuf]
    exact parseMessage_nil crc _

/-- The request 5 of `pingActions`. -/
def pingAsk : Ask crc32c Server.Sample.build ⟨1000, false, []⟩ where
  letter := ⟨⟨⟨0, 5, 0, .msg⟩, .msg ⟨⟨0⟩, ⟨Server.Sample.body, []⟩, none⟩, false⟩,
    ⟨rfl, by rintro _ ⟨⟩; rfl, by decide, nofun⟩, by decide⟩
  msg := ⟨⟨0⟩, ⟨Server.Sample.body, []⟩, none⟩
  name := "ping"
  unwraps := rfl
  named := by decide
  expects := rfl
  fits := by decide

theorem pingAsk_answeredBy : pingAsk.AnsweredBy Server.Sample.pong
    fun reply => reply.sections.body = OpMsg.emptyDocument := by
  intro ctx
  refine ⟨.ok (.msg ⟨⟨0⟩, ⟨OpMsg.emptyDocument, []⟩, none⟩), ctx, _, rfl, .inl rfl, ⟨?_, ?_⟩, rfl⟩
  · cases Server.signs ctx (.msg ⟨⟨0⟩, ⟨OpMsg.emptyDocument, []⟩, none⟩) <;> decide
  · exact fun h => Bool.false_ne_true h.2

/-- **A request returns its answer.** A client calls `request` on a fresh connection. Once the server
took the request, in whatever pieces it came, `request` returns the handler's answer, in whatever
pieces that comes back. None of its assertions fails. -/
theorem request_returns_answer {ι : Type} [DecidableEq ι] (crc : Checksum) (build : Build)
    (config : ServerConfig) (a : Ask crc build config) (P : OpMsg → Prop)
    (actions : List (ι × Action)) (i : ι)
    (hhandlers : ∀ now handler, (i, .serve now handler) ∈ actions →
      handler.Plain ∧ a.AnsweredBy handler P)
    (hto : a.letter.header.responseTo = 0) (hunsigned : a.letter.checksum = false)
    (hwritten : (World.run crc build config actions i).written = a.letter.frame crc)
    (hopen : (World.run crc build config actions i).closed = false)
    (hserved : (World.run crc build config actions i).frames ≠ [])
    (peer : Bytes → List Bytes) (hlive : TestClient.Live (peer (a.letter.frame crc)))
    (hpeer : (peer (a.letter.frame crc)).flatten = (World.run crc build config actions i).replies) :
    ∃ found reply, (TestClient.request crc peer a.letter.body
        (a.letter.header.requestId, ⟨[], []⟩)).1 = .ok found ∧
      P reply ∧ Shows (.msg reply) found.2 := by
  have hanswering : Answering [a] (fun _ => P) (World.run crc build config actions i) := by
    refine answering_run ?_ ?_ hopen
    · intro now handler hmem b hb
      rw [List.mem_singleton.mp hb]
      exact (hhandlers now handler hmem).2
    · rw [hwritten, List.flatMap_cons, List.flatMap_nil, List.append_nil]
  have hreadable : AllReadable crc (World.run crc build config actions i).socket :=
    allReadable_run fun now handler hmem => (hhandlers now handler hmem).1
  -- The server took the request, so that what it wrote is the answer.
  obtain ⟨done, todo, hasks, hframes, hsent⟩ := hanswering.answered
  obtain rfl : done = [a] := by
    rcases done with _ | ⟨b, done⟩
    · exact absurd hframes hserved
    · obtain ⟨rfl, hnil⟩ := List.cons.inj hasks
      rw [(List.append_eq_nil_iff.mp hnil.symm).1]
  obtain ⟨found, hdrain, hfound⟩ := drainAll_replies hreadable
  have hall := Ask.found_answers hsent hfound
  obtain _ | ⟨⟨hid, reply, hreply, hshows⟩, hrest⟩ := hall
  cases hrest
  rw [Link.replies] at hpeer
  rw [← hpeer] at hdrain
  exact ⟨_, reply, TestClient.request_eq hto hunsigned hlive hdrain hid, hreply, hshows⟩

/-- What the server of `pingActions` sends back, in two pieces. -/
def pongChunks : List Bytes :=
  let bytes := (World.run crc32c Server.Sample.build ⟨1000, false, []⟩ pingActions true).replies
  [bytes.take 10, bytes.drop 10]

theorem request_returns_answer_ping :
    ∃ found reply, (TestClient.request crc32c (fun _ => pongChunks) pingAsk.letter.body
        (5, ⟨[], []⟩)).1 = .ok found ∧
      reply.sections.body = OpMsg.emptyDocument ∧ Shows (.msg reply) found.2 := by
  have hlast : (World.run crc32c Server.Sample.build ⟨1000, false, []⟩ pingActions true).written =
        pingFrame ∧
      (World.run crc32c Server.Sample.build ⟨1000, false, []⟩ pingActions true).closed = false ∧
      (World.run crc32c Server.Sample.build ⟨1000, false, []⟩ pingActions true).frames ≠ [] ∧
      ∀ chunk ∈ pongChunks, chunk ≠ [] := by decide +kernel
  obtain ⟨hwritten, hopen, hserved, hlive⟩ := hlast
  refine request_returns_answer crc32c Server.Sample.build ⟨1000, false, []⟩ pingAsk
    (fun reply => reply.sections.body = OpMsg.emptyDocument) pingActions true ?_ rfl rfl hwritten
    hopen hserved (fun _ => pongChunks) hlive ?_
  · intro now handler hmem
    rw [mem_pingActions hmem]
    exact ⟨Server.Sample.plain_pong, pingAsk_answeredBy⟩
  · simp [pongChunks]

end MongoWire.Network
