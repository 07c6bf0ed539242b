import MongoWire.Api.Turns
import MongoWire.Client
import MongoWire.Lib.Preserves

/-!
# Replies as a client reads them

A reply that `send_reply` wrote is a frame that the client takes for what it is, if its body reads
back at all. The replies of `process_socket` itself do; those of a handler are up to the handler.
-/

open MongoWire.Lib MongoWire.Lib.Outcome MongoWire.Framing

namespace MongoWire

/-- A body without a checksum that reads back, if it is not too large. -/
structure MessageBody.Plain (b : MessageBody) : Prop where
  unsigned : ∀ m, b = .msg m → m.checksum = none
  parses : b.bodyLen < maxMsgLen → parseBody b.opcode (b.encodeBody []) = .ok b

/-- The handler answers in messages that read back. -/
def Handler.Plain (handler : Handler) : Prop :=
  ∀ command ctx reply, (handler.handleCommand command ctx).1 = .ok (.msg reply) →
    MessageBody.Plain (.msg reply)

/-- The frame of a letter, as the socket records it. -/
def Sent.Readable (crc : Checksum) (sent : Sent) : Prop :=
  ∃ x : Letter, sent.header = (x.received crc).1 ∧ sent.body = x.body ∧ sent.bytes = x.frame crc

/-! ## The replies of the loop -/

theorem plain_opMsg {raw : RawDocument} (hframed : Framed raw.bytes) :
    MessageBody.Plain (.msg ⟨⟨0⟩, ⟨raw, []⟩, none⟩) := by
  refine ⟨by rintro _ ⟨⟩; rfl, fun hlen => ?_⟩
  have hshort : raw.bytes.length < 2 ^ 31 := by
    simp only [MessageBody.bodyLen, OpMsg.bodyLen, Sections.size, maxMsgLen, List.foldl_nil] at hlen
    omega
  have hparsed : OpMsg.ParsedFrom 0 ⟨⟨0⟩, ⟨raw, []⟩, none⟩ :=
    ⟨by decide, rfl, ⟨fun h => absurd h Bool.false_ne_true, fun h => absurd rfl h⟩,
      ⟨hframed, hshort⟩, List.forall_mem_nil _, List.forall_mem_nil _, fun h => absurd rfl h⟩
  rw [MessageBody.encodeBody_eq, List.nil_append]
  exact (MessageBody.parseBody_eq_ok _ _ _).mpr ⟨rfl, 0, hparsed, rfl⟩

/-- A handler that answers everything with an empty document. -/
def Server.Sample.pong : Handler :=
  always (.ok (.msg ⟨⟨0⟩, ⟨OpMsg.emptyDocument, []⟩, none⟩)) trivial

theorem Server.Sample.plain_pong : pong.Plain := by
  rintro command ctx reply ⟨⟩
  exact plain_opMsg (by decide)

theorem plain_opReply {r : OpReply} (h : r.WellFormed) : MessageBody.Plain (.reply r) := by
  refine ⟨nofun, fun hlen => ?_⟩
  have hreadable := h.readable hlen
  rw [MessageBody.encodeBody_eq, List.nil_append]
  exact (MessageBody.parseBody_eq_ok _ _ _).mpr ⟨rfl, _, ⟨h.flags.truncate, hreadable⟩, rfl⟩

theorem plain_queryReply {raw : RawDocument} (hframed : Framed raw.bytes) {flags : ReplyFlags}
    (hflags : flags.Known) :
    MessageBody.Plain (.reply { queryHandshakeReply raw with responseFlags := flags }) := by
  refine plain_opReply ⟨hflags, rfl, ?_⟩
  rintro d hd
  rw [List.mem_singleton.mp hd]
  exact hframed

theorem framed_of_encode {d : Document} {raw : RawDocument} (h : d.encode = .ok raw) :
    Framed raw.bytes := by
  obtain ⟨henc, hbytes⟩ := (Document.encode_eq_ok _ _).mp h
  rw [hbytes]
  exact Document.framed_layout henc

theorem reply_framed {d : Document} {reply : OpMsg}
    (h : (do opMsg ⟨0⟩ (← mapErr bsonError d.encode)) = .ok reply) :
    ∃ raw : RawDocument, Framed raw.bytes ∧ reply = ⟨⟨0⟩, ⟨raw, []⟩, none⟩ := by
  simp only [bind_eq_ok, mapErr_eq_ok, opMsg_eq, ok.injEq] at h
  obtain ⟨raw, hraw, rfl⟩ := h
  exact ⟨raw, framed_of_encode hraw, rfl⟩

theorem plain_reply {d : Document} {reply : OpMsg}
    (h : (do opMsg ⟨0⟩ (← mapErr bsonError d.encode)) = .ok reply) :
    MessageBody.Plain (.msg reply) := by
  obtain ⟨raw, hframed, rfl⟩ := reply_framed h
  exact plain_opMsg hframed

theorem plain_errorReply {e : Error} {request reply : MessageBody}
    (h : Server.errorReply e request = .ok (some reply)) : reply.Plain := by
  unfold Server.errorReply at h
  split at h
  · cases h
  · obtain ⟨o, ho, h⟩ := (bind_eq_ok _ _ _).mp h
    split at h
    · cases h
    · rw [toOption_eq_some] at ho
      have hframed := framed_of_encode ho
      split at h
      · have hflags : ReplyFlags.Known ⟨ReplyFlag.awaitCapable ||| ReplyFlag.queryFailure⟩ := by
          decide
        cases h
        exact plain_queryReply hframed hflags
      · rw [opMsg_eq] at h
        cases h
        exact plain_opMsg hframed

/-! ## Every reply on the wire -/

/-- What was sent so far can be read. -/
def AllReadable (crc : Checksum) (s : Socket) : Prop := ∀ sent ∈ s.sent, sent.Readable crc

variable {crc : Checksum}

theorem readable_encoded {ctx : ConnectionInfo} {responseTo : Int32} {body : MessageBody}
    (hbody : body.Plain) (hok : (Server.encoded crc ctx responseTo body).result = .ok ()) :
    Sent.Readable crc ⟨(Server.encoded crc ctx responseTo body).header, body,
      (Server.encoded crc ctx responseTo body).out⟩ := by
  let o : Outgoing := ⟨⟨0, ctx.requestIdCounter, responseTo, body.opcode⟩, body, Server.signs ctx body⟩
  have hfits : total body (Server.signs ctx body) ≤ maxMsgLen := by
    refine Nat.not_lt.mp fun hlarge => ?_
    obtain ⟨e, he⟩ := encodeMessage_tooLarge crc o.header [] body _ hlarge
    rw [Server.encoded, he] at hok
    cases hok
  have hlen : body.bodyLen < maxMsgLen := by
    simp only [total, msgHeaderLen] at hfits
    omega
  have ho : o.Sendable := by
    refine ⟨rfl, hbody.unsigned, hbody.parses hlen, fun hsigns => ?_⟩
    rcases body with _ | _ | _ | _
    · rfl
    all_goals cases hsigns
  have hencode : o.encode crc [] = _ := (ho.delivers hfits).appends []
  exact ⟨⟨o, ho, hfits⟩, congrArg Encoded.header hencode, rfl, rfl⟩

namespace Server

open Method

/-- Every body that a connection with this handler may send has the property. -/
structure Sends (config : ServerConfig) (handler : Handler) (Q : MessageBody → Prop) : Prop where
  notFound : ∀ q reply, errorReply commandNotFound (.query q) = .ok (some reply) → Q reply
  handshake : ∀ compressors now reply,
    handshakeReply compressors config.maxMsgLen true now = .ok reply →
    Q (.reply (queryHandshakeReply reply.sections.body))
  answer : ∀ command ctx reply, (handler.handleCommand command ctx).1 = .ok (.msg reply) →
    Q (.msg reply)
  error : ∀ e m reply, errorReply e (.msg m) = .ok (some reply) → Q reply

/-- Everything that was sent so far has the property. -/
def AllSent (P : Sent → Prop) (s : Socket) : Prop := ∀ sent ∈ s.sent, P sent

section Sent

variable {Q : MessageBody → Prop} {P : Sent → Prop} {config : ServerConfig} {handler : Handler}

theorem preserves_callHandler (handler : Handler) (command : Command) :
    Preserves (AllSent P) (callHandler handler command) := by
  intro s hs
  obtain ⟨outcome, ctx, hrun⟩ := exists_handlerRun handler command s.ctx
  rw [callHandler_eq hrun]
  exact hs

variable
  (hsent : ∀ ctx responseTo body, Q body → (encoded crc ctx responseTo body).result = .ok () →
    P ⟨(encoded crc ctx responseTo body).header, body, (encoded crc ctx responseTo body).out⟩)

include hsent

theorem preserves_sendReply (responseTo : Int32) {body : MessageBody} (hbody : Q body) :
    Preserves (AllSent P) (sendReply crc responseTo body) := by
  intro s hs
  rw [sendReply_eq]
  refine (show Preserves (AllSent P) _ from preserves_check_bind fun _ hok => ?_) _ hs
  refine preserves_modify fun s' hs' => ?_
  rw [mapErr_eq_ok] at hok
  exact List.forall_mem_append.mpr ⟨hs', List.forall_mem_singleton.mpr (hsent _ _ _ hbody hok)⟩

variable (hsends : Sends config handler Q)

include hsends

theorem preserves_processQuery (now : Int64) (header : Header) (q : OpQuery) :
    Preserves (AllSent P) (processQuery crc config now header q) := by
  unfold processQuery
  refine preserves_check_bind fun name _ => ?_
  split
  · refine preserves_check_bind fun o ho => ?_
    rcases o with _ | reply
    · exact preserves_pure ()
    · exact preserves_sendReply hsent _ (hsends.notFound q reply ho)
  · refine preserves_check_bind fun requested _ => ?_
    refine preserves_modify_bind (fun s hs => hs) ?_
    refine preserves_check_bind fun reply hreply => ?_
    exact preserves_sendReply hsent _ (hsends.handshake _ _ _ ((mapErr_eq_ok ..).mp hreply))

theorem preserves_processMsg (header : Header) (m : OpMsg) :
    Preserves (AllSent P) (processMsg crc handler header m) := by
  unfold processMsg
  refine preserves_check_bind fun name _ => ?_
  refine (preserves_callHandler handler _).bind_of fun s outcome s' hs' hcall => ?_
  split
  · exact hs'
  · obtain ⟨outcome', ctx, hrun⟩ := exists_handlerRun handler
      ⟨name, m.sections.body, m.sections.sequences, m.flags⟩ s.ctx
    cases (callHandler_eq hrun).symm.trans hcall
    rcases outcome with e | reply | _
    · refine (show Preserves (AllSent P) _ from preserves_check_bind fun o ho => ?_) _ hs'
      rcases o with _ | reply
      · exact preserves_check _
      · exact preserves_sendReply hsent _ (hsends.error e m reply ho)
    · have hreply := hsends.answer _ _ reply (congrArg Prod.fst hrun)
      exact preserves_sendReply hsent _ hreply _ hs'
    · exact hs'

theorem preserves_processFrame (build : Build) (arrival : Arrival) :
    Preserves (AllSent P) (processFrame crc build config handler arrival) := by
  unfold processFrame
  split
  · exact preserves_check _
  · refine preserves_check_bind fun body _ => ?_
    rcases body with m | q | _ | _
    · exact preserves_processMsg hsent hsends _ m
    · exact preserves_processQuery hsent hsends _ _ q
    · exact preserves_pure ()
    · exact preserves_check _

end Sent

theorem sends_plain (config : ServerConfig) {handler : Handler} (hhandler : handler.Plain) :
    Sends config handler MessageBody.Plain where
  notFound _ _ h := plain_errorReply h
  handshake compressors now reply h := by
    obtain ⟨raw, hframed, rfl⟩ := reply_framed h
    have hflags : ReplyFlags.Known ⟨ReplyFlag.awaitCapable⟩ := by decide
    exact plain_queryReply hframed hflags
  answer := hhandler
  error _ _ _ h := plain_errorReply h

theorem allReadable_processFrame (build : Build) (config : ServerConfig) {handler : Handler}
    (hhandler : handler.Plain) (arrival : Arrival) :
    Preserves (AllReadable crc) (processFrame crc build config handler arrival) :=
  preserves_processFrame (fun _ _ _ => readable_encoded) (sends_plain config hhandler) build arrival

end Server

end MongoWire
