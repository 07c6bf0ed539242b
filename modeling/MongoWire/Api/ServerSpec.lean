import MongoWire.Api.Server

/-!
# One turn of the connection loop

What a reply looks like on the wire, and everything that one arrival can do.
-/

open MongoWire.Lib MongoWire.Lib.Outcome MongoWire.Framing

namespace MongoWire

/-! ## Replies on the wire -/

/-- The frame is the reply `body` under these ids. Its flag word is the body's, but for the checksum
bit. -/
structure Sent.Carries (sent : Sent) (requestId responseTo : Int32) (body : MessageBody) : Prop where
  requestId_eq : sent.header.requestId = requestId
  responseTo_eq : sent.header.responseTo = responseTo
  opCode_eq : sent.header.opCode = body.opcode
  body_eq : sent.body = body
  header_layout : sent.bytes.take msgHeaderLen = sent.header.layout
  word : flagWord sent.bytes = body.word ∨
    flagWord sent.bytes = body.word ||| MsgFlag.checksumPresent

namespace Server

variable {crc : Checksum} {build : Build} {config : ServerConfig} {handler : Handler}

def carriesChecksum : MessageBody → Bool
  | .msg m => m.checksum.isSome
  | _ => false

/-- The reply fits into a frame, and has no checksum yet if it is to get one. -/
def Sendable (ctx : ConnectionInfo) (body : MessageBody) : Prop :=
  total body (signs ctx body) ≤ maxMsgLen ∧ ¬ (signs ctx body = true ∧ carriesChecksum body = true)

theorem take_frameLayout (h : Header) (w : UInt32) (b : MessageBody) :
    (frameLayout h w b).take msgHeaderLen = h.layout :=
  List.take_left' (Header.length_layout h)

def encoded (crc : Checksum) (ctx : ConnectionInfo) (responseTo : Int32) (body : MessageBody) :
    Encoded :=
  encodeMessage crc ⟨0, ctx.requestIdCounter, responseTo, body.opcode⟩ body (signs ctx body) []

def drawn (ctx : ConnectionInfo) : ConnectionInfo :=
  { ctx with requestIdCounter := ctx.requestIdCounter + 1 }

section Send

variable {ctx : ConnectionInfo} {body : MessageBody}

theorem encoded_sendable (h : Sendable ctx body) (responseTo : Int32) :
    (encoded crc ctx responseTo body).result = .ok () ∧
      Sent.Carries ⟨(encoded crc ctx responseTo body).header, body,
        (encoded crc ctx responseTo body).out⟩ ctx.requestIdCounter responseTo body := by
  obtain ⟨hfits, hplain⟩ := h
  unfold encoded
  by_cases hsigns : signs ctx body = true
  · rw [hsigns] at hfits ⊢
    obtain ⟨m, rfl⟩ : ∃ m, body = .msg m := by
      rcases body with m | _ | _ | _
      · exact ⟨m, rfl⟩
      all_goals cases hsigns
    have hm : m.checksum = none := by
      rcases hc : m.checksum with _ | c
      · rfl
      · exact absurd ⟨hsigns, by simp [carriesChecksum, hc]⟩ hplain
    rw [encodeMessage_signed crc _ [] hm hfits, List.nil_append]
    exact ⟨rfl, rfl, rfl, rfl, rfl, take_frameLayout _ _ _, .inr (flagWord_frameLayout _ _ _)⟩
  · rw [Bool.not_eq_true] at hsigns
    rw [hsigns] at hfits ⊢
    rw [encodeMessage_plain crc _ [] body hfits, List.nil_append]
    exact ⟨rfl, rfl, rfl, rfl, rfl, take_frameLayout _ _ _, .inl (flagWord_frameLayout _ _ _)⟩

theorem encoded_unsendable (h : ¬ Sendable ctx body) (responseTo : Int32) :
    ∃ e, (encoded crc ctx responseTo body).result = .err e := by
  unfold encoded
  by_cases hfits : total body (signs ctx body) ≤ maxMsgLen
  · obtain ⟨hsigns, hcarries⟩ := not_not.mp (not_and.mp h hfits)
    rw [hsigns] at hfits ⊢
    rcases body with m | _ | _ | _
    · rw [encodeMessage_of_fits crc _ [] _ true hfits]
      have hsome : m.checksum.isSome = true := hcarries
      simp [appendChecksum, hsome, Encoded.finish]
    all_goals cases hsigns
  · obtain ⟨e, he⟩ := encodeMessage_tooLarge crc _ [] body (signs ctx body) (by omega)
    exact ⟨e, congrArg Encoded.result he⟩

theorem sendReply_eq (responseTo : Int32) (body : MessageBody) (s : Socket) :
    sendReply crc responseTo body s =
      (Method.check (mapErr (fun e => .invalidData (.protocol e))
        (encoded crc s.ctx responseTo body).result) >>= fun _ => .modify fun t =>
          { t with sent := t.sent ++ [⟨(encoded crc s.ctx responseTo body).header, body,
            (encoded crc s.ctx responseTo body).out⟩] }) (s.setCtx (drawn s.ctx)) := by
  unfold encoded
  rw [show signs s.ctx body = signs (drawn s.ctx) body by cases body <;> rfl]
  rfl

end Send

section Replies

variable {s : Socket} {body : MessageBody}

theorem sendReply_sendable (h : Sendable s.ctx body) (responseTo : Int32) :
    ∃ sent : Sent, sent.Carries s.ctx.requestIdCounter responseTo body ∧
      sendReply crc responseTo body s = (.ok (), ⟨drawn s.ctx, s.calls, s.sent ++ [sent]⟩) := by
  obtain ⟨hresult, hcarries⟩ := @encoded_sendable crc _ _ h responseTo
  refine ⟨_, hcarries, ?_⟩
  rw [sendReply_eq, hresult]
  rfl

theorem sendReply_unsendable (h : ¬ Sendable s.ctx body) (responseTo : Int32) :
    ∃ e, sendReply crc responseTo body s =
      (.err (.invalidData e), ⟨drawn s.ctx, s.calls, s.sent⟩) := by
  obtain ⟨e, he⟩ := @encoded_unsendable crc _ _ h responseTo
  refine ⟨.protocol e, ?_⟩
  rw [sendReply_eq, he]
  rfl

end Replies

/-! ## Errors -/

theorem encode_errorDoc {code : Int32} {codeName message : String}
    (h : (utf8 message).length + (utf8 codeName).length + 70 < 2 ^ 31) :
    ∃ doc raw, (Error.command code codeName message).toErrorResponseDoc = some doc ∧
      doc.encode = .ok raw ∧
      raw.bytes.length = (utf8 message).length + (utf8 codeName).length + 70 := by
  have hnames : (utf8 "ok").length = 2 ∧ (utf8 "errmsg").length = 6 ∧ (utf8 "code").length = 4 ∧
      (utf8 "codeName").length = 8 ∧ (utf8 "$db").length = 3 ∧ (utf8 "admin").length = 5 := by
    decide
  have hnul : 0 ∉ utf8 "ok" ∧ 0 ∉ utf8 "errmsg" ∧ 0 ∉ utf8 "code" ∧ 0 ∉ utf8 "codeName" ∧
      0 ∉ utf8 "$db" := by decide
  have hlen : (Document.layout ⟨[⟨"ok", Error.zero⟩, ⟨"errmsg", .string message⟩,
      ⟨"code", .int32 code⟩, ⟨"codeName", .string codeName⟩, ⟨"$db", .string "admin"⟩]⟩).length =
      (utf8 message).length + (utf8 codeName).length + 70 := by
    simp only [Document.layout, fieldsLayout, Bson.layout, Error.zero, Bson.asScalar, length_frame,
      List.length_append, length_elemLayout]
    simp [hnames, Scalar.layout]
    omega
  have henc : Document.Encodable ⟨[⟨"ok", Error.zero⟩, ⟨"errmsg", .string message⟩,
      ⟨"code", .int32 code⟩, ⟨"codeName", .string codeName⟩, ⟨"$db", .string "admin"⟩]⟩ := by
    refine ⟨by rw [Document.layout] at hlen; omega, ?_⟩
    simp [FieldsEncodable, Bson.Encodable, Error.zero, Bson.asScalar, Scalar.Fits, hnul, hnames]
    omega
  obtain ⟨raw, hraw, hbytes⟩ := Document.exists_encode henc
  exact ⟨_, raw, rfl, hraw, by rw [hbytes, hlen]⟩

theorem errorReply_command (code : Int32) (codeName message : String) (m : OpMsg) :
    (∃ raw, errorReply (.command code codeName message) (.msg m) =
      .ok (some (.msg ⟨⟨0⟩, ⟨raw, []⟩, none⟩))) ∨
    errorReply (.command code codeName message) (.msg m) = .ok none := by
  unfold errorReply Error.toErrorResponseDoc
  dsimp only
  generalize hd : (Document.mk _).encode = x
  have hreturns : x.Returns := hd ▸ Document.returns_encode _
  rcases x with raw | e | _ | _
  · refine .inl ⟨raw, ?_⟩
    simp only [toOption, ok_bind, opMsg_eq]
    rfl
  · exact .inr rfl
  all_goals exact absurd hreturns id

theorem sendable_errorReply {code : Int32} {codeName message : String} {m reply : OpMsg}
    (h : errorReply (.command code codeName message) (.msg m) = .ok (some (.msg reply)))
    (ctx : ConnectionInfo)
    (hfits : (utf8 message).length + (utf8 codeName).length + 70 < 2 ^ 31) :
    Sendable ctx (.msg reply) ↔ (utf8 message).length + (utf8 codeName).length + 91 +
      (if ctx.checksum then 4 else 0) ≤ maxMsgLen := by
  obtain ⟨doc, raw, hdoc, hraw, hlen⟩ := @encode_errorDoc code codeName message hfits
  unfold errorReply at h
  rw [hdoc] at h
  simp only [hraw, toOption, ok_bind, opMsg_eq, Option.map_some, pure_eq, ok.injEq,
    Option.some.injEq, MessageBody.msg.injEq] at h
  subst h
  have htotal : total (.msg ⟨MsgFlags.difference ⟨0⟩ .checksumPresent, ⟨raw, []⟩, none⟩)
      ctx.checksum = (utf8 message).length + (utf8 codeName).length + 91 +
        (if ctx.checksum then 4 else 0) := by
    simp [total, MessageBody.bodyLen, OpMsg.bodyLen, Sections.size, msgHeaderLen, hlen]
    omega
  unfold Sendable
  rw [show signs ctx _ = ctx.checksum from rfl, htotal]
  simp [carriesChecksum]

theorem exists_errorReply {code : Int32} {codeName message : String}
    (h : (utf8 message).length + (utf8 codeName).length + 70 < 2 ^ 31) (m : OpMsg) :
    ∃ reply, errorReply (.command code codeName message) (.msg m) = .ok (some (.msg reply)) := by
  obtain ⟨doc, raw, hdoc, hraw, -⟩ := @encode_errorDoc code codeName message h
  unfold errorReply
  rw [hdoc]
  simp only [hraw, toOption, ok_bind, opMsg_eq]
  exact ⟨_, rfl⟩

theorem errorReply_cases (e : Error) (m : OpMsg) :
    (∃ reply, errorReply e (.msg m) = .ok (some (.msg reply))) ∨
      errorReply e (.msg m) = .ok none := by
  rcases e with _ | ⟨code, codeName, message⟩
  · exact .inr rfl
  · rcases errorReply_command code codeName message m with ⟨raw, hreply⟩ | hreply
    · exact .inl ⟨_, hreply⟩
    · exact .inr hreply

theorem errorReply_commandNotFound (q : OpQuery) :
    ∃ reply, errorReply commandNotFound (.query q) = .ok (some (.reply reply)) ∧
      ∀ ctx, Sendable ctx (.reply reply) := by
  have htexts : (utf8 "OP_QUERY only supports hello/isMaster").length +
      (utf8 "CommandNotFound").length = 52 := by decide
  obtain ⟨doc, raw, hdoc, hraw, hlen⟩ := @encode_errorDoc 59 "CommandNotFound"
    "OP_QUERY only supports hello/isMaster" (by rw [htexts]; decide)
  rw [htexts] at hlen
  unfold errorReply commandNotFound
  rw [hdoc]
  simp only [hraw, toOption, ok_bind, pure_eq]
  refine ⟨_, rfl, fun ctx => ⟨?_, by simp [signs]⟩⟩
  simp [signs, total, MessageBody.bodyLen, OpReply.bodyLen, queryHandshakeReply, documentsLen, hlen,
    msgHeaderLen, maxMsgLen]

/-! ## Everything that an arrival can do -/

/-- The request that an arrival holds, decompressed. -/
def Requests (build : Build) (config : ServerConfig) (arrival : Arrival) (header : Header)
    (body : MessageBody) : Prop :=
  ∃ wire, arrival.frame = .ok (header, wire) ∧
    Ingress.unwrap build config.maxMsgLen wire = .ok body

structure Called (build : Build) (config : ServerConfig) (handler : Handler) (arrival : Arrival)
    (ctx : ConnectionInfo) (header : Header) (m : OpMsg) (command : Command)
    (outcome : Except Error Reply) (ctx' : ConnectionInfo) : Prop where
  requests : Requests build config arrival header (.msg m)
  name_eq : m.sections.body.command = .ok command.name
  command_eq : command = ⟨command.name, m.sections.body, m.sections.sequences, m.flags⟩
  run_eq : handler.handleCommand command ctx = (ofExcept outcome, ctx')

/-- The answer that the outcome of a handler asks for. -/
def Answers (m : OpMsg) (outcome : Except Error Reply) (reply : OpMsg) : Prop :=
  outcome = .ok (.msg reply) ∨
    ∃ e, outcome = .error e ∧ errorReply e (.msg m) = .ok (some (.msg reply))

/-- What a turn that finds the socket `s` returns and leaves behind. -/
inductive Handled (build : Build) (config : ServerConfig) (handler : Handler) (arrival : Arrival)
    (s : Socket) : Outcome Exit Unit → Socket → Prop
  | undecodable (e : ProtocolError) (h : arrival.frame = .error e) :
    Handled build config handler arrival s (.err .closed) s
  | undecompressed (header : Header) (wire : MessageBody) (e : ProtocolError)
    (h : arrival.frame = .ok (header, wire))
    (hunwrap : Ingress.unwrap build config.maxMsgLen wire = .err e) :
    Handled build config handler arrival s (.err .closed) s
  | ignored (header : Header) (r : OpReply) (h : Requests build config arrival header (.reply r)) :
    Handled build config handler arrival s (.ok ()) s
  | unnamedQuery (header : Header) (q : OpQuery) (e : BsonError)
    (h : Requests build config arrival header (.query q)) (hname : q.query.command = .err e) :
    Handled build config handler arrival s (.err .closed) s
  | answeredQuery (header : Header) (q : OpQuery) (name : String) (reply : OpReply)
    (ctx : ConnectionInfo) (sent : Sent)
    (h : Requests build config arrival header (.query q)) (hname : q.query.command = .ok name)
    (hctx : ctx.requestIdCounter = s.ctx.requestIdCounter)
    (hsent : sent.Carries s.ctx.requestIdCounter header.requestId (.reply reply)) :
    Handled build config handler arrival s (.ok ()) ⟨drawn ctx, s.calls, s.sent ++ [sent]⟩
  | unanswerableQuery (header : Header) (q : OpQuery) (name : String) (e : Error)
    (ctx : ConnectionInfo)
    (h : Requests build config arrival header (.query q)) (hname : q.query.command = .ok name)
    (hhandshake : isHandshake name = true)
    (hreply : ∀ reply requested, requestedCompressors q.query = .ok requested →
      handshakeReply (negotiate config.compressors requested) config.maxMsgLen true arrival.now =
        .ok reply → ¬ Sendable s.ctx (.reply (queryHandshakeReply reply.sections.body))) :
    Handled build config handler arrival s (.err (.invalidData e)) ⟨ctx, s.calls, s.sent⟩
  | unnamedMsg (header : Header) (m : OpMsg) (e : BsonError)
    (h : Requests build config arrival header (.msg m)) (hname : m.sections.body.command = .err e) :
    Handled build config handler arrival s (.err .closed) s
  | unanswered (header : Header) (m : OpMsg) (command : Command) (outcome : Except Error Reply)
    (ctx : ConnectionInfo)
    (h : Called build config handler arrival s.ctx header m command outcome ctx)
    (hsilent : m.flags.contains .moreToCome = true ∨ outcome = .ok .noReply) :
    Handled build config handler arrival s (.ok ()) ⟨ctx, s.calls ++ [(command, outcome)], s.sent⟩
  | answered (header : Header) (m : OpMsg) (command : Command) (outcome : Except Error Reply)
    (ctx : ConnectionInfo) (reply : OpMsg) (sent : Sent)
    (h : Called build config handler arrival s.ctx header m command outcome ctx)
    (hmore : m.flags.contains .moreToCome = false) (hanswer : Answers m outcome reply)
    (hsendable : Sendable ctx (.msg reply))
    (hsent : sent.Carries ctx.requestIdCounter header.requestId (.msg reply)) :
    Handled build config handler arrival s (.ok ())
      ⟨drawn ctx, s.calls ++ [(command, outcome)], s.sent ++ [sent]⟩
  | unsendable (header : Header) (m : OpMsg) (command : Command) (outcome : Except Error Reply)
    (ctx : ConnectionInfo) (reply : OpMsg) (e : Error)
    (h : Called build config handler arrival s.ctx header m command outcome ctx)
    (hmore : m.flags.contains .moreToCome = false) (hanswer : Answers m outcome reply)
    (hsendable : ¬ Sendable ctx (.msg reply)) :
    Handled build config handler arrival s (.err (.invalidData e))
      ⟨drawn ctx, s.calls ++ [(command, outcome)], s.sent⟩
  | aborted (header : Header) (m : OpMsg) (command : Command) (e : Error) (ctx : ConnectionInfo)
    (h : Called build config handler arrival s.ctx header m command (.error e) ctx)
    (hmore : m.flags.contains .moreToCome = false)
    (hreply : errorReply e (.msg m) = .ok none) :
    Handled build config handler arrival s (.err .closed)
      ⟨ctx, s.calls ++ [(command, .error e)], s.sent⟩

/-! ## The arrival's turn -/

theorem exists_requestedCompressors (body : RawDocument) :
    ∃ requested, requestedCompressors body = .ok requested := by
  have hget : ∃ o, (toOption (body.get "compression") : Outcome Error _) = .ok o :=
    (RawDocument.returns_get body "compression").exists_toOption
  obtain ⟨value, hget⟩ := hget
  unfold requestedCompressors
  rw [hget, ok_bind]
  split
  · rename_i names
    have harray : ∃ o, (toOption names.shallow : Outcome Error _) = .ok o :=
      (RawArray.returns_decode names .shallow).exists_toOption
    obtain ⟨array, harray⟩ := harray
    rw [harray, ok_bind]
    split
    · exact ⟨_, rfl⟩
    · exact ⟨_, rfl⟩
  · exact ⟨_, rfl⟩

theorem handshakeReply_cases (compressors : List CompressorId) (maxMsgLen : Int32)
    (legacyIsMaster : Bool) (now : Int64) :
    (∃ reply, handshakeReply compressors maxMsgLen legacyIsMaster now = .ok reply) ∨
      ∃ b, handshakeReply compressors maxMsgLen legacyIsMaster now = .err (bsonError b) := by
  unfold handshakeReply
  generalize hd : (handshakeDoc compressors maxMsgLen legacyIsMaster now).encode = x
  have hreturns : x.Returns := by
    rw [← hd]
    exact Document.returns_encode _
  rcases x with raw | e | _ | _
  · exact .inl ⟨_, opMsg_eq _ _⟩
  · exact .inr ⟨_, rfl⟩
  all_goals exact absurd hreturns id

theorem unwrap_ne_compressed {maxMsgLen : Int32} {wire : MessageBody} {c : OpCompressed} :
    Ingress.unwrap build maxMsgLen wire ≠ .ok (.compressed c) := by
  intro h
  rcases wire with _ | _ | _ | z
  · cases h
  · cases h
  · cases h
  · obtain ⟨-, hnested, -, hop, -⟩ := (OpCompressed.unwrapBody_eq_ok ..).mp h
    exact hnested hop

theorem exists_handlerRun (handler : Handler) (command : Command) (ctx : ConnectionInfo) :
    ∃ outcome ctx', handler.handleCommand command ctx = (ofExcept outcome, ctx') := by
  have hreturns := handler.returns command ctx
  rcases hrun : handler.handleCommand command ctx with ⟨reply | e | _ | _, ctx'⟩
  · exact ⟨.ok reply, ctx', rfl⟩
  · exact ⟨.error e, ctx', rfl⟩
  all_goals
    rw [hrun] at hreturns
    exact absurd hreturns id

theorem callHandler_eq {command : Command} {s : Socket} {outcome : Except Error Reply}
    {ctx : ConnectionInfo} (h : handler.handleCommand command s.ctx = (ofExcept outcome, ctx)) :
    callHandler handler command s =
      (.ok outcome, ⟨ctx, s.calls ++ [(command, outcome)], s.sent⟩) := by
  have hattempt : ((handler.handleCommand command).attempt : Method Exit _ _) s.ctx =
      (.ok outcome, ctx) := by
    unfold Method.attempt
    rw [h]
    rcases outcome with e | reply <;> rfl
  have hzoom : ((handler.handleCommand command).attempt.zoom Socket.ctx Socket.setCtx :
      Method Exit _ _) s = (.ok outcome, s.setCtx ctx) := by
    unfold Method.zoom
    rw [hattempt]
  unfold callHandler
  rw [Method.bind_of_ok hzoom]
  rfl

section Turns

variable {arrival : Arrival} {s : Socket} {header : Header}

theorem sendReply_handled (crc : Checksum) {m reply : OpMsg} {command : Command}
    {outcome : Except Error Reply} {ctx : ConnectionInfo}
    (h : Called build config handler arrival s.ctx header m command outcome ctx)
    (hmore : m.flags.contains .moreToCome = false) (hanswer : Answers m outcome reply) :
    let r := sendReply crc header.requestId (.msg reply)
      ⟨ctx, s.calls ++ [(command, outcome)], s.sent⟩
    Handled build config handler arrival s r.1 r.2 := by
  intro r
  by_cases hsendable : Sendable ctx (.msg reply)
  · obtain ⟨sent, hsent, hr⟩ := @sendReply_sendable crc ⟨ctx, s.calls ++ [(command, outcome)], s.sent⟩
      (.msg reply) hsendable header.requestId
    have hr : r = _ := hr
    rw [hr]
    exact .answered header m command outcome ctx reply sent h hmore hanswer hsendable hsent
  · obtain ⟨e, hr⟩ := @sendReply_unsendable crc ⟨ctx, s.calls ++ [(command, outcome)], s.sent⟩
      (.msg reply) hsendable header.requestId
    have hr : r = _ := hr
    rw [hr]
    exact .unsendable header m command outcome ctx reply e h hmore hanswer hsendable

theorem processMsg_handled (crc : Checksum) {m : OpMsg}
    (h : Requests build config arrival header (.msg m)) :
    Handled build config handler arrival s (processMsg crc handler header m s).1
      (processMsg crc handler header m s).2 := by
  have hreturns := RawDocument.returns_command m.sections.body
  unfold processMsg
  rcases hname : m.sections.body.command with name | e | _ | _
  · obtain ⟨outcome, ctx, hrun⟩ := exists_handlerRun handler
      ⟨name, m.sections.body, m.sections.sequences, m.flags⟩ s.ctx
    have hcalled : Called build config handler arrival s.ctx header m _ outcome ctx :=
      ⟨h, hname, rfl, hrun⟩
    rw [mapErr_ok, Method.check_ok_bind]
    dsimp only
    rw [Method.bind_of_ok (callHandler_eq hrun)]
    by_cases hmore : m.flags.contains .moreToCome = true
    · rw [if_pos hmore]
      exact .unanswered header m _ outcome ctx hcalled (.inl hmore)
    · rw [if_neg hmore]
      rw [Bool.not_eq_true] at hmore
      rcases outcome with e | reply | _
      · rcases errorReply_cases e m with ⟨reply, hreply⟩ | hreply
        · dsimp only
          rw [hreply, Method.check_ok_bind]
          exact sendReply_handled crc hcalled hmore (.inr ⟨e, rfl, hreply⟩)
        · dsimp only
          rw [hreply, Method.check_ok_bind]
          exact .aborted header m _ e ctx hcalled hmore hreply
      · exact sendReply_handled crc hcalled hmore (.inl rfl)
      · exact .unanswered header m _ _ ctx hcalled (.inr rfl)
  · exact .unnamedMsg header m e h hname
  all_goals
    rw [hname] at hreturns
    exact absurd hreturns id

theorem handshake_handled (crc : Checksum) {q : OpQuery} {name : String}
    {requested : Option (List String)} {x : Outcome Error OpMsg}
    (h : Requests build config arrival header (.query q)) (hname : q.query.command = .ok name)
    (hhandshake : isHandshake name = true)
    (hrequested : requestedCompressors q.query = .ok requested)
    (hreply : handshakeReply (negotiate config.compressors requested) config.maxMsgLen true
      arrival.now = x) {ctx : ConnectionInfo}
    (hctx : ctx.requestIdCounter = s.ctx.requestIdCounter) :
    let r := (Method.check (mapErr Exit.invalidData x) >>= fun reply =>
      sendReply crc header.requestId (.reply (queryHandshakeReply reply.sections.body)))
      (s.setCtx ctx)
    Handled build config handler arrival s r.1 r.2 := by
  have hcases : (∃ reply, x = .ok reply) ∨ ∃ b, x = .err (bsonError b) := by
    rw [← hreply]
    exact handshakeReply_cases _ _ _ _
  -- Both calls are functions of the request, so that there is one reply to speak of.
  have honly {requested' : Option (List String)} {reply : OpMsg}
      (hr : requestedCompressors q.query = .ok requested')
      (hok : handshakeReply (negotiate config.compressors requested') config.maxMsgLen true
        arrival.now = .ok reply) : x = .ok reply := by
    rw [hrequested, ok.injEq] at hr
    subst hr
    exact hreply.symm.trans hok
  rcases hcases with ⟨reply, rfl⟩ | ⟨b, rfl⟩
  · rw [mapErr_ok, Method.check_ok_bind]
    by_cases hsendable : Sendable ctx (.reply (queryHandshakeReply reply.sections.body))
    · obtain ⟨sent, hsent, hsend⟩ :=
        @sendReply_sendable crc (s.setCtx ctx) _ hsendable header.requestId
      rw [hsend]
      exact .answeredQuery header q name _ ctx sent h hname hctx (hctx ▸ hsent)
    · obtain ⟨e, hsend⟩ := @sendReply_unsendable crc (s.setCtx ctx) _ hsendable header.requestId
      rw [hsend]
      refine .unanswerableQuery header q name e _ h hname hhandshake fun reply' _ hr hok => ?_
      rw [← ok.inj (honly hr hok)]
      exact hsendable
  · rw [mapErr_err, Method.check_err_bind]
    refine .unanswerableQuery header q name (bsonError b) _ h hname hhandshake fun reply' _ hr hok => ?_
    cases honly hr hok

theorem processQuery_handled (crc : Checksum) {q : OpQuery}
    (h : Requests build config arrival header (.query q)) :
    Handled build config handler arrival s (processQuery crc config arrival.now header q s).1
      (processQuery crc config arrival.now header q s).2 := by
  have hreturns := RawDocument.returns_command q.query
  unfold processQuery
  rcases hname : q.query.command with name | e | _ | _
  · rw [mapErr_ok, Method.check_ok_bind]
    by_cases hhandshake : isHandshake name = true
    · rw [if_neg (not_not.mpr hhandshake)]
      obtain ⟨requested, hrequested⟩ := exists_requestedCompressors q.query
      rw [hrequested, mapErr_ok, Method.check_ok_bind]
      dsimp only
      rw [Method.modify_bind]
      exact handshake_handled crc h hname hhandshake hrequested rfl rfl
    · rw [if_pos hhandshake]
      obtain ⟨reply, hreply, hsendable⟩ := errorReply_commandNotFound q
      rw [hreply, Method.check_ok_bind]
      obtain ⟨sent, hsent, hr⟩ := @sendReply_sendable crc s _ (hsendable s.ctx) header.requestId
      dsimp only
      rw [hr]
      exact .answeredQuery header q name reply s.ctx sent h hname rfl hsent
  · exact .unnamedQuery header q e h hname
  all_goals
    rw [hname] at hreturns
    exact absurd hreturns id

end Turns

theorem processFrame_handled (crc : Checksum) (build : Build) (config : ServerConfig)
    (handler : Handler) (arrival : Arrival) (s : Socket) :
    Handled build config handler arrival s (processFrame crc build config handler arrival s).1
      (processFrame crc build config handler arrival s).2 := by
  unfold processFrame
  rcases hframe : arrival.frame with e | ⟨header, wire⟩
  · exact .undecodable e hframe
  · have hreturns := Ingress.returns_unwrap build config.maxMsgLen wire
    dsimp only
    rcases hunwrap : Ingress.unwrap build config.maxMsgLen wire with body | e | _ | _
    · have hrequests : Requests build config arrival header body := ⟨wire, hframe, hunwrap⟩
      rw [mapErr_ok, Method.check_ok_bind]
      rcases body with m | q | r | c
      · exact processMsg_handled crc hrequests
      · exact processQuery_handled crc hrequests
      · exact .ignored header r hrequests
      · exact absurd hunwrap unwrap_ne_compressed
    · exact .undecompressed header wire e hframe hunwrap
    all_goals
      rw [hunwrap] at hreturns
      exact absurd hreturns id

end Server

end MongoWire
