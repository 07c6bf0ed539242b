import MongoWire.Api.Turns
import MongoWire.Bson.Access
import MongoWire.Messages.Errors

/-!
# The built-in commands

`BuiltinHandler` of `mongowire/src/api/mod.rs` and `ping_reply` of
`api/response.rs`, and what a handshake negotiates, over `OP_QUERY` and over
`OP_MSG`. The handler reads the clock, so the time is a parameter.
-/

open MongoWire.Lib MongoWire.Lib.Outcome MongoWire.Server

namespace MongoWire

/-! ## The handler -/

def pingReply : Outcome Error OpMsg := do
  let raw ← mapErr bsonError (Document.encode ⟨[⟨"ok", Error.one⟩]⟩)
  opMsg ⟨0⟩ raw

structure BuiltinHandler where
  inner : Handler
  compressors : List CompressorId
  maxMsgLen : Int32

namespace BuiltinHandler

variable (builtin : BuiltinHandler) (now : Int64)

def handleCommand (command : Command) : Method Error ConnectionInfo Reply :=
  if isHandshake command.name then do
    let requested ← .check (requestedCompressors command.body)
    let negotiated := negotiate builtin.compressors requested
    .modify fun ctx => { ctx with negotiatedCompressors := negotiated }
    -- `isMaster` callers expect the legacy key.
    let reply ← .check
      (handshakeReply negotiated builtin.maxMsgLen (command.name ≠ "hello") now)
    return .msg reply
  else if command.name = "ping" then do
    let reply ← .check pingReply
    return .msg reply
  else builtin.inner.handleCommand command

theorem returns_pingReply : pingReply.Returns := by
  simp [pingReply, returns_bind, Document.returns_encode]

theorem returns_handshakeReply (compressors : List CompressorId) (maxMsgLen : Int32)
    (legacyIsMaster : Bool) :
    (handshakeReply compressors maxMsgLen legacyIsMaster now).Returns := by
  rcases handshakeReply_cases compressors maxMsgLen legacyIsMaster now with ⟨reply, h⟩ | ⟨b, h⟩
  · rw [h]; trivial
  · rw [h]; trivial

theorem returns_handleCommand (command : Command) : (builtin.handleCommand now command).Returns := by
  unfold handleCommand
  split
  · obtain ⟨requested, hrequested⟩ := exists_requestedCompressors command.body
    rw [hrequested]
    refine (Method.returns_check (x := ok requested) trivial).bind fun _ =>
      (Method.returns_modify _).bind fun _ => ?_
    exact (Method.returns_check (returns_handshakeReply ..)).bind fun _ => Method.returns_pure _
  · split
    · exact (Method.returns_check returns_pingReply).bind fun _ => Method.returns_pure _
    · exact builtin.inner.returns command

def handler : Handler where
  handleCommand := builtin.handleCommand now
  returns := builtin.returns_handleCommand now

theorem handler_handshake (command : Command) (h : isHandshake command.name = true)
    {requested : Option (List String)} (hrequested : requestedCompressors command.body = .ok requested)
    (ctx : ConnectionInfo) :
    let negotiated := negotiate builtin.compressors requested
    let run := (builtin.handler now).handleCommand command ctx
    let reply := handshakeReply negotiated builtin.maxMsgLen (command.name ≠ "hello") now
    let ctx' := { ctx with negotiatedCompressors := negotiated }
    (∀ m, reply = .ok m → run = (Outcome.ofExcept (.ok (.msg m)), ctx')) ∧
      ∀ e, reply = .err e → run = (Outcome.ofExcept (.error e), ctx') := by
  intro negotiated run reply ctx'
  have hrun : run = (reply >>= fun m => .ok (.msg m), ctx') := by
    show builtin.handleCommand now command ctx = _
    rw [handleCommand, if_pos h, hrequested, Method.check_ok_bind, Method.modify_bind,
      Method.check_bind_pure]
  constructor
  · intro m hm
    rw [hrun, hm]
    rfl
  · intro e he
    rw [hrun, he]
    rfl

end BuiltinHandler

/-! ## What a document says of compressors -/

namespace RawDocument

/-- The values of the `compression` array. -/
def Offers (d : RawDocument) (values : List Bson) : Prop :=
  ∃ names, d.get "compression" = .ok (some (.array names)) ∧ names.shallow = .ok ⟨values⟩

def Names (d : RawDocument) (id : CompressorId) : Prop :=
  ∃ values, d.Offers values ∧ .string id.name ∈ values

end RawDocument

theorem CompressorId.name_injective {id id' : CompressorId} (h : id.name = id'.name) : id = id' := by
  revert h
  cases id <;> cases id' <;> decide

theorem mem_filterMap_stringOf (values : List Bson) (text : String) :
    text ∈ values.filterMap stringOf ↔ .string text ∈ values := by
  rw [List.mem_filterMap]
  constructor
  · rintro ⟨v, hv, htext⟩
    cases v with
    | string t =>
      cases htext
      exact hv
    | _ => cases htext
  · intro h
    exact ⟨_, h, rfl⟩

theorem requestedCompressors_eq_some {body : RawDocument} {requested : List String} :
    requestedCompressors body = .ok (some requested) ↔
      ∃ values, body.Offers values ∧ requested = values.filterMap stringOf := by
  simp only [requestedCompressors, bind_eq_ok]
  constructor
  · rintro ⟨found, hfound, h⟩
    split at h
    · rename_i names
      rw [bind_eq_ok] at h
      obtain ⟨array, harray, h⟩ := h
      split at h
      · rename_i array
        obtain ⟨values⟩ := array
        cases h
        exact ⟨values, ⟨names, (toOption_eq_some _ _).mp hfound, (toOption_eq_some _ _).mp harray⟩,
          rfl⟩
      · cases h
    · cases h
  · rintro ⟨values, ⟨names, hget, harray⟩, rfl⟩
    refine ⟨_, (toOption_eq_some _ _).mpr hget, ?_⟩
    simp only [bind_eq_ok]
    exact ⟨_, (toOption_eq_some _ _).mpr harray, rfl⟩

theorem mem_negotiate {body : RawDocument} {requested : Option (List String)}
    (h : requestedCompressors body = .ok requested) (configured : List CompressorId)
    (id : CompressorId) : id ∈ negotiate configured requested ↔ id ∈ configured ∧ body.Names id := by
  have hnames : body.Names id ↔ ∃ names, requested = some names ∧ id.name ∈ names := by
    constructor
    · rintro ⟨values, hoffers, hmem⟩
      rw [requestedCompressors_eq_some.mpr ⟨values, hoffers, rfl⟩, ok.injEq] at h
      exact ⟨_, h.symm, (mem_filterMap_stringOf _ _).mpr hmem⟩
    · rintro ⟨names, rfl, hmem⟩
      obtain ⟨values, hoffers, rfl⟩ := requestedCompressors_eq_some.mp h
      exact ⟨values, hoffers, (mem_filterMap_stringOf _ _).mp hmem⟩
  rw [hnames]
  cases requested with
  | none => simp [negotiate]
  | some names => simp [negotiate]

theorem negotiate_sublist (configured : List CompressorId) (requested : Option (List String)) :
    (negotiate configured requested).Sublist configured := by
  cases requested with
  | none => exact List.nil_sublist _
  | some names => exact List.filter_sublist

/-! ## What the reply offers -/

section Handshake

variable {compressors : List CompressorId} {maxMsgLen : Int32} {legacyIsMaster : Bool} {now : Int64}

theorem valuesDepth_names :
    valuesDepth (compressors.map fun c => .string c.name) = 0 := by
  induction compressors with
  | nil => rfl
  | cons c compressors ih => simp [valuesDepth, Bson.depth, ih]

theorem valuesInRange_names : ValuesInRange (compressors.map fun c => .string c.name) := by
  induction compressors with
  | nil => trivial
  | cons c compressors ih => exact ⟨trivial, ih⟩

theorem depth_handshakeDoc :
    (handshakeDoc compressors maxMsgLen legacyIsMaster now).depth ≤ maxNestingDepth := by
  by_cases h : compressors = [] <;>
    simp [handshakeDoc, h, Document.depth, fieldsDepth, Bson.depth, BsonArray.depth, Error.one,
      maxNestingDepth, valuesDepth_names]

theorem inRange_handshakeDoc : (handshakeDoc compressors maxMsgLen legacyIsMaster now).InRange := by
  by_cases h : compressors = [] <;>
    simp [handshakeDoc, h, Document.InRange, FieldsInRange, Bson.InRange, BsonArray.InRange,
      Error.one, valuesInRange_names]

theorem get_handshakeDoc :
    (handshakeDoc compressors maxMsgLen legacyIsMaster now).get "compression" =
      if compressors = [] then none
      else some (.array ⟨compressors.map fun c => .string c.name⟩) := by
  by_cases h : compressors = [] <;> cases legacyIsMaster <;>
    simp [Document.get, handshakeDoc, h]

theorem toBson_eq_array (v : RawBsonRef) (a : BsonArray) :
    v.toBson = .ok (.array a) ↔ ∃ names, v = .array names ∧ names.shallow = .ok a := by
  cases v with
  | array names => simp [RawBsonRef.toBson, bind_eq_ok]
  | document d => simp [RawBsonRef.toBson, bind_eq_ok]
  | _ => simp [RawBsonRef.toBson, RawBsonRef.scalarToBson]

theorem handshakeReply_eq_ok {reply : OpMsg} :
    handshakeReply compressors maxMsgLen legacyIsMaster now = .ok reply ↔
      ∃ raw, (handshakeDoc compressors maxMsgLen legacyIsMaster now).encode = .ok raw ∧
        reply = ⟨MsgFlags.difference ⟨0⟩ .checksumPresent, ⟨raw, []⟩, none⟩ := by
  simp only [handshakeReply, bind_eq_ok, mapErr_eq_ok, opMsg_eq, ok.injEq, eq_comm (b := reply)]

theorem offers_handshakeReply {reply : OpMsg}
    (h : handshakeReply compressors maxMsgLen legacyIsMaster now = .ok reply) (values : List Bson) :
    reply.sections.body.Offers values ↔
      compressors ≠ [] ∧ values = compressors.map fun c => .string c.name := by
  obtain ⟨raw, hraw, rfl⟩ := handshakeReply_eq_ok.mp h
  obtain ⟨henc, hbytes⟩ := (Document.encode_eq_ok _ raw).mp hraw
  have hdeep : raw.deep = .ok (handshakeDoc compressors maxMsgLen legacyIsMaster now) := by
    rw [RawDocument.deep, RawDocument.decode_layout henc inRange_handshakeDoc hbytes,
      Decode.upTo_ok depth_handshakeDoc]
  obtain ⟨items, hyields, hall⟩ := RawDocument.exists_readsAs hdeep
  obtain ⟨found, hget, hrel⟩ := RawDocument.get_of_readsAs hyields hall "compression"
  rw [get_handshakeDoc] at hrel
  unfold RawDocument.Offers
  simp only [hget, ok.injEq]
  by_cases hnil : compressors = []
  · rw [if_pos hnil] at hrel
    cases hrel
    simp [hnil]
  · rw [if_neg hnil] at hrel
    cases hrel with
    | some hbson =>
      obtain ⟨names, rfl, harray⟩ := (toBson_eq_array _ _).mp hbson
      simp only [Option.some.injEq, RawBsonRef.array.injEq]
      constructor
      · rintro ⟨_, rfl, hvalues⟩
        rw [harray, ok.injEq, BsonArray.mk.injEq] at hvalues
        exact ⟨hnil, hvalues.symm⟩
      · rintro ⟨-, rfl⟩
        exact ⟨names, rfl, harray⟩

end Handshake

/-! ## Negotiated compressors and the build -/

/-- What a client may rely on: every compressor in the reply is one that it asked for, in the order
of the server, and one that the server will then accept. -/
def Negotiated (build : Build) (configured : List CompressorId) (request reply : RawDocument) :
    Prop :=
  ∀ values, reply.Offers values → ∃ ids : List CompressorId,
    values = ids.map (fun id => .string id.name) ∧ ids.Sublist configured ∧
      ∀ id ∈ ids, request.Names id ∧ build.Accepts id

/-- Every compressor on both sides is in the build. -/
def Build.Covers (build : Build) (configured : List CompressorId) (request : RawDocument) : Prop :=
  ∀ id ∈ configured, request.Names id → build.isEnabled id = true

theorem negotiated_iff_covers (build : Build) {configured : List CompressorId}
    {request : RawDocument} {requested : Option (List String)}
    (hrequested : requestedCompressors request = .ok requested) {maxMsgLen : Int32}
    {legacyIsMaster : Bool} {now : Int64} {reply : OpMsg}
    (hreply : handshakeReply (negotiate configured requested) maxMsgLen legacyIsMaster now =
      .ok reply) :
    Negotiated build configured request reply.sections.body ↔ build.Covers configured request := by
  have hmem := mem_negotiate hrequested configured
  simp only [Negotiated, offers_handshakeReply hreply]
  constructor
  · intro h id hid hnames
    have hin := (hmem id).mpr ⟨hid, hnames⟩
    obtain ⟨ids, hids, -, hall⟩ := h _ ⟨List.ne_nil_of_mem hin, rfl⟩
    -- Names tell compressors apart, so the list behind the reply is the negotiated one.
    have hname : Bson.string id.name ∈ ids.map fun id => .string id.name := by
      rw [← hids]
      exact List.mem_map_of_mem hin
    obtain ⟨id', hid', heq⟩ := List.mem_map.mp hname
    rw [Bson.string.injEq] at heq
    rw [← CompressorId.name_injective heq]
    exact (build.accepts_iff id').mp (hall id' hid').2
  · rintro h values ⟨-, rfl⟩
    refine ⟨_, rfl, negotiate_sublist _ _, ?_⟩
    intro id hin
    obtain ⟨hid, hnames⟩ := (hmem id).mp hin
    exact ⟨hnames, (build.accepts_iff id).mpr (h id hid hnames)⟩

/-! ## Over the wire -/

section Wire

variable {crc : Checksum} {config : ServerConfig} {now : Int64} {header : Header} {s s' : Socket}

theorem sendReply_eq_ok {responseTo : Int32} {body : MessageBody}
    (h : sendReply crc responseTo body s = (.ok (), s')) :
    ∃ sent : Sent, s'.sent = s.sent ++ [sent] ∧ sent.body = body := by
  by_cases hsendable : Sendable s.ctx body
  · obtain ⟨sent, hcarries, hsend⟩ := @sendReply_sendable crc s body hsendable responseTo
    rw [hsend, Prod.mk.injEq] at h
    rw [← h.2]
    exact ⟨sent, rfl, hcarries.body_eq⟩
  · obtain ⟨e, hsend⟩ := @sendReply_unsendable crc s body hsendable responseTo
    rw [hsend] at h
    cases h

theorem processQuery_handshake {q : OpQuery} {name : String} (hname : q.query.command = .ok name)
    (hhandshake : isHandshake name = true)
    (h : processQuery crc config now header q s = (.ok (), s')) :
    ∃ requested reply sent, requestedCompressors q.query = .ok requested ∧
      handshakeReply (negotiate config.compressors requested) config.maxMsgLen true now = .ok reply ∧
      s'.sent = s.sent ++ [sent] ∧
      sent.body = .reply (queryHandshakeReply reply.sections.body) := by
  obtain ⟨requested, hrequested⟩ := exists_requestedCompressors q.query
  rw [processQuery, hname, mapErr_ok, Method.check_ok_bind, if_neg (not_not.mpr hhandshake),
    hrequested, mapErr_ok, Method.check_ok_bind] at h
  dsimp only at h
  rw [Method.modify_bind, Method.check_bind_eq_ok] at h
  obtain ⟨reply, hreply, h⟩ := h
  obtain ⟨sent, hsent, hbody⟩ := sendReply_eq_ok h
  exact ⟨requested, reply, sent, hrequested, (mapErr_eq_ok ..).mp hreply, hsent, hbody⟩

theorem processMsg_handshake {builtin : BuiltinHandler} {m : OpMsg} {name : String}
    (hname : m.sections.body.command = .ok name) (hhandshake : isHandshake name = true)
    (hmore : m.flags.contains .moreToCome = false)
    (h : processMsg crc (builtin.handler now) header m s = (.ok (), s')) :
    ∃ requested legacyIsMaster reply sent,
      requestedCompressors m.sections.body = .ok requested ∧
      handshakeReply (negotiate builtin.compressors requested) builtin.maxMsgLen legacyIsMaster now =
        .ok reply ∧
      s'.sent = s.sent ++ [sent] ∧ sent.body = .msg reply := by
  obtain ⟨requested, hrequested⟩ := exists_requestedCompressors m.sections.body
  have hrun := builtin.handler_handshake now (.mk name m.sections.body m.sections.sequences m.flags)
    hhandshake hrequested s.ctx
  rw [processMsg, hname, mapErr_ok, Method.check_ok_bind] at h
  dsimp only at h
  rcases handshakeReply_cases (negotiate builtin.compressors requested) builtin.maxMsgLen
    (name ≠ "hello") now with ⟨reply, hreply⟩ | ⟨b, hreply⟩
  · have hcall := callHandler_eq (hrun.1 reply hreply)
    rw [Method.bind_of_ok hcall, if_neg (by rw [hmore]; decide)] at h
    obtain ⟨sent, hsent, hbody⟩ := sendReply_eq_ok h
    exact ⟨requested, _, reply, sent, hrequested, hreply, hsent, hbody⟩
  · -- An error of the protocol closes the connection.
    have hcall := callHandler_eq (hrun.2 (bsonError b) hreply)
    have hnone : errorReply (bsonError b) (.msg m) = .ok none := rfl
    rw [Method.bind_of_ok hcall, if_neg (by rw [hmore]; decide)] at h
    dsimp only at h
    rw [hnone, Method.check_ok_bind] at h
    cases h

end Wire

/-- **Negotiated compressors are usable exactly when the build has them.** A handshake that is
answered, over `OP_QUERY` or over `OP_MSG`, keeps its promise if and only if every configured
compressor that the client names is in the build. -/
theorem negotiated_usable_iff (crc : Checksum) (build : Build) (config : ServerConfig)
    (builtin : BuiltinHandler) (now : Int64) (header : Header) (name : String)
    (hname : isHandshake name = true) (s s' : Socket) :
    (∀ q : OpQuery, q.query.command = .ok name →
      processQuery crc config now header q s = (.ok (), s') →
      ∃ sent doc, s'.sent = s.sent ++ [sent] ∧ sent.body = .reply (queryHandshakeReply doc) ∧
        (Negotiated build config.compressors q.query doc ↔
          build.Covers config.compressors q.query)) ∧
    (∀ m : OpMsg, m.sections.body.command = .ok name → m.flags.contains .moreToCome = false →
      processMsg crc (builtin.handler now) header m s = (.ok (), s') →
      ∃ sent reply, s'.sent = s.sent ++ [sent] ∧ sent.body = .msg reply ∧
        (Negotiated build builtin.compressors m.sections.body reply.sections.body ↔
          build.Covers builtin.compressors m.sections.body)) := by
  constructor
  · intro q hcommand hrun
    obtain ⟨requested, reply, sent, hrequested, hreply, hsent, hbody⟩ :=
      processQuery_handshake hcommand hname hrun
    exact ⟨sent, _, hsent, hbody, negotiated_iff_covers build hrequested hreply⟩
  · intro m hcommand hmore hrun
    obtain ⟨requested, legacyIsMaster, reply, sent, hrequested, hreply, hsent, hbody⟩ :=
      processMsg_handshake hcommand hname hmore hrun
    exact ⟨sent, reply, hsent, hbody, negotiated_iff_covers build hrequested hreply⟩

namespace BuiltinHandler

/-- `{"hello": 1, "compression": ["zlib"]}`. -/
def helloZlib : RawDocument :=
  .ofFramed [46, 0, 0, 0, 16, 104, 101, 108, 108, 111, 0, 1, 0, 0, 0, 4, 99, 111, 109, 112, 114, 101,
    115, 115, 105, 111, 110, 0, 17, 0, 0, 0, 2, 48, 0, 5, 0, 0, 0, 122, 108, 105, 98, 0, 0, 0]
    (by decide)

def helloQuery : OpQuery := ⟨⟨0⟩, "admin.$cmd", 0, -1, helloZlib, none⟩

def helloMsg : OpMsg := ⟨⟨0⟩, ⟨helloZlib, []⟩, none⟩

def offersZlib : ServerConfig := ⟨48000000, false, [.zlib]⟩

def builtinZlib : BuiltinHandler :=
  ⟨Server.Sample.always (.ok .noReply) trivial, [.zlib], 48000000⟩

def afterQuery : Outcome Exit Unit × Socket :=
  processQuery crc32c offersZlib 0 ⟨0, 7, 0, .query⟩ helloQuery (.new offersZlib)

def afterMsg : Outcome Exit Unit × Socket :=
  processMsg crc32c (builtinZlib.handler 0) ⟨0, 7, 0, .msg⟩ helloMsg (.new offersZlib)

theorem eq_of_returned {r : Outcome Exit Unit × Socket} (h : r.1 = .ok ()) : r = (.ok (), r.2) := by
  rw [← h]

/-- The compressors that a client finds in a reply. -/
def offered (sent : Sent) : Outcome Error (Option (List String)) :=
  match sent.body with
  | .msg m => requestedCompressors m.sections.body
  | .reply r => (r.documents.head?.map requestedCompressors).getD (.ok none)
  | _ => .ok none

end BuiltinHandler

open BuiltinHandler

theorem negotiated_usable_iff_zlib :
    (∃ sent doc, afterQuery.2.sent = [] ++ [sent] ∧ sent.body = .reply (queryHandshakeReply doc) ∧
      (Negotiated Server.Sample.build [.zlib] helloZlib doc ↔
        Server.Sample.build.Covers [.zlib] helloZlib)) ∧
    (∃ sent reply, afterMsg.2.sent = [] ++ [sent] ∧ sent.body = .msg reply ∧
      (Negotiated Server.Sample.build [.zlib] helloZlib reply.sections.body ↔
        Server.Sample.build.Covers [.zlib] helloZlib)) :=
  -- Both handshakes, in a build without compressors.
  ⟨(negotiated_usable_iff crc32c Server.Sample.build offersZlib builtinZlib 0 ⟨0, 7, 0, .query⟩
      "hello" (by decide) (.new offersZlib) afterQuery.2).1 helloQuery (by decide +kernel)
      (eq_of_returned (by decide +kernel : afterQuery.1 = .ok ())),
    (negotiated_usable_iff crc32c Server.Sample.build offersZlib builtinZlib 0 ⟨0, 7, 0, .msg⟩
      "hello" (by decide) (.new offersZlib) afterMsg.2).2 helloMsg (by decide +kernel) (by decide)
      (eq_of_returned (by decide +kernel : afterMsg.1 = .ok ()))⟩

/-- A server without zlib that is configured with it tells the client to use it, and refuses what
the client then sends. -/
theorem negotiates_absent_zlib :
    afterQuery.2.sent.map offered = [.ok (some ["zlib"])] ∧
    afterMsg.2.sent.map offered = [.ok (some ["zlib"])] ∧
    OpCompressed.unwrapBody Server.Sample.build ⟨.msg, 10, .zlib, []⟩ 48000000 =
      .err (.unsupportedCompressor 2) := by
  decide +kernel

end MongoWire
