import MongoWire.Api.Builtin
import MongoWire.Bson.Canonical
import MongoWire.Bson.Encoded
import MongoWire.Bson.Log
import MongoWire.Bson.ObjectId
import MongoWire.Limits
import MongoWire.Network.Answered

/-!
# The example server

`examples/mongowire-server/src/main.rs`: a handler for a few commands, and what its clients see
of it over the network.
-/

open MongoWire.Lib MongoWire.Lib.Outcome MongoWire.Framing

namespace MongoWire

/-! ## Sizes -/

theorem Document.encodable_of_size {fields : List Field} (hsize : Document.size ⟨fields⟩ < 2 ^ 31)
    (h : FieldsEncodable fields) : Document.Encodable ⟨fields⟩ := by
  refine ⟨?_, h⟩
  rw [← Document.layout, Document.length_layout]
  exact hsize

theorem BsonArray.encodable_of_size {values : List Bson} (hsize : BsonArray.size ⟨values⟩ < 2 ^ 31)
    (h : ValuesEncodable values) : BsonArray.Encodable ⟨values⟩ := by
  refine ⟨?_, h⟩
  rw [length_frame, length_layouts.2.2]
  exact hsize

/-! ## The source -/

structure DemoHandler where
  maxMsgLen : Int32

namespace DemoHandler

/-- What a call reads of its process: how it formats, the clock, and what the next object id is made
of. -/
structure Env where
  std : Log.Std
  now : Int64
  draw : ObjectId.Draw
  counter : UInt32

def greeting : String := "hello from mongowire"

def buildInfoDoc : Document :=
  ⟨[⟨"version", .string "7.0.0-mongowire"⟩, ⟨"gitVersion", .string "demo"⟩, ⟨"ok", Error.one⟩]⟩

/-- The one document that `find` serves. -/
def first (id : ObjectId) : Document := ⟨[⟨"_id", .objectId id⟩, ⟨"greeting", .string greeting⟩]⟩

def findDoc (id : ObjectId) : Document :=
  ⟨[⟨"cursor", .document ⟨[⟨"id", .int64 0⟩, ⟨"ns", .string "demo.demo"⟩,
      ⟨"firstBatch", .array ⟨[.document (first id)]⟩⟩]⟩⟩,
    ⟨"ok", Error.one⟩]⟩

variable (demo : DemoHandler) (env : Env)

def find (command : Command) : Outcome Error Reply := do
  match ← mapErr bsonError (command.body.get "find") with
  | some (.string collection) =>
    if collection ≠ "demo" then
      .err (.command 26 "NamespaceNotFound" ("no such collection: demo." ++ collection))
    else
    let raw ← mapErr bsonError (findDoc (ObjectId.new env.draw env.counter).1).encode
    return .msg (← opMsg ⟨0⟩ raw)
  | some _ => .err (.command 73 "TypeMismatch" "find: the collection name must be a string")
  | none => .err (.command 40414 "Location40414" "find: missing collection name")

/-- The `match` of `handle`. -/
def answer (command : Command) : Outcome Error Reply :=
  match command.name with
  | "hello" => do return .msg (← handshakeReply [] demo.maxMsgLen false env.now)
  | "isMaster" | "ismaster" => do return .msg (← handshakeReply [] demo.maxMsgLen true env.now)
  | "ping" => do return .msg (← pingReply)
  | "buildInfo" => do
    let raw ← mapErr bsonError buildInfoDoc.encode
    return .msg (← opMsg ⟨0⟩ raw)
  | "find" => find env command
  | other => .err (.command 59 "CommandNotFound" ("no such command: " ++ other))

/-- `handle`, whose state are the lines on the standard error stream. -/
def handle (command : Command) : Method Error (List String) Reply := do
  let body ← .check (mapErr Empty.elim (Log.fmtRaw env.std command.body false))
  .modify (· ++ ["[conn] " ++ command.name ++ " " ++ body])
  .check (demo.answer env command)

theorem handle_eq (command : Command) (log : List String) :
    ∃ line, demo.handle env command log = (demo.answer env command, log ++ [line]) := by
  obtain ⟨text, htext⟩ := Log.exists_fmtRaw env.std command.body false
  refine ⟨"[conn] " ++ command.name ++ " " ++ text, ?_⟩
  unfold handle
  rw [htext]
  rfl

/-! ## The replies -/

/-- A document that goes into a reply and comes out of it again. -/
structure Replied (d : Document) : Prop where
  encodable : d.Encodable
  inRange : d.InRange
  depth_le : d.depth ≤ maxNestingDepth
  fits : d.layout.length + 25 ≤ MongoWire.maxMsgLen

theorem Replied.exists_encode {d : Document} (h : Replied d) : ∃ raw, d.encode = .ok raw ∧
    raw.deep = .ok d ∧ ∀ ctx, Server.Sendable ctx (.msg ⟨⟨0⟩, ⟨raw, []⟩, none⟩) := by
  obtain ⟨raw, hraw, hbytes⟩ := Document.exists_encode h.encodable
  refine ⟨raw, hraw, RawDocument.deep_of_encode h.inRange h.depth_le hraw, fun ctx => ⟨?_, ?_⟩⟩
  · have hfits := h.fits
    rw [← hbytes] at hfits
    cases hsigns : Server.signs ctx (.msg ⟨⟨0⟩, ⟨raw, []⟩, none⟩) <;>
      simp [total, MessageBody.bodyLen, OpMsg.bodyLen, Sections.size, msgHeaderLen] <;>
      omega
  · exact fun h => Bool.false_ne_true h.2

theorem replied_of_short {fields : List Field} (hsize : Document.size ⟨fields⟩ ≤ 1000)
    (hfields : FieldsEncodable fields) (hrange : FieldsInRange fields)
    (hdepth : Document.depth ⟨fields⟩ ≤ maxNestingDepth) : Replied ⟨fields⟩ := by
  refine ⟨Document.encodable_of_size (by omega) hfields, hrange, hdepth, ?_⟩
  rw [Document.length_layout, MongoWire.maxMsgLen]
  omega

theorem replied_handshakeDoc (limit : Int32) (legacy : Bool) (now : Int64) :
    Replied (handshakeDoc [] limit legacy now) := by
  refine replied_of_short ?_ ?_ inRange_handshakeDoc depth_handshakeDoc
  · cases legacy <;> exact Nat.le_of_ble_eq_true rfl
  · cases legacy <;>
      simp +decide [FieldsEncodable, Bson.Encodable, Bson.asScalar, Scalar.Fits, Error.one]

theorem replied_pingDoc : Replied ⟨[⟨"ok", Error.one⟩]⟩ := by
  refine replied_of_short (by decide) ?_ ⟨trivial, trivial⟩ (by decide)
  simp +decide [FieldsEncodable, Bson.Encodable, Bson.asScalar, Scalar.Fits, Error.one]

theorem replied_buildInfoDoc : Replied buildInfoDoc := by
  refine replied_of_short (by decide) ?_ ⟨trivial, trivial, trivial, trivial⟩ (by decide)
  simp +decide [FieldsEncodable, Bson.Encodable, Bson.asScalar, Scalar.Fits, Error.one]

theorem replied_findDoc (id : ObjectId) : Replied (findDoc id) := by
  refine replied_of_short (Nat.le_of_ble_eq_true rfl) ?_ ?_ (Nat.le_of_ble_eq_true rfl)
  · have hfirst : (first id).Encodable := by
      refine Document.encodable_of_size (Nat.le_of_ble_eq_true rfl) ?_
      simp +decide [FieldsEncodable, Bson.Encodable, Bson.asScalar, Scalar.Fits, greeting]
    have hbatch : BsonArray.Encodable ⟨[.document (first id)]⟩ :=
      BsonArray.encodable_of_size (Nat.le_of_ble_eq_true rfl) ⟨hfirst, trivial⟩
    refine ⟨by decide, Document.encodable_of_size (Nat.le_of_ble_eq_true rfl) ?_, ?_⟩
    · simp +decide [FieldsEncodable, Bson.Encodable, Bson.asScalar, Scalar.Fits, hbatch]
    · simp +decide [FieldsEncodable, Bson.Encodable, Bson.asScalar, Scalar.Fits, Error.one]
  · simp [FieldsInRange, Bson.InRange, Document.InRange, BsonArray.InRange, ValuesInRange, first,
      Error.one]

theorem replied_errorDoc {code : Int32} {codeName message : String} {doc : Document}
    (hdoc : (Error.command code codeName message).toErrorResponseDoc = some doc)
    (hfits : (utf8 message).length + (utf8 codeName).length + 95 ≤ MongoWire.maxMsgLen) :
    Replied doc := by
  have hsmall : (utf8 message).length + (utf8 codeName).length + 70 < 2 ^ 31 := by
    rw [MongoWire.maxMsgLen] at hfits
    omega
  obtain ⟨doc', raw, hdoc', hraw, hlen⟩ := @Server.encode_errorDoc code codeName message hsmall
  obtain rfl : doc' = doc := Option.some.inj (hdoc'.symm.trans hdoc)
  obtain ⟨hencodable, hbytes⟩ := (Document.encode_eq_ok doc' raw).mp hraw
  rw [hbytes] at hlen
  obtain rfl := Option.some.inj hdoc
  exact ⟨hencodable, ⟨trivial, trivial, trivial, trivial, trivial, trivial⟩,
    Nat.le_of_ble_eq_true rfl, by omega⟩

/-! ## What a command is answered -/

/-- The code with which a command is refused, given the value behind its name. -/
def refusal (name : String) (argument : Option Bson) : Option Int32 :=
  match name with
  | "hello" | "isMaster" | "ismaster" | "ping" | "buildInfo" => none
  | "find" =>
    match argument with
    | some (.string collection) => if collection = "demo" then none else some 26
    | _ => some 73
  | _ => some 59

/-- The reply tells the client that its command was carried out, or the code of the refusal. -/
def Tells (refused : Option Int32) (reply : OpMsg) : Prop :=
  ∃ d, reply.sections.body.deep = .ok d ∧ match refused with
    | none => d.get "ok" = some Error.one
    | some code => d.get "ok" = some Error.zero ∧ d.get "code" = some (.int32 code)

/-- A call that ends in a reply to `m`, which can be sent whatever the state of the connection. -/
def Settles (m : OpMsg) (refused : Option Int32) (x : Outcome Error Reply) : Prop :=
  ∃ outcome reply, x = ofExcept outcome ∧ Server.Answers m outcome reply ∧
    (∀ ctx, Server.Sendable ctx (.msg reply)) ∧ Tells refused reply

theorem settles_served {d : Document} (hd : Replied d) (hok : d.get "ok" = some Error.one)
    (m : OpMsg) {x : Outcome Error Reply}
    (hx : ∀ raw, d.encode = .ok raw → x = .ok (.msg ⟨⟨0⟩, ⟨raw, []⟩, none⟩)) : Settles m none x := by
  obtain ⟨raw, hraw, hdeep, hsendable⟩ := hd.exists_encode
  exact ⟨.ok (.msg ⟨⟨0⟩, ⟨raw, []⟩, none⟩), _, hx raw hraw, .inl rfl, hsendable, d, hdeep, hok⟩

theorem settles_refused {code : Int32} {codeName message : String}
    (hfits : (utf8 message).length + (utf8 codeName).length + 95 ≤ MongoWire.maxMsgLen)
    (m : OpMsg) : Settles m (some code) (.err (.command code codeName message)) := by
  obtain ⟨doc, hdoc⟩ : ∃ doc, (Error.command code codeName message).toErrorResponseDoc = some doc :=
    ⟨_, rfl⟩
  obtain ⟨raw, hraw, hdeep, hsendable⟩ := (replied_errorDoc hdoc hfits).exists_encode
  refine ⟨.error (.command code codeName message), ⟨⟨0⟩, ⟨raw, []⟩, none⟩, rfl, .inr ⟨_, rfl, ?_⟩,
    hsendable, doc, hdeep, ?_⟩
  · unfold Server.errorReply
    rw [hdoc]
    simp only [hraw, toOption, ok_bind, opMsg_eq]
    rfl
  · obtain rfl := Option.some.inj hdoc
    exact ⟨rfl, rfl⟩

section Settles

variable {command : Command} {d : Document} (hdeep : command.body.deep = .ok d)
  (hname : command.body.command = .ok command.name)
  (hlen : command.body.bytes.length + 200 ≤ MongoWire.maxMsgLen) (m : OpMsg)

include hdeep hname hlen

theorem settles_find (hfind : command.name = "find") :
    Settles m (refusal "find" (d.get "find")) (find env command) := by
  obtain ⟨items, hyields, hreads⟩ := RawDocument.exists_readsAs hdeep
  rw [hfind] at hname
  obtain ⟨v, b, hget, hargument, hbson, hvalue⟩ :=
    RawDocument.get_command (RawDocument.framed_of_command hname) hyields hreads hname (by decide)
  unfold find
  rw [hget, hargument, mapErr_ok, ok_bind]
  by_cases hstring : ∃ collection, v = .string collection
  · obtain ⟨collection, rfl⟩ := hstring
    cases hbson
    by_cases hdemo : collection = "demo"
    · rw [hdemo]
      refine settles_served (replied_findDoc (ObjectId.new env.draw env.counter).1) rfl m
        fun raw hraw => ?_
      rw [hraw]
      rfl
    · rw [show refusal "find" (some (.string collection)) = some 26 from if_neg hdemo]
      dsimp only
      rw [if_pos hdemo]
      refine settles_refused ?_ m
      rw [show RawBsonRef.layout (.string collection) = strLayout collection from rfl,
        length_strLayout] at hvalue
      have hnames : (utf8 "no such collection: demo.").length = 25 ∧
        (utf8 "NamespaceNotFound").length = 17 := by decide
      rw [length_utf8_append]
      omega
  · have hrefusal : refusal "find" (some b) = some 73 := by
      cases b with
      | string collection =>
        have hv := @RawBsonRef.eq_ofScalar_of_toBson v (.string collection) hbson
        exact absurd ⟨collection, hv⟩ hstring
      | _ => rfl
    rw [hrefusal]
    split
    · rename_i collection heq
      exact absurd ⟨collection, Option.some.inj heq⟩ hstring
    · exact settles_refused (by decide) m
    · rename_i heq
      cases heq

theorem settles_answer :
    Settles m (refusal command.name (d.get command.name)) (demo.answer env command) := by
  have hframed := RawDocument.framed_of_command hname
  obtain ⟨items, hyields, -⟩ := RawDocument.exists_readsAs hdeep
  have hshort := RawDocument.length_command_le hframed hyields hname
  have hhandshake (legacy : Bool) :
      Settles m none (do return .msg (← handshakeReply [] demo.maxMsgLen legacy env.now)) := by
    refine settles_served (replied_handshakeDoc demo.maxMsgLen legacy env.now) rfl m
      fun raw hraw => ?_
    rw [handshakeReply, hraw]
    rfl
  unfold answer
  split
  · rename_i heq
    rw [heq]
    exact hhandshake false
  · rename_i heq
    rw [heq]
    exact hhandshake true
  · rename_i heq
    rw [heq]
    exact hhandshake true
  · rename_i heq
    rw [heq]
    refine settles_served replied_pingDoc rfl m fun raw hraw => ?_
    rw [pingReply, hraw]
    rfl
  · rename_i heq
    rw [heq]
    refine settles_served replied_buildInfoDoc rfl m fun raw hraw => ?_
    rw [hraw]
    rfl
  · rename_i heq
    rw [heq]
    exact settles_find env hdeep hname hlen m heq
  · have hrefusal : refusal command.name (d.get command.name) = some 59 := by
      unfold refusal
      split <;> first | rfl | contradiction
    rw [hrefusal]
    refine settles_refused ?_ m
    have hnames : (utf8 "no such command: ").length = 17 ∧ (utf8 "CommandNotFound").length = 15 := by
      decide
    rw [length_utf8_append]
    omega

end Settles

/-! ## The handler -/

/-- A call that fails, or builds its reply from a document. -/
def Builds (x : Outcome Error Reply) : Prop :=
  (∃ e, x = .err e) ∨ ∃ d : Document, x = do
    let raw ← mapErr bsonError d.encode
    return .msg (← opMsg ⟨0⟩ raw)

theorem builds_find (command : Command) : Builds (find env command) := by
  have hreturns := command.body.returns_get "find"
  unfold find
  generalize command.body.get "find" = x at hreturns ⊢
  rcases x with found | e | _ | _
  · rw [mapErr_ok, ok_bind]
    split
    · split
      · exact .inl ⟨_, rfl⟩
      · exact .inr ⟨_, rfl⟩
    · exact .inl ⟨_, rfl⟩
    · exact .inl ⟨_, rfl⟩
  · exact .inl ⟨_, rfl⟩
  · exact hreturns.elim
  · exact hreturns.elim

theorem builds_answer (command : Command) : Builds (demo.answer env command) := by
  have hreply (d : Document) : Builds (do
      return .msg (← (do opMsg ⟨0⟩ (← mapErr bsonError d.encode)))) :=
    .inr ⟨d, by cases mapErr bsonError d.encode <;> rfl⟩
  unfold answer
  split
  · exact hreply _
  · exact hreply _
  · exact hreply _
  · exact hreply _
  · exact .inr ⟨_, rfl⟩
  · exact builds_find env command
  · exact .inl ⟨_, rfl⟩

theorem returns_answer (command : Command) : (demo.answer env command).Returns := by
  rcases demo.builds_answer env command with ⟨e, h⟩ | ⟨d, h⟩
  · rw [h]
    trivial
  · simp [h, returns_bind, Document.returns_encode]

def handler : Handler where
  handleCommand command := .check (demo.handle env command []).1
  returns command := by
    obtain ⟨line, hline⟩ := demo.handle_eq env command []
    rw [hline]
    exact Method.returns_check (demo.returns_answer env command)

theorem handler_eq (command : Command) (ctx : ConnectionInfo) :
    (demo.handler env).handleCommand command ctx = (demo.answer env command, ctx) := by
  obtain ⟨line, hline⟩ := demo.handle_eq env command []
  exact congrArg (fun r : Outcome Error Reply × List String => (r.1, ctx)) hline

theorem plain_handler : (demo.handler env).Plain := by
  intro command ctx reply h
  rw [handler_eq] at h
  rcases demo.builds_answer env command with ⟨e, he⟩ | ⟨d, hd⟩
  · rw [he] at h
    cases h
  · rw [hd] at h
    simp only [bind_eq_ok, mapErr_eq_ok, opMsg_eq, ok.injEq, pure_eq, Reply.msg.injEq] at h
    obtain ⟨raw, hraw, _, rfl, rfl⟩ := h
    exact plain_opMsg (framed_of_encode hraw)

end DemoHandler

/-! ## The server -/

namespace Network

variable {crc : Checksum} {build : Build} {config : ServerConfig}

open DemoHandler

/-- A request with a body that can be decoded, and that leaves room for an error message. -/
def Ask.Modest (a : Ask crc build config) : Prop :=
  (∃ d, a.msg.sections.body.deep = .ok d) ∧
    a.msg.sections.body.bytes.length + 200 ≤ maxMsgLen

/-- The reply says what the example server makes of the request. -/
def Ask.ToldBy (a : Ask crc build config) (reply : OpMsg) : Prop :=
  ∃ d, a.msg.sections.body.deep = .ok d ∧ Tells (refusal a.name (d.get a.name)) reply

theorem Ask.Modest.answeredBy {a : Ask crc build config} (h : a.Modest) (demo : DemoHandler)
    (env : Env) : a.AnsweredBy (demo.handler env) a.ToldBy := by
  obtain ⟨⟨d, hdeep⟩, hlen⟩ := h
  intro ctx
  obtain ⟨outcome, reply, hanswer, hanswers, hsendable, htells⟩ :=
    @settles_answer demo env a.command d hdeep a.named hlen a.msg
  exact ⟨outcome, ctx, reply, by rw [handler_eq, hanswer], hanswers, hsendable ctx, d, hdeep, htells⟩

theorem Ask.ToldBy.of_shows {a : Ask crc build config} {reply : OpMsg} {body : MessageBody}
    (h : a.ToldBy reply) (hshows : Shows (.msg reply) body) : ∃ m, body = .msg m ∧ a.ToldBy m := by
  rcases hshows with rfl | ⟨m, c, hm, rfl⟩
  · exact ⟨reply, rfl, h⟩
  · cases hm
    exact ⟨_, rfl, h⟩

/-- **The example server answers.** Clients write well-formed commands, known or not, in any
interleaving with the turns of the server and with each other. The server never gives up on a
connection that stays open. Once everything came to rest, the client has received one message for
each command, in their order and with their ids: that it was carried out, or with the code that
refuses it. -/
theorem example_server_answers {ι : Type} [DecidableEq ι] (crc : Checksum) (build : Build)
    (config : ServerConfig) (demo : DemoHandler) (asks : List (Ask crc build config))
    (actions : List (ι × Action)) (i : ι) (hmodest : ∀ a ∈ asks, a.Modest)
    (hdemo : ∀ now handler, (i, .serve now handler) ∈ actions → ∃ env, handler = demo.handler env)
    (hwritten : (World.run crc build config actions i).written =
      asks.flatMap fun a => a.letter.frame crc)
    (hopen : (World.run crc build config actions i).closed = false) :
    let l := World.run crc build config actions i
    l.result = none ∧ (AtRest crc config l → List.Forall₂ (fun a x =>
      x.1.responseTo = a.letter.header.requestId ∧ ∃ m, x.2 = .msg m ∧ a.ToldBy m)
        asks l.received) := by
  intro l
  have hanswering : Answering asks Ask.ToldBy l := by
    refine answering_run ?_ (hwritten ▸ List.prefix_rfl) hopen
    intro now handler hmem a ha
    obtain ⟨env, rfl⟩ := hdemo now handler hmem
    exact (hmodest a ha).answeredBy demo env
  refine ⟨hanswering.running, fun hrest => ?_⟩
  have hreadable : AllReadable crc l.socket := by
    refine allReadable_run fun now handler hmem => ?_
    obtain ⟨env, rfl⟩ := hdemo now handler hmem
    exact demo.plain_handler env
  refine (hanswering.received (consistent_run actions i) hreadable hwritten hrest).imp ?_
  rintro a x ⟨hid, reply, htold, hshows⟩
  exact ⟨hid, htold.of_shows hshows⟩

/-! A ping to the example server. -/

def demoEnv : Env := ⟨.ascii, 0, ⟨.ok ⟨0, 0⟩, ⟨List.replicate 5 0, rfl⟩⟩, 0⟩

def demoActions : List (Unit × Action) :=
  [((), .write pingFrame), ((), .arrive 100), ((), .serve 0 (handler ⟨1000⟩ demoEnv)), ((), .back 100),
    ((), .recv)]

theorem example_server_answers_ping :
    let l := World.run crc32c Server.Sample.build ⟨1000, false, []⟩ demoActions ()
    List.Forall₂ (fun a x => x.1.responseTo = a.letter.header.requestId ∧
      ∃ m, x.2 = .msg m ∧ a.ToldBy m) [pingAsk] l.received := by
  intro l
  have hlast : (l.written, l.closed, l.uplink, l.inbox, l.downlink, l.buf) =
      (pingFrame, false, [], [], [], []) := by decide +kernel
  simp only [Prod.mk.injEq] at hlast
  obtain ⟨hwritten, hopen, huplink, hinbox, hdownlink, hbuf⟩ := hlast
  have hanswers := example_server_answers crc32c Server.Sample.build ⟨1000, false, []⟩ ⟨1000⟩
    [pingAsk] demoActions () ?_ ?_ hwritten hopen
  · exact hanswers.2 (atRest_of_empty hopen huplink hinbox hdownlink hbuf)
  · intro a ha
    obtain rfl := List.mem_singleton.mp ha
    exact ⟨⟨⟨[⟨"ping", .int32 1⟩]⟩, rfl⟩, by decide⟩
  · intro now handler hmem
    simp only [demoActions, List.mem_cons, Prod.mk.injEq, Action.serve.injEq, reduceCtorEq,
      and_false, true_and, false_or, or_false, List.not_mem_nil] at hmem
    exact ⟨demoEnv, hmem.2⟩

end Network

end MongoWire
