import MongoWire.Api.Bridge
import MongoWire.Auth.Calls
import MongoWire.Bson.Total

/-!
# One command of the SASL bridge

What each step of `saslStart` and `saslContinue` accepts, and what the command
then does to the connection.
-/

open MongoWire.Lib MongoWire.Lib.Outcome

namespace MongoWire

open Scram

namespace ScramBridge

variable {crypto : Crypto} {bridge : ScramBridge}

/-! ## Fields and replies -/

theorem payloadBytes_eq_ok (body : RawDocument) (b : Bytes) :
    payloadBytes body = .ok b ↔ ∃ value, body.get "payload" = .ok (some value) ∧
      ((∃ s, value = .string s ∧ b = utf8 s) ∨ ∃ v, value = .binary v ∧ b = v.bytes) := by
  unfold payloadBytes
  simp only [bind_eq_ok, mapErr_eq_ok]
  constructor
  · rintro ⟨value, hget, hvalue⟩
    split at hvalue
    · exact ⟨_, hget, .inr ⟨_, rfl, (ok.inj hvalue).symm⟩⟩
    · exact ⟨_, hget, .inl ⟨_, rfl, (ok.inj hvalue).symm⟩⟩
    · cases hvalue
    · cases hvalue
  · rintro ⟨_, hget, ⟨s, rfl, rfl⟩ | ⟨v, rfl, rfl⟩⟩
    · exact ⟨_, hget, rfl⟩
    · exact ⟨_, hget, rfl⟩

theorem returns_payloadStr (body : RawDocument) : (payloadStr body).Returns := by
  unfold payloadStr payloadBytes
  simp only [returns_bind, returns_mapErr, returns_ofOption, implies_true, and_true]
  refine ⟨RawDocument.returns_get _ _, fun value _ => ?_⟩
  split <;> trivial

theorem exists_saslReply (conversationId : Int32) (done : Bool) (payload : String)
    (h : (utf8 payload).length + 58 < 2 ^ 31) :
    ∃ m, saslReply conversationId done payload = .ok m := by
  have hnames : (utf8 "conversationId").length = 14 ∧ (utf8 "done").length = 4 ∧
      (utf8 "payload").length = 7 ∧ (utf8 "ok").length = 2 := by decide
  have hnul : 0 ∉ utf8 "conversationId" ∧ 0 ∉ utf8 "done" ∧ 0 ∉ utf8 "payload" ∧ 0 ∉ utf8 "ok" := by
    decide
  have henc : Document.Encodable ⟨[⟨"conversationId", .int32 conversationId⟩,
      ⟨"done", .bool done⟩, ⟨"payload", payloadBson payload⟩, ⟨"ok", Error.one⟩]⟩ := by
    simp only [Document.Encodable, FieldsEncodable, fieldsLayout, Bson.Encodable, Bson.layout,
      payloadBson, Error.one, Bson.asScalar, length_frame, List.length_append, length_elemLayout]
    simp [hnul, hnames, Scalar.Fits, Scalar.layout, Binary.layout, BinarySubtype.extra]
    omega
  obtain ⟨raw, hraw, -⟩ := Document.exists_encode henc
  unfold saslReply
  simp only [hraw, mapErr_ok, ok_bind]
  exact ⟨_, opMsg_eq _ _⟩

theorem saslReply_cases (conversationId : Int32) (done : Bool) (payload : String) :
    (∃ m, saslReply conversationId done payload = .ok m) ∨
      ∃ e, saslReply conversationId done payload = .err (bsonError e) := by
  unfold saslReply
  dsimp only
  generalize hd : (Document.mk _).encode = x
  have hreturns : x.Returns := hd ▸ Document.returns_encode _
  rcases x with raw | e | _ | _
  · exact .inl ⟨_, opMsg_eq _ _⟩
  · exact .inr ⟨e, rfl⟩
  all_goals exact absurd hreturns id

theorem returns_parseMechanism (body : RawDocument) : (parseMechanism body).Returns := by
  unfold parseMechanism
  rw [returns_bind, returns_mapErr]
  refine ⟨RawDocument.returns_get _ _, fun value _ => ?_⟩
  split
  · exact returns_ofOption _ _
  · trivial

theorem returns_openExchange (crypto : Crypto) (bridge : ScramBridge) (random : Bytes)
    (body : RawDocument) : (openExchange crypto bridge random body).Returns := by
  unfold openExchange
  simp only [returns_bind, returns_mapErr, returns_ofOption, true_and]
  refine ⟨returns_parseMechanism body, fun _ _ => ⟨returns_payloadStr body, fun _ _ _ _ _ _ => ?_⟩⟩
  exact ⟨Method.returns_on (ScramServer.returns_handleClientFirst _ _ _) _, fun _ _ => trivial⟩

/-! ## One command -/

theorem saslStart_of_open {random : Bytes} {body : RawDocument} {ctx : ConnectionInfo}
    {mechanism : ScramMechanism} {first : String} {server : ScramServer}
    (hnone : ctx.auth.scram = none)
    (hopen : openExchange crypto bridge random body = .ok (mechanism, first, server)) :
    saslStart crypto bridge random body ctx =
      (saslReply 1 false first >>= fun m => .ok (.msg m),
        ctx.setScram (some (mechanism, server))) := by
  unfold saslStart
  rw [Method.get_bind, Method.require_bind, if_pos hnone, hopen, Method.check_ok_bind]
  dsimp only
  rw [Method.modify_bind, Method.check_bind_pure]

theorem saslStart_in_flight {random : Bytes} {body : RawDocument} {ctx : ConnectionInfo}
    (hsome : ctx.auth.scram ≠ none) :
    saslStart crypto bridge random body ctx = (.err (authFailed
      "saslStart while an authentication exchange is already in progress"), ctx) := by
  unfold saslStart
  rw [Method.get_bind, Method.require_bind, if_neg hsome]

theorem saslStart_of_err {random : Bytes} {body : RawDocument} {ctx : ConnectionInfo} {e : Error}
    (hnone : ctx.auth.scram = none) (hopen : openExchange crypto bridge random body = .err e) :
    saslStart crypto bridge random body ctx = (.err e, ctx) := by
  unfold saslStart
  rw [Method.get_bind, Method.require_bind, if_pos hnone, hopen, Method.check_err_bind]

theorem saslStart_cases (crypto : Crypto) (bridge : ScramBridge) (random : Bytes)
    (body : RawDocument) (ctx : ConnectionInfo) :
    ((saslStart crypto bridge random body ctx).2 = ctx ∧
      ∀ reply, (saslStart crypto bridge random body ctx).1 ≠ .ok reply) ∨
    ∃ mechanism first server, ctx.auth.scram = none ∧
      openExchange crypto bridge random body = .ok (mechanism, first, server) ∧
      saslStart crypto bridge random body ctx =
        (saslReply 1 false first >>= fun m => .ok (.msg m),
          ctx.setScram (some (mechanism, server))) := by
  by_cases hnone : ctx.auth.scram = none
  · by_cases hopen : ∃ x, openExchange crypto bridge random body = .ok x
    · obtain ⟨⟨mechanism, first, server⟩, hopen⟩ := hopen
      exact .inr ⟨mechanism, first, server, hnone, hopen, saslStart_of_open hnone hopen⟩
    · rw [not_exists] at hopen
      obtain ⟨e, he⟩ := (returns_openExchange crypto bridge random body).exists_err hopen
      rw [saslStart_of_err hnone he]
      exact .inl ⟨rfl, nofun⟩
  · rw [saslStart_in_flight hnone]
    exact .inl ⟨rfl, nofun⟩

theorem saslContinue_of_err {body : RawDocument} {ctx : ConnectionInfo} {e : Error}
    (h : payloadStr body = .err e) : saslContinue crypto body ctx = (.err e, ctx) := by
  unfold saslContinue
  rw [h, Method.check_err_bind]

theorem saslContinue_of_close_err {body : RawDocument} {ctx : ConnectionInfo} {payload : String}
    {e : Error} (hpayload : payloadStr body = .ok payload)
    (h : closeExchange crypto ctx.auth.scram payload body = .err e) :
    saslContinue crypto body ctx = (.err e, ctx.setScram none) := by
  unfold saslContinue
  rw [hpayload, Method.check_ok_bind, Method.get_bind, Method.modify_bind, h, Method.check_err_bind]

theorem saslContinue_cases (crypto : Crypto) (body : RawDocument) (ctx : ConnectionInfo) :
    ((∀ payload, payloadStr body ≠ .ok payload) ∧ (saslContinue crypto body ctx).2 = ctx ∧
      ∀ reply, (saslContinue crypto body ctx).1 ≠ .ok reply) ∨
    ∃ payload, payloadStr body = .ok payload ∧
      ((saslContinue crypto body ctx).2 = ctx.setScram none ∧
        (∀ reply, (saslContinue crypto body ctx).1 ≠ .ok reply) ∨
      ∃ id final server,
        closeExchange crypto ctx.auth.scram payload body = .ok (id, final, server) ∧
        saslContinue crypto body ctx =
          (saslReply id true final >>= fun m => .ok (.msg m),
            (ctx.setScram none).setAuthenticated server.username)) := by
  unfold saslContinue
  rcases Method.check_bind_cases (payloadStr body) _ ctx with ⟨payload, hpayload, hrun⟩ | ⟨hno, hkeep, hfail⟩
  · refine .inr ⟨payload, hpayload, ?_⟩
    rw [hrun, Method.get_bind, Method.modify_bind]
    rcases Method.check_bind_cases (closeExchange crypto ctx.auth.scram payload body) _
        (ctx.setScram none) with ⟨⟨id, final, server⟩, hclose, hrun⟩ | ⟨-, hkeep, hfail⟩
    · refine .inr ⟨id, final, server, hclose, hrun.trans ?_⟩
      dsimp only
      rw [Method.modify_bind, Method.check_bind_pure]
    · exact .inl ⟨hkeep, hfail⟩
  · exact .inl ⟨hno, hkeep, hfail⟩

theorem openExchange_eq_ok (random : Bytes) (body : RawDocument) (mechanism : ScramMechanism)
    (first : String) (server : ScramServer) :
    openExchange crypto bridge random body = .ok (mechanism, first, server) ↔
      parseMechanism body = .ok mechanism ∧ ∃ clientFirst username credentials,
        payloadStr body = .ok clientFirst ∧ parseClientFirstUsername clientFirst = some username ∧
        bridge.credentials mechanism username = some credentials ∧
        ScramServer.handleClientFirst crypto clientFirst username credentials
          (.new crypto mechanism random) = (.ok first, server) := by
  unfold openExchange
  simp only [bind_eq_ok, ofOption_eq_ok, mapErr_eq_ok, Prod.exists, Method.on_eq_ok, pure_eq,
    ok.injEq, Prod.mk.injEq]
  constructor
  · rintro ⟨_, hmech, clientFirst, hpayload, username, huser, credentials, hcred, _, _, hfirst,
      rfl, rfl, rfl⟩
    exact ⟨hmech, clientFirst, username, credentials, hpayload, huser, hcred, hfirst⟩
  · rintro ⟨hmech, clientFirst, username, credentials, hpayload, huser, hcred, hfirst⟩
    exact ⟨_, hmech, clientFirst, hpayload, username, huser, credentials, hcred, _, _, hfirst,
      rfl, rfl, rfl⟩

theorem closeExchange_eq_ok (scram : Option (ScramMechanism × ScramServer)) (payload : String)
    (body : RawDocument) (id : Int32) (final : String) (server : ScramServer) :
    closeExchange crypto scram payload body = .ok (id, final, server) ↔
      conversationIdOf body = .ok id ∧ ∃ mechanism before, scram = some (mechanism, before) ∧
        ScramServer.handleClientFinal crypto payload before = (.ok final, server) := by
  unfold closeExchange
  simp only [bind_eq_ok, ofOption_eq_ok, mapErr_eq_ok, Prod.exists, Method.on_eq_ok, pure_eq,
    ok.injEq, Prod.mk.injEq]
  constructor
  · rintro ⟨mechanism, before, hscram, _, hid, _, _, hfinal, rfl, rfl, rfl⟩
    exact ⟨hid, mechanism, before, hscram, hfinal⟩
  · rintro ⟨hid, mechanism, before, hscram, hfinal⟩
    exact ⟨mechanism, before, hscram, _, hid, _, _, hfinal, rfl, rfl, rfl⟩

theorem parseClientFirstUsername_of_clientFirst {msg bare nonce : String}
    (h : ScramServer.ClientFirst msg bare nonce) : ∃ claimed rest,
      Str.split ',' bare = attr usernameKey claimed :: attr nonceKey nonce :: rest ∧
      parseClientFirstUsername msg = some (unescapeUsername claimed) := by
  obtain ⟨claimed, rest, hparse⟩ := h.parts
  have hsplit := (parseAttributes_eq_ok _ _).mp hparse
  refine ⟨claimed, _, hsplit, ?_⟩
  unfold parseClientFirstUsername
  rw [h.header, show gs2NoBindingHeader = "n,," from rfl, Str.stripPrefix_append, Option.getD_some]
  have hattr : attr usernameKey claimed = "n=" ++ claimed := attr_eq_append _ rfl claimed
  simp [hsplit, hattr]

theorem handleCommand_saslStart {start : Command} (h : start.name = "saslStart") (random : Bytes) :
    handleCommand crypto bridge random start = saslStart crypto bridge random start.body := by
  unfold handleCommand
  rw [if_pos h]

theorem handleCommand_saslContinue {command : Command} (h : command.name = "saslContinue")
    (random : Bytes) :
    handleCommand crypto bridge random command = saslContinue crypto command.body := by
  unfold handleCommand
  rw [if_neg (by rw [h]; decide), if_pos h]

end ScramBridge

end MongoWire
