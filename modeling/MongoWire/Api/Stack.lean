import MongoWire.Api.BridgeRuns
import MongoWire.Api.Builtin
import MongoWire.Lib.Preserves

/-!
# The handlers of a server

The stack of the documentation of `mongowire/src/api/mod.rs`: the built-in commands around the SASL
bridge around the server's own handler. What a connection knows about its user is what the bridge
alone would know.
-/

open MongoWire.Lib MongoWire.Lib.Outcome

namespace MongoWire

/-! ## The bridge as a handler -/

namespace ScramBridge

variable (crypto : Crypto) (bridge : ScramBridge) (random : Bytes)

theorem returns_conversationIdOf (body : RawDocument) : (conversationIdOf body).Returns := by
  have hget : ∃ o, (toOption (body.get "conversationId") : Outcome Error _) = .ok o :=
    (RawDocument.returns_get body "conversationId").exists_toOption
  obtain ⟨id, hid⟩ := hget
  unfold conversationIdOf
  rw [hid, ok_bind]
  split <;> trivial

theorem returns_closeExchange (scram : Option (ScramMechanism × ScramServer)) (payload : String)
    (body : RawDocument) : (closeExchange crypto scram payload body).Returns := by
  unfold closeExchange
  simp only [returns_bind, returns_mapErr, returns_ofOption, true_and]
  intro _ _
  refine ⟨returns_conversationIdOf body, fun _ _ => ⟨?_, fun _ _ => trivial⟩⟩
  exact Method.returns_on (ScramServer.returns_handleClientFinal _) _

theorem returns_saslReply (conversationId : Int32) (done : Bool) (payload : String) :
    (saslReply conversationId done payload).Returns := by
  rcases saslReply_cases conversationId done payload with ⟨m, h⟩ | ⟨e, h⟩
  · rw [h]; trivial
  · rw [h]; trivial

theorem returns_saslStart (body : RawDocument) : (saslStart crypto bridge random body).Returns := by
  unfold saslStart
  refine Method.returns_get.bind fun _ => (Method.returns_require _ _).bind fun _ => ?_
  refine (Method.returns_check (returns_openExchange ..)).bind fun _ => ?_
  refine (Method.returns_modify _).bind fun _ => ?_
  exact (Method.returns_check (returns_saslReply ..)).bind fun _ => Method.returns_pure _

theorem returns_saslContinue (body : RawDocument) : (saslContinue crypto body).Returns := by
  unfold saslContinue
  refine (Method.returns_check (returns_payloadStr body)).bind fun _ => Method.returns_get.bind fun _ => ?_
  refine (Method.returns_modify _).bind fun _ => ?_
  refine (Method.returns_check (returns_closeExchange ..)).bind fun _ => ?_
  refine (Method.returns_modify _).bind fun _ => ?_
  exact (Method.returns_check (returns_saslReply ..)).bind fun _ => Method.returns_pure _

def handler : Handler where
  handleCommand := handleCommand crypto bridge random
  returns command := by
    unfold handleCommand
    split
    · exact returns_saslStart crypto bridge random command.body
    · split
      · exact returns_saslContinue crypto command.body
      · exact bridge.inner.returns command

/-- The bridge in front of nothing. -/
def alone (credentials : CredentialSource) : ScramBridge :=
  ⟨⟨fun _ => pure .noReply, fun _ => Method.returns_pure _⟩, credentials⟩

theorem saslContinue_of_close {body : RawDocument} {ctx : ConnectionInfo} {payload final : String}
    {id : Int32} {server : ScramServer} (hpayload : payloadStr body = .ok payload)
    (hclose : closeExchange crypto ctx.auth.scram payload body = .ok (id, final, server)) :
    saslContinue crypto body ctx =
      (saslReply id true final >>= fun m => .ok (.msg m),
        (ctx.setScram none).setAuthenticated server.username) := by
  unfold saslContinue
  rw [hpayload, Method.check_ok_bind, Method.get_bind, Method.modify_bind, hclose,
    Method.check_ok_bind]
  dsimp only
  rw [Method.modify_bind, Method.check_bind_pure]

/-! ## What depends on what -/

theorem auth_setScram {ctx ctx' : ConnectionInfo} (h : ctx.auth = ctx'.auth)
    (scram : Option (ScramMechanism × ScramServer)) :
    (ctx.setScram scram).auth = (ctx'.setScram scram).auth := by
  unfold ConnectionInfo.setScram
  rw [h]

section Auth

variable {crypto} {ctx ctx' : ConnectionInfo} (hctx : ctx.auth = ctx'.auth)

include hctx

theorem auth_saslStart {bridge bridge' : ScramBridge}
    (hcredentials : bridge.credentials = bridge'.credentials) (random : Bytes) (body : RawDocument) :
    (saslStart crypto bridge random body ctx).2.auth =
      (saslStart crypto bridge' random body ctx').2.auth := by
  have hopen : openExchange crypto bridge random body = openExchange crypto bridge' random body := by
    unfold openExchange
    rw [hcredentials]
  by_cases hnone : ctx.auth.scram = none
  · have hnone' : ctx'.auth.scram = none := hctx ▸ hnone
    have hreturns := returns_openExchange crypto bridge random body
    rcases hresult : openExchange crypto bridge random body with ⟨m, first, server⟩ | e | _ | _
    · rw [saslStart_of_open hnone hresult, saslStart_of_open hnone' (hopen ▸ hresult)]
      exact auth_setScram hctx _
    · rw [saslStart_of_err hnone hresult, saslStart_of_err hnone' (hopen ▸ hresult)]
      exact hctx
    all_goals
      rw [hresult] at hreturns
      exact absurd hreturns id
  · rw [saslStart_in_flight hnone, saslStart_in_flight (hctx ▸ hnone)]
    exact hctx

theorem auth_saslContinue (body : RawDocument) :
    (saslContinue crypto body ctx).2.auth = (saslContinue crypto body ctx').2.auth := by
  have hreturns := returns_payloadStr body
  rcases hpayload : payloadStr body with payload | e | _ | _
  · have hreturns := returns_closeExchange crypto ctx.auth.scram payload body
    rcases hclose : closeExchange crypto ctx.auth.scram payload body with ⟨id, final, server⟩ | e | _ | _
    · rw [saslContinue_of_close crypto hpayload hclose,
        saslContinue_of_close crypto hpayload (hctx ▸ hclose)]
      rfl
    · rw [saslContinue_of_close_err hpayload hclose,
        saslContinue_of_close_err hpayload (hctx ▸ hclose)]
      exact auth_setScram hctx none
    all_goals
      rw [hclose] at hreturns
      exact absurd hreturns id
  · rw [saslContinue_of_err hpayload, saslContinue_of_err hpayload]
    exact hctx
  all_goals
    rw [hpayload] at hreturns
    exact absurd hreturns id

end Auth

end ScramBridge

/-! ## The stack -/

/-- What a server puts together for a command: its own handler, which leaves the authentication
state to the bridge, the settings of the built-in commands, the time, and the random bytes of a
nonce. -/
structure Stack where
  inner : Handler
  keeps : ∀ command ctx, (inner.handleCommand command ctx).2.auth = ctx.auth
  compressors : List CompressorId
  maxMsgLen : Int32
  now : Int64
  random : Bytes

namespace Stack

variable (crypto : Crypto) (credentials : CredentialSource) (stack : Stack)

def bridge : ScramBridge := ⟨stack.inner, credentials⟩

def handler : Handler :=
  BuiltinHandler.handler ⟨(stack.bridge credentials).handler crypto stack.random,
    stack.compressors, stack.maxMsgLen⟩ stack.now

variable {crypto credentials stack}

theorem auth_builtin {command : Command} {ctx : ConnectionInfo}
    (h : Server.isHandshake command.name = true ∨ command.name = "ping") :
    ((stack.handler crypto credentials).handleCommand command ctx).2.auth = ctx.auth := by
  have hpreserves : Method.Preserves (fun c : ConnectionInfo => c.auth = ctx.auth)
      ((stack.handler crypto credentials).handleCommand command) := by
    show Method.Preserves _ (BuiltinHandler.handleCommand _ _ _)
    unfold BuiltinHandler.handleCommand
    split
    · refine Method.preserves_check_bind fun requested _ => ?_
      refine Method.preserves_modify_bind (fun c hc => hc) ?_
      exact Method.preserves_check_bind fun _ _ => Method.preserves_pure _
    · rename_i hhandshake
      rw [if_pos (h.resolve_left hhandshake)]
      exact Method.preserves_check_bind fun _ _ => Method.preserves_pure _
  exact hpreserves ctx rfl

theorem handleCommand_of_not_builtin {command : Command}
    (h : ¬ (Server.isHandshake command.name = true ∨ command.name = "ping")) :
    (stack.handler crypto credentials).handleCommand command =
      ScramBridge.handleCommand crypto (stack.bridge credentials) stack.random command := by
  obtain ⟨hhandshake, hping⟩ := not_or.mp h
  show BuiltinHandler.handleCommand _ _ _ = _
  unfold BuiltinHandler.handleCommand
  rw [if_neg hhandshake, if_neg hping]
  rfl

theorem auth_handler {command : Command} {ctx ctx' : ConnectionInfo} (hctx : ctx.auth = ctx'.auth) :
    ((stack.handler crypto credentials).handleCommand command ctx).2.auth =
      (ScramBridge.handleCommand crypto (.alone credentials) stack.random command ctx').2.auth := by
  by_cases hstart : command.name = "saslStart"
  · rw [handleCommand_of_not_builtin (by rw [hstart]; decide),
      ScramBridge.handleCommand_saslStart hstart, ScramBridge.handleCommand_saslStart hstart]
    exact ScramBridge.auth_saslStart hctx rfl _ _
  by_cases hcontinue : command.name = "saslContinue"
  · rw [handleCommand_of_not_builtin (by rw [hcontinue]; decide),
      ScramBridge.handleCommand_saslContinue hcontinue,
      ScramBridge.handleCommand_saslContinue hcontinue]
    exact ScramBridge.auth_saslContinue hctx _
  have hother (bridge : ScramBridge) : ScramBridge.handleCommand crypto bridge stack.random command =
      bridge.inner.handleCommand command := by
    unfold ScramBridge.handleCommand
    rw [if_neg hstart, if_neg hcontinue]
  rw [hother]
  refine Eq.trans ?_ hctx
  by_cases hbuiltin : Server.isHandshake command.name = true ∨ command.name = "ping"
  · exact auth_builtin hbuiltin
  · rw [handleCommand_of_not_builtin hbuiltin, hother]
    exact stack.keeps command ctx

end Stack

/-! ## The connection loop -/

namespace Server

open Method

variable {crc : Checksum}

/-- The command that an arrival asks for. -/
def asked (build : Build) (config : ServerConfig) (arrival : Arrival) : Option Command :=
  match arrival.frame with
  | .error _ => none
  | .ok (_, wire) =>
    match Ingress.unwrap build config.maxMsgLen wire with
    | .ok (.msg m) =>
      match m.sections.body.command with
      | .ok name => some ⟨name, m.sections.body, m.sections.sequences, m.flags⟩
      | _ => none
    | _ => none

section Auth

variable {auth : AuthState}

theorem keeps_sendReply (responseTo : Int32) (body : MessageBody) :
    Preserves (fun s : Socket => s.ctx.auth = auth) (sendReply crc responseTo body) := by
  intro s hs
  rw [sendReply_eq]
  refine (show Preserves (fun s : Socket => s.ctx.auth = auth) _ from
    preserves_check_bind fun _ _ => ?_) _ hs
  exact preserves_modify fun _ h => h

theorem keeps_handshake (responseTo : Int32) (x : Outcome Error OpMsg) :
    Preserves (fun s : Socket => s.ctx.auth = auth) (check (mapErr Exit.invalidData x) >>= fun reply =>
      sendReply crc responseTo (.reply (queryHandshakeReply reply.sections.body))) :=
  preserves_check_bind fun _ _ => keeps_sendReply _ _

theorem keeps_processQuery (config : ServerConfig) (now : Int64) (header : Header) (q : OpQuery) :
    Preserves (fun s : Socket => s.ctx.auth = auth) (processQuery crc config now header q) := by
  unfold processQuery
  refine preserves_check_bind fun name _ => ?_
  split
  · refine preserves_check_bind fun o _ => ?_
    rcases o with _ | reply
    · exact preserves_pure ()
    · exact keeps_sendReply _ _
  · refine preserves_check_bind fun requested _ => ?_
    exact preserves_modify_bind (fun s hs => hs) (keeps_handshake _ _)

end Auth

theorem auth_processMsg (handler : Handler) (header : Header) {m : OpMsg} {name : String}
    (hname : m.sections.body.command = .ok name) (s : Socket) :
    (processMsg crc handler header m s).2.ctx.auth =
      (handler.handleCommand ⟨name, m.sections.body, m.sections.sequences, m.flags⟩ s.ctx).2.auth := by
  obtain ⟨outcome, ctx, hrun⟩ := exists_handlerRun handler
    ⟨name, m.sections.body, m.sections.sequences, m.flags⟩ s.ctx
  unfold processMsg
  rw [hname, mapErr_ok, check_ok_bind, bind_of_ok (callHandler_eq hrun), hrun]
  -- What follows only answers.
  refine (show Preserves (fun s : Socket => s.ctx.auth = ctx.auth) _ from ?_) _ rfl
  split
  · exact preserves_pure ()
  · rcases outcome with e | reply | _
    · refine preserves_check_bind fun o _ => ?_
      rcases o with _ | reply
      · exact preserves_check _
      · exact keeps_sendReply _ _
    · exact keeps_sendReply _ _
    · exact preserves_pure ()

theorem auth_processFrame (build : Build) (config : ServerConfig) (handler : Handler)
    (arrival : Arrival) (s : Socket) :
    (processFrame crc build config handler arrival s).2.ctx.auth =
      match asked build config arrival with
      | none => s.ctx.auth
      | some command => (handler.handleCommand command s.ctx).2.auth := by
  unfold processFrame asked
  rcases arrival.frame with _ | ⟨header, wire⟩
  · rfl
  · dsimp only
    rcases Ingress.unwrap build config.maxMsgLen wire with body | _ | _ | _
    · rw [mapErr_ok, check_ok_bind]
      rcases body with m | q | _ | _
      · dsimp only
        have hreturns := RawDocument.returns_command m.sections.body
        rcases hname : m.sections.body.command with name | e | _ | _
        · exact auth_processMsg handler header hname s
        · unfold processMsg
          rw [hname]
          rfl
        all_goals
          rw [hname] at hreturns
          exact absurd hreturns id
      · exact keeps_processQuery config arrival.now header q s rfl
      all_goals rfl
    all_goals rfl

end Server

end MongoWire
