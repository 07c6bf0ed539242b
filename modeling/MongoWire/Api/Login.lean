import MongoWire.Api.Stack
import MongoWire.Api.Usernames
import MongoWire.Auth.Exchange
import MongoWire.Bson.Encoded

/-!
# Logging in

`MemoryCredentialSource` of `mongowire/src/api/auth.rs`, and a client that authenticates with it
through the bridge: the SASL commands that a driver sends, as the tests of the source build them,
and the payloads that it takes out of the replies.
-/

open MongoWire.Lib MongoWire.Lib.Outcome

namespace MongoWire

open Scram

/-! ## The credential store -/

/-- `default_iterations`. -/
def ScramMechanism.defaultIterations : ScramMechanism → UInt32
  | .sha1 => 10000
  | .sha256 => 15000

/-- The map of the users, which holds one entry for a mechanism and a username. -/
structure MemoryCredentialSource where
  users : ScramMechanism × String → Option StoredCredentials

namespace MemoryCredentialSource

def new : MemoryCredentialSource := ⟨fun _ => none⟩

def salt : Bytes := [0, 1, 2, 3, 4, 5, 6, 7, 8, 9, 10, 11, 12, 13, 14, 15]

variable (crypto : Crypto)

def insert (store : MemoryCredentialSource) (mechanism : ScramMechanism)
    (username password : String) : MemoryCredentialSource :=
  let effective := match mechanism with
    | .sha1 => mongoSha1Password crypto username password
    | .sha256 => password
  let credentials := StoredCredentials.derive crypto mechanism effective salt
    mechanism.defaultIterations
  ⟨Function.update store.users (mechanism, username) (some credentials)⟩

def lookup (store : MemoryCredentialSource) : CredentialSource :=
  fun mechanism username => store.users (mechanism, username)

/-- The entries of an account: its mechanism, name and password. -/
abbrev Account := ScramMechanism × String × String

def ofInserts (accounts : List Account) : MemoryCredentialSource :=
  accounts.foldl (fun store a => store.insert crypto a.1 a.2.1 a.2.2) .new

theorem lookup_ofInserts {accounts before after : List Account} {mechanism : ScramMechanism}
    {username password : String}
    (haccounts : accounts = before ++ (mechanism, username, password) :: after)
    (hlast : ∀ a ∈ after, ¬ (a.1 = mechanism ∧ a.2.1 = username)) :
    (ofInserts crypto accounts).lookup mechanism username = some (.derive crypto mechanism
      (effectivePassword crypto mechanism username password) salt mechanism.defaultIterations) := by
  subst haccounts
  induction after using List.reverseRecOn with
  | nil =>
    rw [ofInserts, List.foldl_append, lookup]
    cases mechanism <;> exact Function.update_self ..
  | append_singleton after a ih =>
    obtain ⟨hlast, ha⟩ := List.forall_mem_append.mp hlast
    have hne : (mechanism, username) ≠ (a.1, a.2.1) := by
      intro heq
      exact ha a (List.mem_singleton_self a)
        ⟨(congrArg Prod.fst heq).symm, (congrArg Prod.snd heq).symm⟩
    rw [← List.cons_append, ← List.append_assoc, ofInserts, List.foldl_append, lookup]
    exact (Function.update_of_ne hne ..).trans (ih hlast)

end MemoryCredentialSource

/-! ## The client's side -/

/-- `unwrap`. -/
def unwrap {ε ε' α : Type} : Outcome ε α → Outcome ε' α
  | .ok a => .ok a
  | .hang => .hang
  | _ => .panic

theorem unwrap_on_bind {ε ε' σ α β : Type} {m : Method ε σ α} {t t' : σ} {a : α}
    {f : α × σ → Outcome ε' β} (h : m t = (.ok a, t')) : (unwrap (m.on t) >>= f) = f (a, t') := by
  rw [(Method.on_eq_ok m t t' a).mpr h]
  rfl

namespace ScramBridge

/-- The command that a driver sends, with its payload as a binary. -/
def saslDoc (name : String) (mechanism : Option String) (payload : String) : Document :=
  ⟨⟨name, .int32 1⟩ :: (mechanism.toList.map fun m => ⟨"mechanism", .string m⟩) ++
    [⟨"payload", payloadBson payload⟩, ⟨"conversationId", .int32 1⟩, ⟨"$db", .string "admin"⟩]⟩

def saslCommand (name : String) (mechanism : Option String) (payload : String) :
    Outcome Error Command := do
  let body ← unwrap (saslDoc name mechanism payload).encode
  return ⟨name, body, [], ⟨0⟩⟩

def replyPayload (reply : Document) : Outcome Error String :=
  match reply.get "payload" with
  | some (.binary ⟨.generic, bytes⟩) => unwrap (ofOption () (fromUtf8 bytes))
  | _ => .panic

/-- The assertions on the other fields of a reply. -/
def expectReply (done : Bool) (reply : Document) : Outcome Error Unit :=
  match reply.get "ok", reply.get "conversationId", reply.get "done" with
  | some (.double status), some (.int32 id), some (.bool finished) =>
    if status = 0x3FF0000000000000 ∧ id = 1 ∧ finished = done then .ok () else .panic
  | _, _, _ => .panic

variable (crypto : Crypto) (bridge : ScramBridge)

/-- One command through the bridge, and the document of its reply. -/
def handle (random : Bytes) (command : Command) (ctx : ConnectionInfo) :
    Outcome Error (Document × ConnectionInfo) := do
  match ← (handleCommand crypto bridge random command).on ctx with
  | (.msg m, ctx) => return (← unwrap m.sections.body.shallow, ctx)
  | (.noReply, _) => .panic

/-- `run_exchange`: a whole exchange, here with other commands between its two steps. -/
def runExchange (client : ScramClient) (random : Bytes) (others : List (Command × Bytes))
    (ctx : ConnectionInfo) : Outcome Error (ScramClient × ConnectionInfo) := do
  let (first, client) ← unwrap (ScramClient.clientFirstMessage.on client)
  let start ← saslCommand "saslStart" (some client.mechanism.name) first
  let (reply, ctx) ← handle crypto bridge random start ctx
  expectReply false reply
  let serverFirst ← replyPayload reply
  let (_, client) ← unwrap ((ScramClient.receiveServerFirst crypto serverFirst).on client)
  let ctx := run crypto bridge ctx others
  let (final, client) ← unwrap ((ScramClient.clientFinalMessage crypto).on client)
  let continuation ← saslCommand "saslContinue" none final
  let (reply, ctx) ← handle crypto bridge [] continuation ctx
  expectReply true reply
  let serverFinal ← replyPayload reply
  let (_, client) ← unwrap ((ScramClient.receiveServerFinal crypto serverFinal).on client)
  if ctx.auth.authenticated = some client.username ∧ ctx.auth.scram = none then
    return (client, ctx)
  else .panic

/-! ## What the documents hold -/

/-- The text of a payload leaves room for the rest of its document. -/
def Short (text : String) : Prop := (utf8 text).length + 200 < 2 ^ 31

/-- The fields of a SASL command as the bridge reads them. -/
structure Carries (body : RawDocument) (mechanism : Option ScramMechanism) (payload : String) :
    Prop where
  payload : payloadStr body = .ok payload
  conversation : conversationIdOf body = .ok 1
  mechanism : ∀ m, mechanism = some m → parseMechanism body = .ok m

section Documents

variable {name : String} (hname : name = "saslStart" ∨ name = "saslContinue")
  (mechanism : Option ScramMechanism) {payload : String}

include hname

theorem encodable_saslDoc (h : Short payload) :
    (saslDoc name (mechanism.map ScramMechanism.name) payload).Encodable := by
  have hnames : (utf8 "mechanism").length = 9 ∧ (utf8 "payload").length = 7 ∧
      (utf8 "conversationId").length = 14 ∧ (utf8 "$db").length = 3 ∧ (utf8 "admin").length = 5 ∧
      (utf8 "saslStart").length = 9 ∧ (utf8 "saslContinue").length = 12 ∧
      (utf8 "SCRAM-SHA-1").length = 11 ∧ (utf8 "SCRAM-SHA-256").length = 13 := by decide
  have hnul : 0 ∉ utf8 "mechanism" ∧ 0 ∉ utf8 "payload" ∧ 0 ∉ utf8 "conversationId" ∧
      0 ∉ utf8 "$db" ∧ 0 ∉ utf8 "saslStart" ∧ 0 ∉ utf8 "saslContinue" := by decide
  unfold Short at h
  unfold saslDoc
  rcases hname with rfl | rfl
  all_goals rcases mechanism with _ | _ | _
  all_goals
    simp only [Option.map_none, Option.map_some, Option.toList_none, Option.toList_some,
      List.map_nil, List.map_cons, List.cons_append, List.nil_append, ScramMechanism.name,
      Document.Encodable, FieldsEncodable, fieldsLayout, Bson.Encodable, Bson.layout, payloadBson,
      Bson.asScalar, length_frame, List.length_append, length_elemLayout]
    simp [hnul, hnames, Scalar.Fits, Scalar.layout, Binary.layout, BinarySubtype.extra]
    omega

theorem carries_of_encode {body : RawDocument}
    (henc : (saslDoc name (mechanism.map ScramMechanism.name) payload).encode = .ok body) :
    Carries body mechanism payload := by
  have hrange : (saslDoc name (mechanism.map ScramMechanism.name) payload).InRange := by
    cases mechanism <;> simp [saslDoc, Document.InRange, FieldsInRange, Bson.InRange, payloadBson,
      BinarySubtype.InRange]
  have hdepth : (saslDoc name (mechanism.map ScramMechanism.name) payload).depth ≤
      maxNestingDepth := by
    cases mechanism <;> simp [saslDoc, Document.depth, fieldsDepth, Bson.depth, payloadBson,
      maxNestingDepth]
  have hget (key : String) (s : Scalar) :=
    @RawDocument.get_scalar_of_encode _ body hrange hdepth henc key s
  have hpayload := hget "payload" (.binary ⟨.generic, utf8 payload⟩) (by
    rcases hname with rfl | rfl <;> cases mechanism <;> rfl)
  have hconversation := hget "conversationId" (.int32 1) (by
    rcases hname with rfl | rfl <;> cases mechanism <;> rfl)
  refine ⟨?_, ?_, ?_⟩
  · unfold payloadStr payloadBytes
    rw [hpayload]
    simp [RawBsonRef.ofScalar]
  · unfold conversationIdOf
    rw [hconversation]
    rfl
  · rintro m rfl
    have hmechanism := hget "mechanism" (.string m.name) (by
      rcases hname with rfl | rfl <;> rfl)
    unfold parseMechanism
    rw [hmechanism]
    cases m <;> rfl

theorem exists_saslCommand (h : Short payload) : ∃ body,
    saslCommand name (mechanism.map ScramMechanism.name) payload = .ok ⟨name, body, [], ⟨0⟩⟩ ∧
      Carries body mechanism payload := by
  obtain ⟨body, henc, -⟩ := Document.exists_encode (encodable_saslDoc hname mechanism h)
  refine ⟨body, ?_, carries_of_encode hname mechanism henc⟩
  unfold saslCommand
  rw [henc]
  rfl

end Documents

/-- What the client finds in a reply of the bridge. -/
structure Tells (reply : Document) (done : Bool) (payload : String) : Prop where
  fields : expectReply done reply = .ok ()
  payload : replyPayload reply = .ok payload

theorem exists_reply (done : Bool) {payload : String} (h : Short payload) : ∃ m reply,
    saslReply 1 done payload = .ok m ∧ m.sections.body.shallow = .ok reply ∧
      Tells reply done payload := by
  obtain ⟨m, hm⟩ := exists_saslReply 1 done payload (by unfold Short at h; omega)
  have hreply := hm
  unfold saslReply at hreply
  simp only [bind_eq_ok, mapErr_eq_ok, opMsg_eq, ok.injEq] at hreply
  obtain ⟨raw, henc, rfl⟩ := hreply
  have hdeep := RawDocument.deep_of_encode (by
      simp [Document.InRange, FieldsInRange, Bson.InRange, payloadBson, BinarySubtype.InRange,
        Error.one])
    (by simp [Document.depth, fieldsDepth, Bson.depth, payloadBson, maxNestingDepth, Error.one]) henc
  rw [← RawDocument.shallow_eq_deep] at hdeep
  refine ⟨_, _, hm, hdeep, by cases done <;> rfl, ?_⟩
  have hpayload : Document.get ⟨[⟨"conversationId", .int32 1⟩, ⟨"done", .bool done⟩,
      ⟨"payload", payloadBson payload⟩, ⟨"ok", Error.one⟩]⟩ "payload" =
      some (payloadBson payload) := rfl
  unfold replyPayload
  rw [hpayload]
  simp [payloadBson, unwrap]

/-! ## The two steps -/

section Steps

variable {crypto : Crypto} {bridge : ScramBridge}

theorem handle_of_reply {random : Bytes} {command : Command} {ctx ctx' : ConnectionInfo}
    {done : Bool} {payload : String} (hshort : Short payload)
    (hrun : handleCommand crypto bridge random command ctx =
      (saslReply 1 done payload >>= fun m => .ok (.msg m), ctx')) :
    ∃ reply, handle crypto bridge random command ctx = .ok (reply, ctx') ∧
      Tells reply done payload := by
  obtain ⟨m, reply, hm, hshallow, htells⟩ := exists_reply done hshort
  rw [hm, ok_bind] at hrun
  refine ⟨reply, ?_, htells⟩
  unfold handle
  rw [Method.on_bind hrun]
  dsimp only
  rw [hshallow]
  rfl

variable {mechanism : ScramMechanism} {username first final : String}
  {credentials : StoredCredentials} {server server' : ScramServer} {ctx : ConnectionInfo}

theorem handle_saslStart {body : RawDocument} {clientFirst : String} {random : Bytes}
    (hbody : Carries body (some mechanism) clientFirst) (hnone : ctx.auth.scram = none)
    (huser : parseClientFirstUsername clientFirst = some username)
    (hlookup : bridge.credentials mechanism username = some credentials)
    (hserver : ScramServer.handleClientFirst crypto clientFirst username credentials
      (.new crypto mechanism random) = (.ok first, server)) (hshort : Short first) :
    ∃ reply, handle crypto bridge random ⟨"saslStart", body, [], ⟨0⟩⟩ ctx =
        .ok (reply, ctx.setScram (some (mechanism, server))) ∧ Tells reply false first := by
  have hopen := (openExchange_eq_ok random body mechanism first server).mpr
    ⟨hbody.mechanism mechanism rfl, clientFirst, username, credentials, hbody.payload, huser,
      hlookup, hserver⟩
  apply handle_of_reply hshort
  rw [handleCommand_saslStart rfl]
  exact saslStart_of_open hnone hopen

theorem handle_saslContinue {body : RawDocument} {clientFinal : String}
    (hbody : Carries body none clientFinal) (hscram : ctx.auth.scram = some (mechanism, server))
    (hserver : ScramServer.handleClientFinal crypto clientFinal server = (.ok final, server'))
    (hshort : Short final) :
    ∃ reply, handle crypto bridge [] ⟨"saslContinue", body, [], ⟨0⟩⟩ ctx =
        .ok (reply, (ctx.setScram none).setAuthenticated server'.username) ∧
      Tells reply true final := by
  have hclose := (closeExchange_eq_ok ctx.auth.scram clientFinal body 1 final server').mpr
    ⟨hbody.conversation, mechanism, server, hscram, hserver⟩
  apply handle_of_reply hshort
  rw [handleCommand_saslContinue rfl]
  exact saslContinue_of_close crypto hbody.payload hclose

theorem auth_run_of_in_flight
    (hinner : ∀ command ctx, (bridge.inner.handleCommand command ctx).2.auth = ctx.auth)
    (hflight : ctx.auth.scram ≠ none) (others : List (Command × Bytes))
    (hothers : ∀ x ∈ others, x.1.name ≠ "saslContinue") :
    (run crypto bridge ctx others).auth = ctx.auth := by
  induction others generalizing ctx with
  | nil => rfl
  | cons x others ih =>
    obtain ⟨hx, hothers⟩ := List.forall_mem_cons.mp hothers
    have hkeep : (run crypto bridge ctx [x]).auth = ctx.auth := by
      rw [run_singleton]
      rcases handleCommand_cases hinner ctx x with ⟨hkeep, -⟩ | ⟨_, _, _, hstarts, -⟩ | ⟨hname, -⟩
      · exact hkeep
      · exact absurd hstarts.2.1 hflight
      · exact absurd hname hx
    rw [← List.singleton_append, run_append, ih (by rwa [hkeep]) hothers, hkeep]

end Steps

end ScramBridge

/-! ## The whole exchange -/

namespace Honest

variable (crypto : Crypto) (x : Honest)

def messages : List String :=
  ["n,," ++ x.client.bare, x.serverFirst crypto, x.clientFinal crypto, x.serverFinal crypto]

end Honest

namespace ScramBridge

variable {crypto : Crypto} {digestLen : ScramMechanism → Nat} {bridge : ScramBridge}

/-- What a client and a bridge need to know of one another. -/
structure Expects (crypto : Crypto) (bridge : ScramBridge) (x : Honest) (random : Bytes) : Prop where
  account : bridge.credentials x.mechanism x.username = some (x.credentials crypto)
  nonce : x.serverNonce = Scram.generateNonce crypto random
  short : ∀ text ∈ x.messages crypto, Short text
  inner : ∀ command ctx, (bridge.inner.handleCommand command ctx).2.auth = ctx.auth

theorem runExchange_of_expects (hlaw : crypto.Lawful digestLen) {x : Honest} {random : Bytes}
    (h : Expects crypto bridge x random) {ctx : ConnectionInfo} (hctx : ctx.auth.scram = none)
    {others : List (Command × Bytes)} (hothers : ∀ y ∈ others, y.1.name ≠ "saslContinue") :
    let between := run crypto bridge (ctx.setScram (some (x.mechanism, x.serverWaiting crypto))) others
    runExchange crypto bridge x.client random others ctx =
      .ok ({ x.clientProved crypto with state := .done },
        (between.setScram none).setAuthenticated x.username) := by
  intro between
  have hshort := h.short
  simp only [Honest.messages, List.forall_mem_cons] at hshort
  obtain ⟨hclientFirst, hserverFirst, hclientFinal, hserverFinal, -⟩ := hshort
  -- The first step leaves the server waiting.
  obtain ⟨startBody, hstart, hstartBody⟩ :=
    exists_saslCommand (.inl rfl) (some x.mechanism) hclientFirst
  have huser := (parseClientFirstUsername_eq_some _ _).mpr
    ⟨_, usernameText_bare x.client, unescapeUsername_escapeUsername x.username⟩
  have hserver := x.handleClientFirst_server crypto
  rw [Honest.server, h.nonce] at hserver
  obtain ⟨first, hfirst, hfirstTells⟩ :=
    handle_saslStart hstartBody hctx huser h.account hserver hserverFirst
  -- It still waits when the proof arrives.
  have hscram : between.auth.scram = some (x.mechanism, x.serverWaiting crypto) :=
    congrArg AuthState.scram (auth_run_of_in_flight h.inner (Option.some_ne_none _) others hothers)
  obtain ⟨continueBody, hcontinue, hcontinueBody⟩ :=
    exists_saslCommand (.inr rfl) none hclientFinal
  obtain ⟨final, hfinal, hfinalTells⟩ := @handle_saslContinue crypto bridge _ _ _ _ _ _ _
    hcontinueBody hscram (x.handleClientFinal_waiting hlaw) hserverFinal
  rw [Option.map_some] at hstart
  rw [Option.map_none] at hcontinue
  unfold runExchange
  rw [unwrap_on_bind x.clientFirstMessage_client]
  dsimp only
  rw [show x.clientSent.mechanism = x.mechanism from rfl, hstart, ok_bind, hfirst, ok_bind]
  dsimp only
  rw [hfirstTells.fields, ok_bind, hfirstTells.payload, ok_bind,
    unwrap_on_bind (x.receiveServerFirst_sent hlaw)]
  dsimp only
  rw [unwrap_on_bind (x.clientFinalMessage_ready crypto)]
  dsimp only
  rw [hcontinue, ok_bind, hfinal, ok_bind]
  dsimp only
  rw [hfinalTells.fields, ok_bind, hfinalTells.payload, ok_bind,
    unwrap_on_bind (x.receiveServerFinal_proved hlaw)]
  exact if_pos ⟨rfl, rfl⟩

/-- The exchange of a client that knows the password of an account. -/
def login (hlaw : crypto.Lawful digestLen) (mechanism : ScramMechanism) (username password : String)
    (clientRandom random : Bytes) (hnonce : generateNonce crypto clientRandom ≠ "") : Honest where
  mechanism := mechanism
  username := username
  password := effectivePassword crypto mechanism username password
  salt := MemoryCredentialSource.salt
  iterations := mechanism.defaultIterations
  clientNonce := generateNonce crypto clientRandom
  serverNonce := generateNonce crypto random
  one_le := by cases mechanism <;> decide
  le_max := by cases mechanism <;> decide
  nonce_ne := hnonce
  client_comma := hlaw.no_comma _
  server_comma := hlaw.no_comma _

/-- Whoever knows the password logs in: over a store that was filled in any order, with any name
and any nonces, whatever the connection did before and whatever else is asked between the two
steps. The client ends with the server's signature verified, and the connection with its user. -/
theorem login_completes (hlaw : crypto.Lawful digestLen) (inner : Handler)
    (hinner : ∀ command ctx, (inner.handleCommand command ctx).2.auth = ctx.auth)
    (before after : List MemoryCredentialSource.Account) (mechanism : ScramMechanism)
    (username password : String)
    (hlast : ∀ a ∈ after, ¬ (a.1 = mechanism ∧ a.2.1 = username))
    (clientRandom random : Bytes) (hnonce : generateNonce crypto clientRandom ≠ "")
    (hshort : ∀ text ∈ (login hlaw mechanism username password clientRandom random
      hnonce).messages crypto, Short text)
    (ctx : ConnectionInfo) (hctx : ctx.auth.scram = none) (others : List (Command × Bytes))
    (hothers : ∀ x ∈ others, x.1.name ≠ "saslContinue") :
    let store := MemoryCredentialSource.ofInserts crypto
      (before ++ (mechanism, username, password) :: after)
    ∃ client ctx', runExchange crypto ⟨inner, store.lookup⟩
        (.new crypto mechanism username password clientRandom) random others ctx =
          .ok (client, ctx') ∧
      client.state = .done ∧ ctx'.auth = ⟨none, some username⟩ := by
  intro store
  have hlookup := @MemoryCredentialSource.lookup_ofInserts crypto _ before after mechanism username
    password rfl hlast
  have hexpects : Expects crypto ⟨inner, store.lookup⟩
      (login hlaw mechanism username password clientRandom random hnonce) random :=
    ⟨hlookup, rfl, hshort, hinner⟩
  exact ⟨_, _, runExchange_of_expects hlaw hexpects hctx hothers, rfl, rfl⟩

end ScramBridge

/-! A login whose digests are those of SHA-256, SHA-1 and MD5, where it asks for any: a store with an
old password, the password and one for the other mechanism, and nonces of 18 bytes. -/

namespace Recorded

def salted : Bytes :=
  [21, 196, 93, 128, 253, 40, 63, 74, 109, 20, 215, 99, 234, 37, 80, 127, 184, 22, 90, 170, 221,
    13, 212, 226, 145, 216, 39, 113, 231, 229, 18, 104]

def clientKey : Bytes :=
  [26, 126, 95, 176, 176, 20, 122, 172, 104, 48, 185, 142, 154, 20, 115, 190, 69, 160, 219, 203,
    36, 79, 86, 4, 145, 18, 191, 230, 35, 129, 158, 25]

def storedKey : Bytes :=
  [163, 41, 250, 208, 223, 245, 121, 59, 163, 43, 28, 246, 191, 83, 133, 96, 1, 19, 235, 8, 154,
    61, 121, 157, 172, 181, 242, 19, 30, 125, 163, 209]

def serverKey : Bytes :=
  [176, 244, 81, 206, 122, 245, 6, 73, 106, 38, 181, 204, 225, 4, 56, 43, 58, 76, 40, 5, 62,
    168, 106, 64, 41, 86, 19, 107, 203, 67, 90, 20]

def oldSalted : Bytes :=
  [97, 34, 38, 130, 189, 68, 89, 178, 89, 33, 92, 214, 169, 229, 160, 166, 152, 156, 221, 243,
    96, 56, 58, 137, 163, 249, 227, 92, 135, 223, 131, 192]

def oldClientKey : Bytes :=
  [142, 34, 49, 151, 8, 41, 81, 130, 49, 247, 10, 200, 168, 125, 223, 162, 76, 60, 125, 210, 15,
    36, 93, 49, 92, 159, 1, 103, 134, 4, 92, 145]

def oldStoredKey : Bytes :=
  [54, 54, 144, 99, 161, 15, 191, 98, 98, 194, 204, 40, 165, 199, 244, 52, 128, 220, 175, 227,
    54, 113, 95, 184, 44, 46, 26, 7, 254, 55, 0, 166]

def oldServerKey : Bytes :=
  [167, 128, 89, 151, 163, 34, 251, 180, 72, 50, 50, 6, 246, 205, 219, 106, 246, 108, 20, 28,
    42, 73, 72, 194, 74, 59, 151, 30, 233, 87, 247, 84]

def sha1Salted : Bytes :=
  [237, 150, 125, 182, 97, 62, 237, 180, 64, 196, 81, 118, 169, 214, 164, 142, 1, 30, 52, 238]

def sha1ClientKey : Bytes :=
  [241, 131, 21, 77, 10, 124, 127, 253, 22, 145, 18, 194, 221, 76, 92, 191, 152, 136, 106, 112]

def sha1StoredKey : Bytes :=
  [139, 163, 206, 54, 191, 212, 35, 123, 60, 143, 200, 136, 26, 170, 120, 173, 192, 190, 3, 178]

def sha1ServerKey : Bytes :=
  [159, 88, 49, 98, 206, 206, 11, 70, 206, 63, 125, 42, 15, 39, 0, 202, 73, 14, 205, 86]

def clientSignature : Bytes :=
  [93, 253, 248, 9, 250, 202, 214, 90, 153, 154, 227, 51, 103, 80, 9, 46, 79, 191, 8, 85, 25,
    83, 203, 224, 2, 152, 118, 131, 44, 136, 80, 248]

def serverSignature : Bytes :=
  [157, 155, 139, 5, 252, 20, 40, 37, 223, 80, 110, 187, 41, 177, 40, 196, 35, 111, 190, 54,
    150, 88, 158, 108, 73, 181, 161, 42, 230, 156, 74, 158]

def authMessage : String :=
  "n=user,r=AQIDBAUGBwgJCgsMDQ4PEBES,r=AQIDBAUGBwgJCgsMDQ4PEBESExQVFhcYGRobHB0eHyAhIiMk," ++
    "s=AAECAwQFBgcICQoLDA0ODw==,i=15000,c=biws,r=AQIDBAUGBwgJCgsMDQ4PEBESExQVFhcYGRobHB0eHyAhIiMk"

/-- `md5("user:mongo:crayon")`. -/
def sha1Password : Bytes :=
  [143, 32, 87, 41, 198, 89, 123, 103, 128, 212, 89, 220, 250, 80, 31, 179]

def salteds : ScramMechanism → List ((Bytes × Bytes × UInt32) × Bytes)
  | .sha1 => [((utf8 "8f205729c6597b6780d459dcfa501fb3", MemoryCredentialSource.salt, 10000),
      sha1Salted)]
  | .sha256 => [((utf8 "pencil", MemoryCredentialSource.salt, 15000), salted),
      ((utf8 "old", MemoryCredentialSource.salt, 15000), oldSalted)]

def hmacs : ScramMechanism → List ((Bytes × Bytes) × Bytes)
  | .sha1 => [((sha1Salted, utf8 "Client Key"), sha1ClientKey),
      ((sha1Salted, utf8 "Server Key"), sha1ServerKey)]
  | .sha256 => [((salted, utf8 "Client Key"), clientKey), ((salted, utf8 "Server Key"), serverKey),
      ((oldSalted, utf8 "Client Key"), oldClientKey), ((oldSalted, utf8 "Server Key"), oldServerKey),
      ((storedKey, utf8 authMessage), clientSignature),
      ((serverKey, utf8 authMessage), serverSignature)]

def hashes : ScramMechanism → List (Bytes × Bytes)
  | .sha1 => [(sha1ClientKey, sha1StoredKey)]
  | .sha256 => [(clientKey, storedKey), (oldClientKey, oldStoredKey)]

/-- The digest of an input, or zeros where none was computed. -/
def digest {α : Type} [DecidableEq α] (table : List (α × Bytes)) (size : Nat) (input : α) : Bytes :=
  ((table.find? fun entry => entry.1 = input).map Prod.snd).getD (.replicate size 0)

theorem length_digest {α : Type} [DecidableEq α] {table : List (α × Bytes)} {size : Nat}
    (h : ∀ entry ∈ table, entry.2.length = size) (input : α) :
    (digest table size input).length = size := by
  unfold digest
  cases hfind : table.find? fun entry => entry.1 = input with
  | none => exact List.length_replicate
  | some entry => exact h entry (List.mem_of_find?_eq_some hfind)

def crypto : Crypto where
  hmac m key input := digest (hmacs m) (Rfc7677.digestLen m) (key, input)
  hash m input := digest (hashes m) (Rfc7677.digestLen m) input
  pbkdf2 m password salt iterations :=
    digest (salteds m) (Rfc7677.digestLen m) (password, salt, iterations)
  md5 input := digest [(utf8 "user:mongo:crayon", sha1Password)] 16 input
  base64Encode := Base64.encode
  base64Decode := Base64.decode

theorem lawful : crypto.Lawful Rfc7677.digestLen where
  decode_encode := Base64.decode_encode
  no_comma := Base64.comma_not_mem_encode
  length_hmac m key input := length_digest (by cases m <;> decide +kernel) (key, input)
  length_hash m input := length_digest (by cases m <;> decide +kernel) input

def clientRandom : Bytes := [1, 2, 3, 4, 5, 6, 7, 8, 9, 10, 11, 12, 13, 14, 15, 16, 17, 18]

def serverRandom : Bytes := [19, 20, 21, 22, 23, 24, 25, 26, 27, 28, 29, 30, 31, 32, 33, 34, 35, 36]

theorem generateNonce_clientRandom : generateNonce crypto clientRandom ≠ "" := by decide +kernel

/-- The third message of the login, with its proof. -/
example : (ScramBridge.login lawful .sha256 "user" "pencil" clientRandom serverRandom
    generateNonce_clientRandom).clientFinal crypto =
      "c=biws,r=AQIDBAUGBwgJCgsMDQ4PEBESExQVFhcYGRobHB0eHyAhIiMk,p=R4OnuUrerPbxqlq9/UR6kAof0549HJ3kk4rJZQ8JzuE=" := by
  decide +kernel

end Recorded

theorem ScramBridge.login_completes_user :
    let store := MemoryCredentialSource.ofInserts Recorded.crypto
      [(.sha256, "user", "old"), (.sha256, "user", "pencil"), (.sha1, "user", "crayon")]
    ∃ client ctx', runExchange Recorded.crypto ⟨Rfc7677.silent, store.lookup⟩
        (.new Recorded.crypto .sha256 "user" "pencil" Recorded.clientRandom) Recorded.serverRandom
        [Rfc7677.start] .new = .ok (client, ctx') ∧
      client.state = .done ∧ ctx'.auth = ⟨none, some "user"⟩ := by
  refine login_completes Recorded.lawful Rfc7677.silent (fun _ _ => rfl) [(.sha256, "user", "old")]
    [(.sha1, "user", "crayon")] .sha256 "user" "pencil" (by decide) Recorded.clientRandom
    Recorded.serverRandom Recorded.generateNonce_clientRandom ?_ .new rfl [Rfc7677.start] (by decide)
  show ∀ text ∈ _, (utf8 text).length + 200 < 2 ^ 31
  decide +kernel

end MongoWire
