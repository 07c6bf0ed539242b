import MongoWire.Api.Builtin
import MongoWire.Bson.Encoded
import MongoWire.Framing.Buffer
import MongoWire.Network.Order

/-!
# The limit of a legacy handshake

A legacy handshake tells the client how long a message may be. Whatever a client reads there is what
the codec of its connection goes by.
-/

open MongoWire.Lib MongoWire.Lib.Outcome MongoWire.Framing

namespace MongoWire

/-- The limits that a client reads off a message, which is an `OP_REPLY` or has none. -/
def MessageBody.advertised : MessageBody → List Int32
  | .reply r => r.documents.filterMap fun doc =>
    match doc.get "maxMessageSizeBytes" with
    | .ok (some (.int32 n)) => some n
    | _ => none
  | _ => []

theorem advertised_of_get {raw : RawDocument} {limit : Int32}
    (h : raw.get "maxMessageSizeBytes" = .ok (some (.int32 limit))) (flags : ReplyFlags) :
    MessageBody.advertised (.reply { queryHandshakeReply raw with responseFlags := flags }) =
      [limit] := by
  simp [MessageBody.advertised, queryHandshakeReply, h]

theorem advertised_of_get_none {raw : RawDocument} (h : raw.get "maxMessageSizeBytes" = .ok none)
    (flags : ReplyFlags) :
    MessageBody.advertised (.reply { queryHandshakeReply raw with responseFlags := flags }) = [] := by
  simp [MessageBody.advertised, queryHandshakeReply, h]

theorem advertised_handshakeReply {compressors : List CompressorId} {limit : Int32} {legacy : Bool}
    {now : Int64} {reply : OpMsg} (h : handshakeReply compressors limit legacy now = .ok reply) :
    MessageBody.advertised (.reply (queryHandshakeReply reply.sections.body)) = [limit] := by
  obtain ⟨raw, hraw, rfl⟩ := handshakeReply_eq_ok.mp h
  have hget : (handshakeDoc compressors limit legacy now).get "maxMessageSizeBytes" =
      some (.ofScalar (.int32 limit)) := by
    cases legacy <;> rfl
  exact advertised_of_get
    (RawDocument.get_scalar_of_encode inRange_handshakeDoc depth_handshakeDoc hraw hget) _

/-! ## What a server tells -/

/-- Every limit that was sent so far is the limit of the server. -/
def Advertises (limit : Int32) (s : Socket) : Prop :=
  ∀ sent ∈ s.sent, ∀ n ∈ sent.body.advertised, n = limit

namespace Server

open Method

variable {crc : Checksum}

theorem advertised_commandNotFound {q : OpQuery} {reply : MessageBody}
    (h : errorReply commandNotFound (.query q) = .ok (some reply)) : reply.advertised = [] := by
  unfold errorReply commandNotFound Error.toErrorResponseDoc at h
  dsimp only at h
  obtain ⟨o, ho, h⟩ := (Outcome.bind_eq_ok _ _ _).mp h
  split at h
  · cases h
  · cases h
    rw [toOption_eq_some] at ho
    obtain ⟨found, hfound, hrel⟩ := RawDocument.get_of_encode (by
      simp [Document.InRange, FieldsInRange, Bson.InRange, Error.zero]) (by
      simp [Document.depth, fieldsDepth, Bson.depth, maxNestingDepth, Error.zero]) ho
      "maxMessageSizeBytes"
    cases hrel
    exact advertised_of_get_none hfound _

theorem sends_advertised (config : ServerConfig) (handler : Handler) :
    Sends config handler fun body => ∀ n ∈ body.advertised, n = config.maxMsgLen where
  notFound q reply h := by
    rw [advertised_commandNotFound h]
    exact List.forall_mem_nil _
  handshake compressors now reply h := by
    rw [advertised_handshakeReply h]
    exact List.forall_mem_singleton.mpr rfl
  answer _ _ _ _ := List.forall_mem_nil _
  error e m reply h := by
    rcases errorReply_cases e m with ⟨msg, hmsg⟩ | hnone
    · cases hmsg.symm.trans h
      exact List.forall_mem_nil _
    · cases hnone.symm.trans h

theorem advertises_processFrame (build : Build) (config : ServerConfig) (handler : Handler)
    (arrival : Arrival) :
    Preserves (Advertises config.maxMsgLen) (processFrame crc build config handler arrival) :=
  preserves_processFrame (fun _ _ _ hbody _ => hbody) (sends_advertised config handler) build arrival

end Server

/-! ## What the codec goes by -/

theorem parseMessage_of_too_long {crc : Checksum} {limit : Int32} {header : Header}
    (hlong : limit.toInt < header.messageLength.toInt) (rest : Bytes) :
    ∃ e, (parseMessage crc limit (header.layout ++ rest)).1 = .err e := by
  have hhead : (header.layout ++ rest).take msgHeaderLen = header.layout :=
    List.take_left' (Header.length_layout header)
  have hbounds : ¬ header.InBounds limit := fun hbounds => by
    have := hbounds.2.1
    omega
  refine (returns_parseMessage crc limit _).exists_err fun o ho => ?_
  rcases o with _ | ⟨h, b⟩
  · rcases (parseMessage_waits_iff _).mp ho with hshort | ⟨h, htake, hin, -⟩
    · rw [List.length_append, Header.length_layout] at hshort
      omega
    · rw [← Header.layout_inj (hhead.symm.trans htake)] at hin
      exact hbounds hin
  · obtain ⟨w, hbuf, haccepted⟩ := (parseMessage_eq_some _ _).mp (Prod.ext ho rfl)
    have htake := hhead.symm.trans (congrArg (List.take msgHeaderLen) hbuf)
    rw [frameLayout, List.append_assoc, List.take_left' (Header.length_layout h)] at htake
    rw [Header.layout_inj htake] at hbounds
    exact hbounds haccepted.bounds

theorem parseMessage_of_sendable {crc : Checksum} {limit : Int32} (hlimit : limit.toInt ≤ maxMsgLen)
    {x : Outgoing} (hx : x.Sendable) (hfits : (total x.body x.checksum : Int) ≤ limit.toInt)
    (rest : Bytes) :
    parseMessage crc limit (x.frame crc ++ rest) = (.ok (some (x.received crc)), rest) := by
  have htotal : total x.body x.checksum ≤ maxMsgLen := Int.ofNat_le.mp (hfits.trans hlimit)
  let letter : Letter := ⟨x, hx, htotal⟩
  refine letter.parses ?_ rest
  rw [hx.length_frame htotal]
  exact hfits

namespace Network

theorem advertised_of_shows {body found : MessageBody} (h : Shows body found) :
    found.advertised = body.advertised := by
  rcases h with rfl | ⟨m, c, rfl, rfl⟩
  · rfl
  · rfl

theorem advertises_run {ι : Type} [DecidableEq ι] {crc : Checksum} {build : Build}
    {config : ServerConfig} (actions : List (ι × Action)) (i : ι) :
    Advertises config.maxMsgLen (World.run crc build config actions i).socket := by
  refine @served_induction crc build config ι _ actions i
    (fun _ socket => Advertises config.maxMsgLen socket) (List.forall_mem_nil _) ?_
  intro _ socket t _ _ hsocket
  exact Server.advertises_processFrame build config t.handler t.arrival socket hsocket

theorem advertised_of_received {ι : Type} [DecidableEq ι] {crc : Checksum} {build : Build}
    {config : ServerConfig} {actions : List (ι × Action)} {i : ι}
    (hplain : ∀ now handler, (i, .serve now handler) ∈ actions → handler.Plain)
    {msg : Header × MessageBody} (hmsg : msg ∈ (World.run crc build config actions i).received)
    {limit : Int32} (hread : limit ∈ msg.2.advertised) : limit = config.maxMsgLen := by
  have hconsistent : Consistent crc build config (World.run crc build config actions i) :=
    consistent_run actions i
  obtain ⟨hlen, hget⟩ :=
    List.forall₂_iff_get.mp (hconsistent.received_sent (allReadable_run hplain))
  obtain ⟨n, hn, rfl⟩ := List.mem_iff_getElem.mp hmsg
  have hn' := hn
  rw [← hlen] at hn'
  obtain ⟨-, hshows⟩ := hget n hn' hn
  have hmem := List.mem_of_mem_take (List.get_mem _ ⟨n, hn'⟩)
  refine advertises_run actions i _ hmem limit ?_
  rw [← advertised_of_shows hshows]
  exact hread

/-- **The advertised length is enforced.** A legacy handshake that is answered tells the limit of
the server. Whatever limit a client has read off an `OP_REPLY`, its connection goes by it: a message
that keeps it is read, whatever follows, and a header that exceeds it is refused before any of its
body arrives. The limit is none that the framing exceeds, and the handlers answer in messages that
read back. -/
theorem advertised_length_is_enforced (crc : Checksum) (build : Build) (config : ServerConfig)
    (hlimit : config.maxMsgLen.toInt ≤ maxMsgLen) :
    (∀ (now : Int64) (header : Header) (query : OpQuery) (name : String) (s s' : Socket),
      query.query.command = .ok name → Server.isHandshake name = true →
      Server.processQuery crc config now header query s = (.ok (), s') →
      ∃ sent, s'.sent = s.sent ++ [sent] ∧ sent.body.advertised = [config.maxMsgLen]) ∧
    ∀ {ι : Type} [DecidableEq ι] (actions : List (ι × Action)) (i : ι),
      (∀ now handler, (i, .serve now handler) ∈ actions → handler.Plain) →
      ∀ msg ∈ (World.run crc build config actions i).received, ∀ limit ∈ msg.2.advertised,
        (∀ (x : Outgoing) (rest : Bytes), x.Sendable →
          (total x.body x.checksum : Int) ≤ limit.toInt →
          MongoCodec.decode crc ⟨config.maxMsgLen⟩ (x.frame crc ++ rest) =
            (.ok (some (x.received crc)), rest)) ∧
        ∀ (header : Header) (rest : Bytes), limit.toInt < header.messageLength.toInt →
          ∃ e, (MongoCodec.decode crc ⟨config.maxMsgLen⟩ (header.layout ++ rest)).1 = .err e := by
  constructor
  · intro now header query name s s' hname hhandshake hrun
    obtain ⟨requested, reply, sent, -, hreply, hsent, hbody⟩ :=
      processQuery_handshake hname hhandshake hrun
    refine ⟨sent, hsent, ?_⟩
    rw [hbody]
    exact advertised_handshakeReply hreply
  · intro ι _ actions i hplain msg hmsg limit hread
    obtain rfl := advertised_of_received hplain hmsg hread
    exact ⟨fun x rest hx hfits => parseMessage_of_sendable hlimit hx hfits rest,
      fun header rest hlong => parseMessage_of_too_long hlong rest⟩

/-! A client that shakes hands. -/

def isMaster : OpQuery :=
  .handshake (.ofFramed [19, 0, 0, 0, 16, 105, 115, 77, 97, 115, 116, 101, 114, 0, 1, 0, 0, 0, 0]
    (by decide))

def handshakeActions : List (Unit × Action) :=
  [((), .write (Outgoing.frame crc32c ⟨.new 1 0 .query, .query isMaster, false⟩)),
    ((), .arrive 100), ((), .serve 0 Server.Sample.pong), ((), .back 500), ((), .recv)]

theorem advertised_length_is_enforced_isMaster :
    ∃ msg ∈ (World.run crc32c Server.Sample.build ⟨1000, false, []⟩ handshakeActions ()).received,
      msg.2.advertised = [1000] ∧
      ∃ e, (MongoCodec.decode crc32c ⟨1000⟩ (Header.layout ⟨1001, 1, 0, .msg⟩ ++ [])).1 = .err e := by
  have hreceived : (World.run crc32c Server.Sample.build ⟨1000, false, []⟩ handshakeActions
      ()).received.map (·.2.advertised) = [[1000]] := by decide +kernel
  obtain ⟨msg, hmsg, hlimit⟩ := List.mem_map.mp (hreceived ▸ List.mem_singleton_self [1000])
  have hplain : ∀ now handler, ((), Action.serve now handler) ∈ handshakeActions →
      handler.Plain := by
    intro now handler hmem
    simp only [handshakeActions, List.mem_cons, Prod.mk.injEq, Action.serve.injEq, reduceCtorEq,
      and_false, true_and, false_or, or_false, List.not_mem_nil] at hmem
    rw [hmem.2]
    exact Server.Sample.plain_pong
  have henforced := (advertised_length_is_enforced crc32c Server.Sample.build ⟨1000, false, []⟩
    (by decide)).2 handshakeActions () hplain msg hmsg 1000 (by rw [hlimit]; exact .head _)
  exact ⟨msg, hmsg, hlimit, henforced.2 ⟨1001, 1, 0, .msg⟩ [] (by decide)⟩

end Network

end MongoWire
