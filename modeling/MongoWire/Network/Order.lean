import MongoWire.Api.Readable
import MongoWire.Api.Replies
import MongoWire.Network.Consistent

/-!
# Replies in order

Which replies a client has received, and to which of its requests.
-/

open MongoWire.Lib MongoWire.Lib.Outcome MongoWire.Framing

namespace MongoWire.Network

variable {crc : Checksum} {build : Build} {config : ServerConfig}

/-! ## Replies and their requests -/

/-- The id of the request, if the turn wrote a reply to it. -/
def answeredId (t : Method.Turn Exit Socket Served) : Option Int32 :=
  if t.after.sent.length = t.before.sent.length then none
  else t.item.arrival.frame.toOption.map fun msg => msg.1.requestId

/-- The ids of the requests that were answered, in the order of the requests. -/
def Link.answered (crc : Checksum) (build : Build) (config : ServerConfig) (l : Link) : List Int32 :=
  (Method.turns (processTurn crc build config) l.served (.new config)).filterMap answeredId

/-- What a client may find in the frame of a reply: the body, perhaps with a checksum. -/
def Shows (body found : MessageBody) : Prop :=
  found = body ∨ ∃ m c, body = .msg m ∧ found = .msg (m.withChecksum c)

theorem responseTo_of_turn {t : Method.Turn Exit Socket Served}
    (h : Server.Handled build config t.item.handler t.item.arrival t.before t.result t.after) :
    t.after.sent.map (·.header.responseTo) =
      t.before.sent.map (·.header.responseTo) ++ (answeredId t).toList := by
  unfold answeredId
  let u : Server.Turn := ⟨t.item.arrival, t.before, t.result, t.after⟩
  have happends : t.after.sent = t.before.sent ++ Server.replies u := (Server.Handled.appends (t := u) h).1
  rcases (Server.Handled.corresponds (t := u) h).addressed with hnone | ⟨sent, header, body, hone, hreq, hto, -⟩
  · rw [hnone, List.append_nil] at happends
    rw [happends, if_pos rfl]
    simp
  · rw [hone] at happends
    obtain ⟨wire, hframe, -⟩ := hreq
    have hframe : t.item.arrival.frame = .ok (header, wire) := hframe
    rw [happends, if_neg (by simp), hframe, List.map_append, List.map_singleton, hto]
    rfl

theorem Consistent.responseTo_eq {l : Link} (h : Consistent crc build config l) :
    l.socket.sent.map (·.header.responseTo) = l.answered crc build config := by
  have hturns : ∀ t ∈ Method.turns (processTurn crc build config) l.served (.new config),
      t.after.sent.map (·.header.responseTo) =
        t.before.sent.map (·.header.responseTo) ++ (answeredId t).toList := by
    intro t ht
    have hrun : Server.processFrame crc build config t.item.handler t.item.arrival t.before =
        (t.result, t.after) := Method.run_of_mem_turns ht
    have hhandled := Server.processFrame_handled crc build config t.item.handler t.item.arrival
      t.before
    rw [hrun] at hhandled
    exact responseTo_of_turn hhandled
  have hlog := Method.log_forEach (fun s : Socket => s.sent.map (·.header.responseTo))
    (fun t => (answeredId t).toList) hturns
  rw [h.sequential] at hlog
  rw [Link.answered, List.filterMap_eq_flatMap_toList]
  exact hlog

theorem mem_served {ι : Type} [DecidableEq ι] {actions : List (ι × Action)} {i : ι} :
    ∀ t ∈ (World.run crc build config actions i).served,
      ∃ now, (i, .serve now t.handler) ∈ actions := by
  refine @served_induction crc build config ι _ actions i
    (fun served _ => ∀ t ∈ served, ∃ now, (i, .serve now t.handler) ∈ actions) ?_ ?_
  · exact List.forall_mem_nil _
  · intro served _ t now hmem hserved
    exact List.forall_mem_append.mpr ⟨hserved, List.forall_mem_singleton.mpr ⟨now, hmem⟩⟩

theorem exists_letters {sents : List Sent} (h : ∀ sent ∈ sents, sent.Readable crc) :
    ∃ xs : List Letter, sents.flatMap Sent.bytes = (xs.flatMap fun x => x.frame crc) ∧
      List.Forall₂ (fun sent x => (x.received crc).1 = sent.header ∧
        Shows sent.body (x.received crc).2) sents xs := by
  induction sents with
  | nil => exact ⟨[], rfl, .nil⟩
  | cons sent sents ih =>
    obtain ⟨⟨x, hheader, hbody, hbytes⟩, hsents⟩ := List.forall_mem_cons.mp h
    obtain ⟨xs, hflat, hxs⟩ := ih hsents
    have hshows : Shows sent.body (x.received crc).2 := by
      rw [hbody]
      exact x.received_cases crc
    refine ⟨x :: xs, ?_, .cons ⟨hheader.symm, hshows⟩ hxs⟩
    rw [List.flatMap_cons, List.flatMap_cons, hbytes, hflat]

theorem drainAll_replies {sents : List Sent} (h : ∀ sent ∈ sents, sent.Readable crc) :
    ∃ found, drainAll (parseMessage crc .maxValue) (sents.flatMap Sent.bytes) = ⟨found, .ok []⟩ ∧
      List.Forall₂ (fun sent x => x.1 = sent.header ∧ Shows sent.body x.2) sents found := by
  obtain ⟨xs, hflat, hxs⟩ := exists_letters h
  have hinc := incremental_parseMessage crc .maxValue
  have hcodes := hinc.drainAll_codes (fun x : Letter => x.parses_client) xs []
  rw [Drained.andThen_ok, hinc.drainAll_of_none (parseMessage_nil crc _), List.append_nil,
    List.append_nil] at hcodes
  rw [← hflat] at hcodes
  refine ⟨xs.map fun x => x.received crc, hcodes, ?_⟩
  rw [List.forall₂_map_right_iff]
  exact hxs

theorem found_responseTo {sents : List Sent} {found : List (Header × MessageBody)}
    (h : List.Forall₂ (fun sent x => x.1 = sent.header ∧ Shows sent.body x.2) sents found) :
    found.map (·.1.responseTo) = sents.map (·.header.responseTo) := by
  induction h with
  | nil => rfl
  | cons hhead _ ih => rw [List.map_cons, List.map_cons, ih, hhead.1]

theorem Consistent.allReadable {l : Link} (h : Consistent crc build config l)
    (hplain : ∀ t ∈ l.served, t.handler.Plain) : AllReadable crc l.socket := by
  have hpreserves : Method.Preserves (AllReadable crc)
      (Method.forEach (processTurn crc build config) l.served) :=
    Method.preserves_forEach fun t ht =>
      Server.allReadable_processFrame build config (hplain t ht) t.arrival
  have hlast := hpreserves (.new config) (List.forall_mem_nil _)
  rw [h.sequential] at hlast
  exact hlast

theorem allReadable_run {ι : Type} [DecidableEq ι] {actions : List (ι × Action)} {i : ι}
    (hplain : ∀ now handler, (i, .serve now handler) ∈ actions → handler.Plain) :
    AllReadable crc (World.run crc build config actions i).socket := by
  have hconsistent : Consistent crc build config (World.run crc build config actions i) :=
    consistent_run actions i
  refine hconsistent.allReadable fun t ht => ?_
  obtain ⟨now, hmem⟩ := mem_served t ht
  exact hplain now t.handler hmem

theorem Consistent.received_sent {l : Link} (h : Consistent crc build config l)
    (hreadable : AllReadable crc l.socket) :
    List.Forall₂ (fun sent x => x.1 = sent.header ∧ Shows sent.body x.2)
      (l.socket.sent.take l.received.length) l.received := by
  obtain ⟨found, hdrain, hfound⟩ := drainAll_replies hreadable
  have hfirst := h.received_first
  rw [Link.replies, hdrain] at hfirst
  have htake := List.prefix_iff_eq_take.mp hfirst
  have hforall := List.forall₂_take l.received.length hfound
  rwa [← htake] at hforall

/-- **Replies arrive in order, each with the id of its request.** If the handlers answer in messages
that read back, then whatever the parties do, the client has received the replies that were sent,
from the first one on, and the ids they name are those of the requests that were answered, in the
order of the requests. Once everything came to rest, none is missing. -/
theorem replies_arrive_in_order {ι : Type} [DecidableEq ι] (crc : Checksum) (build : Build)
    (config : ServerConfig) (actions : List (ι × Action)) (i : ι)
    (hplain : ∀ now handler, (i, .serve now handler) ∈ actions → handler.Plain) :
    let l := World.run crc build config actions i
    List.Forall₂ (fun sent x => x.1 = sent.header ∧ Shows sent.body x.2)
      (l.socket.sent.take l.received.length) l.received ∧
    l.received.map (·.1.responseTo) <+: l.answered crc build config ∧
    (AtRest crc config l → l.received.map (·.1.responseTo) = l.answered crc build config) := by
  intro l
  have h : Consistent crc build config l := consistent_run actions i
  have hreadable : AllReadable crc l.socket := allReadable_run hplain
  obtain ⟨found, hdrain, hfound⟩ := drainAll_replies hreadable
  have hids : found.map (·.1.responseTo) = l.answered crc build config := by
    rw [← h.responseTo_eq, found_responseTo hfound]
  have hfirst := h.received_first
  rw [Link.replies, hdrain] at hfirst
  refine ⟨h.received_sent hreadable, ?_, fun hrest => ?_⟩
  · rw [← hids]
    exact hfirst.map _
  · have hall := h.received_at_rest hrest
    rw [Link.replies, hdrain] at hall
    rw [hall, hids]

/-- `{ping: 1}` as the request 5. -/
def pingFrame : Bytes :=
  [36, 0, 0, 0, 5, 0, 0, 0, 0, 0, 0, 0, 221, 7, 0, 0, 0, 0, 0, 0, 0] ++ Server.Sample.body.bytes

/-- Two connections, and a ping on the second one that travels in pieces. -/
def pingActions : List (Bool × Action) :=
  [(true, .write pingFrame), (true, .arrive 20), (false, .write [1]),
    (true, .serve 0 Server.Sample.pong), (true, .arrive 20), (true, .serve 0 Server.Sample.pong),
    (false, .arrive 1), (true, .back 7), (true, .recv), (true, .back 100), (true, .recv)]

theorem mem_pingActions {now : Int64} {handler : Handler}
    (h : (true, .serve now handler) ∈ pingActions) : handler = Server.Sample.pong := by
  simp only [pingActions, List.mem_cons, Prod.mk.injEq, Action.serve.injEq, reduceCtorEq,
    and_false, true_and, false_or, or_false, List.not_mem_nil] at h
  rcases h with ⟨-, rfl⟩ | ⟨-, rfl⟩ <;> rfl

theorem replies_arrive_in_order_ping :
    let l := World.run crc32c Server.Sample.build ⟨1000, false, []⟩ pingActions true
    l.received.map (·.1.responseTo) <+: l.answered crc32c Server.Sample.build ⟨1000, false, []⟩ := by
  have hplain : ∀ now handler, (true, .serve now handler) ∈ pingActions → handler.Plain := by
    intro now handler hmem
    rw [mem_pingActions hmem]
    exact Server.Sample.plain_pong
  have horder := replies_arrive_in_order crc32c Server.Sample.build ⟨1000, false, []⟩ pingActions
    true hplain
  exact horder.2.1

example : (World.run crc32c Server.Sample.build ⟨1000, false, []⟩ pingActions true).received.map
    (·.1.responseTo) = [5] := by decide +kernel

end MongoWire.Network
