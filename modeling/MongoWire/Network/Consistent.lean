import MongoWire.Api.Turns
import MongoWire.Lib.Residual
import MongoWire.Network

/-!
# What holds of a connection at any time

One invariant of a connection that every action keeps, and what it says about the client's and the
server's view of each other.
-/

open MongoWire.Lib MongoWire.Lib.Outcome MongoWire.Framing

namespace MongoWire.Network

variable {crc : Checksum} {build : Build} {config : ServerConfig}

/-! ## The invariant -/

/-- The messages that the server took off the stream. -/
def Link.frames (l : Link) : List (Header × MessageBody) :=
  l.served.filterMap fun t => t.arrival.frame.toOption

/-- What the server wrote. -/
def Link.replies (l : Link) : Bytes := l.socket.sent.flatMap Sent.bytes

/-- Both ends of a connection have read a part of what the other one wrote, and hold the rest of
what they read; and the server is where a run over the messages that it took would be. -/
structure Consistent (crc : Checksum) (build : Build) (config : ServerConfig) (l : Link) :
    Prop where
  handled : l.frames <+: (drainAll (MongoCodec.decode crc ⟨config.maxMsgLen⟩) l.written).items
  reads : l.result = none → ∃ arrived, l.written = arrived ++ l.uplink ∧
    Residual (MongoCodec.decode crc ⟨config.maxMsgLen⟩) arrived l.frames l.inbox
  sequential : Method.forEach (processTurn crc build config) l.served (.new config) =
    (l.result.getD (.ok ()), l.socket)
  delivers : ∃ returned, l.replies = returned ++ l.downlink ∧
    (l.failed = none → Residual (parseMessage crc .maxValue) returned l.received l.buf) ∧
    ∀ e, l.failed = some e →
      ∀ t, drainAll (parseMessage crc .maxValue) (returned ++ t) = ⟨l.received, .err e⟩

namespace Consistent

variable {l : Link}

theorem new : Consistent crc build config (.new config) where
  handled := List.nil_prefix
  reads _ := ⟨[], rfl, .refl _⟩
  sequential := rfl
  delivers := ⟨[], rfl, fun _ => .refl _, nofun⟩

theorem write (h : Consistent crc build config l) (bytes : Bytes) :
    Consistent crc build config (l.write bytes) := by
  unfold Link.write
  split
  · exact h
  · refine ⟨h.handled.trans ((incremental_decode crc _).items_append _ _), ?_,
      h.sequential, h.delivers⟩
    intro hrun
    obtain ⟨arrived, hwritten, hreads⟩ := h.reads hrun
    exact ⟨arrived, by rw [hwritten, List.append_assoc], hreads⟩

theorem arrive (h : Consistent crc build config l) (n : Nat) :
    Consistent crc build config (l.arrive n) := by
  unfold Link.arrive
  split
  · exact h
  · refine ⟨h.handled, ?_, h.sequential, h.delivers⟩
    intro hrun
    obtain ⟨arrived, hwritten, hreads⟩ := h.reads hrun
    refine ⟨arrived ++ l.uplink.take n, ?_, hreads.arrive _⟩
    rw [hwritten, List.append_assoc, List.take_append_drop]

theorem back (h : Consistent crc build config l) (n : Nat) :
    Consistent crc build config (l.back n) := by
  unfold Link.back
  split
  · exact h
  · rename_i hrun
    obtain ⟨returned, hreplies, hbuf, -⟩ := h.delivers
    rw [Option.not_isSome_iff_eq_none] at hrun
    refine ⟨h.handled, h.reads, h.sequential, returned ++ l.downlink.take n, ?_,
      fun _ => (hbuf hrun).arrive _, fun e hfailed => ?_⟩
    · rw [List.append_assoc, List.take_append_drop]
      exact hreplies
    · cases hrun.symm.trans hfailed

theorem recv (h : Consistent crc build config l) : Consistent crc build config (l.recv crc) := by
  have hinc := incremental_parseMessage crc .maxValue
  obtain ⟨returned, hreplies, hbuf, -⟩ := h.delivers
  rcases @Link.recv_cases crc l with ⟨hsame, -⟩ | ⟨hrun, ⟨msg, rest, hparse, hrecv⟩ |
      ⟨e, rest, hparse, hrecv⟩⟩
  · rw [hsame]
    exact h
  · rw [hrecv]
    refine ⟨h.handled, h.reads, h.sequential, returned, hreplies,
      fun _ => (hbuf hrun).take hinc hparse, fun e hfailed => ?_⟩
    cases hrun.symm.trans hfailed
  · rw [hrecv]
    refine ⟨h.handled, h.reads, h.sequential, returned, hreplies, nofun, ?_⟩
    rintro _ ⟨⟩
    exact (hbuf hrun).fail hinc (congrArg Prod.fst hparse)

theorem sent_processTurn (crc : Checksum) (build : Build) (config : ServerConfig) (t : Served)
    (s : Socket) : (processTurn crc build config t s).2.sent =
      s.sent ++ (processTurn crc build config t s).2.sent.drop s.sent.length :=
  (Server.Handled.appends (t := ⟨t.arrival, s, _, _⟩)
    (Server.processFrame_handled crc build config t.handler t.arrival s)).1

theorem getD_stop (r : Outcome Exit Unit) :
    (if r.isOk then none else some r).getD (.ok ()) = r := by
  rcases r with _ | _ | _ | _
  all_goals rfl

section Turn

variable (h : Consistent crc build config l) (hrun : l.result = none) (t : Served) (rest : Bytes)

include h hrun

theorem turn (hhandled : (l.turn crc build config t rest).frames <+:
      (drainAll (MongoCodec.decode crc ⟨config.maxMsgLen⟩) l.written).items)
    (hreads : (l.turn crc build config t rest).result = none → ∃ arrived,
      l.written = arrived ++ l.uplink ∧ Residual (MongoCodec.decode crc ⟨config.maxMsgLen⟩) arrived
        (l.turn crc build config t rest).frames rest) :
    Consistent crc build config (l.turn crc build config t rest) where
  handled := hhandled
  reads := hreads
  sequential := by
    have hsofar := h.sequential
    rw [hrun] at hsofar
    exact (Method.forEach_concat hsofar t).trans (Prod.ext (getD_stop _).symm rfl)
  delivers := by
    obtain ⟨returned, hreplies, hbuf⟩ := h.delivers
    refine ⟨returned, ?_, hbuf⟩
    have happends := congrArg (List.flatMap Sent.bytes)
      (sent_processTurn crc build config t l.socket)
    rw [List.flatMap_append] at happends
    rw [Link.turn, ← List.append_assoc, ← hreplies]
    exact happends

theorem turn_msg {now : Int64} {handler : Handler} {msg : Header × MessageBody}
    (hdecode : MongoCodec.decode crc ⟨config.maxMsgLen⟩ l.inbox = (.ok (some msg), rest)) :
    Consistent crc build config (l.turn crc build config ⟨⟨.ok msg, now⟩, handler⟩ rest) := by
  obtain ⟨arrived, hwritten, hreads⟩ := h.reads hrun
  have hinc := incremental_decode crc ⟨config.maxMsgLen⟩
  have htake := hreads.take hinc hdecode
  have hframes : (l.turn crc build config ⟨⟨.ok msg, now⟩, handler⟩ rest).frames =
      l.frames ++ [msg] := List.filterMap_append
  rw [← hframes] at htake
  refine h.turn hrun _ rest ?_ fun _ => ⟨arrived, hwritten, htake⟩
  rw [hwritten]
  exact htake.first_items.trans (hinc.items_append _ _)

theorem turn_error {now : Int64} {handler : Handler} {e : ProtocolError} :
    Consistent crc build config (l.turn crc build config ⟨⟨.error e, now⟩, handler⟩ rest) := by
  have hframes : (l.turn crc build config ⟨⟨.error e, now⟩, handler⟩ rest).frames = l.frames :=
    List.filterMap_append.trans (List.append_nil _)
  refine h.turn hrun _ rest ?_ nofun
  rw [hframes]
  exact h.handled

end Turn

theorem serve (h : Consistent crc build config l) (now : Int64) (handler : Handler) :
    Consistent crc build config (l.serve crc build config now handler) := by
  rcases l.serve_cases now handler with ⟨hsame, -⟩ | ⟨hrun, ⟨msg, rest, hdecode, hturn⟩ |
      ⟨e, rest, -, hturn⟩ | ⟨-, hend⟩⟩
  · rw [hsame]
    exact h
  · rw [hturn]
    exact h.turn_msg hrun rest hdecode
  · rw [hturn]
    exact h.turn_error hrun rest
  · rw [hend]
    exact ⟨h.handled, nofun, by rw [h.sequential, hrun]; rfl, h.delivers⟩

theorem act (h : Consistent crc build config l) (a : Action) :
    Consistent crc build config (l.act crc build config a) := by
  cases a with
  | write bytes => exact h.write bytes
  | shutdown => exact ⟨h.handled, h.reads, h.sequential, h.delivers⟩
  | arrive n => exact h.arrive n
  | serve now handler => exact h.serve now handler
  | back n => exact h.back n
  | recv => exact h.recv

end Consistent

/-- Whatever the connections do, and in whatever order, each of them is consistent. -/
theorem consistent_run {ι : Type} [DecidableEq ι] (actions : List (ι × Action)) (i : ι) :
    Consistent crc build config (World.run crc build config actions i) := by
  induction actions using List.reverseRecOn with
  | nil => exact .new
  | append_singleton actions x ih =>
    rw [run_concat]
    split
    · exact ih.act x.2
    · exact ih

/-! ## What a client sees -/

/-- Neither end has anything left to do. What is still on its way to an end that stopped is not
read. -/
structure AtRest (crc : Checksum) (config : ServerConfig) (l : Link) : Prop where
  /-- The server returned, or it read everything and waits for more. -/
  server : l.result = none → l.uplink = [] ∧ l.closed = false ∧
    (MongoCodec.decode crc ⟨config.maxMsgLen⟩ l.inbox).1 = .ok none
  /-- The client failed, or it read everything and waits for more. -/
  client : l.failed = none → l.downlink = [] ∧ (parseMessage crc .maxValue l.buf).1 = .ok none

namespace Consistent

variable {l : Link} (h : Consistent crc build config l)

include h

theorem received_first : l.received <+: (drainAll (parseMessage crc .maxValue) l.replies).items := by
  obtain ⟨returned, hreplies, hbuf, hstop⟩ := h.delivers
  rw [hreplies]
  cases hfailed : l.failed with
  | none =>
    exact (hbuf hfailed).first_items.trans
      ((incremental_parseMessage crc .maxValue).items_append _ _)
  | some e => rw [hstop e hfailed]

theorem replies_of_failed {e : ProtocolError} (hfailed : l.failed = some e) :
    drainAll (parseMessage crc .maxValue) l.replies = ⟨l.received, .err e⟩ := by
  obtain ⟨returned, hreplies, -, hstop⟩ := h.delivers
  rw [hreplies]
  exact hstop e hfailed _

theorem frames_at_rest (hrest : AtRest crc config l) (hrun : l.result = none) :
    l.frames = (drainAll (MongoCodec.decode crc ⟨config.maxMsgLen⟩) l.written).items := by
  obtain ⟨arrived, hwritten, hreads⟩ := h.reads hrun
  obtain ⟨huplink, -, hwait⟩ := hrest.server hrun
  rw [hwritten, huplink, List.append_nil, hreads.wait (incremental_decode crc _) hwait]

theorem received_at_rest (hrest : AtRest crc config l) :
    l.received = (drainAll (parseMessage crc .maxValue) l.replies).items := by
  cases hfailed : l.failed with
  | none =>
    obtain ⟨returned, hreplies, hbuf, -⟩ := h.delivers
    obtain ⟨hdownlink, hwait⟩ := hrest.client hfailed
    rw [hreplies, hdownlink, List.append_nil,
      (hbuf hfailed).wait (incremental_parseMessage crc .maxValue) hwait]
  | some e => rw [h.replies_of_failed hfailed]

end Consistent

/-- **The interleaving does not show.** Whatever any number of clients write, well-formed or not,
however the bytes travel and whatever the parties do in the meantime: a connection handles the
messages of its own client, from the first one on and in their order; its state and its replies are
those of a run over these messages; and the client has received its replies, from the first one on
and in their order, and failed only where they cannot be read. Once everything came to rest, none is
missing. -/
theorem interleaving_does_not_show {ι : Type} [DecidableEq ι] (crc : Checksum) (build : Build)
    (config : ServerConfig) (actions : List (ι × Action)) (i : ι) :
    let l := World.run crc build config actions i
    let sent := drainAll (MongoCodec.decode crc ⟨config.maxMsgLen⟩) l.written
    let replied := drainAll (parseMessage crc .maxValue) (l.socket.sent.flatMap Sent.bytes)
    l.frames <+: sent.items ∧
    Method.forEach (processTurn crc build config) l.served (.new config) =
      (l.result.getD (.ok ()), l.socket) ∧
    l.received <+: replied.items ∧
    (∀ e, l.failed = some e → replied = ⟨l.received, .err e⟩) ∧
    (AtRest crc config l →
      (l.result = none → l.frames = sent.items) ∧ l.received = replied.items) := by
  intro l sent replied
  have h : Consistent crc build config l := consistent_run actions i
  exact ⟨h.handled, h.sequential, h.received_first, fun _ => h.replies_of_failed,
    fun hrest => ⟨h.frames_at_rest hrest, h.received_at_rest hrest⟩⟩

end MongoWire.Network
