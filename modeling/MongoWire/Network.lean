import MongoWire.Api.Server
import MongoWire.Client

/-!
# Clients and connections

Any number of clients, each on a connection of its own that `process_socket` serves. Bytes are on
their way in both directions, every party takes its steps when it likes, and a handler may answer
differently at every call, as one does that shares state with other connections.
-/

open MongoWire.Lib MongoWire.Lib.Outcome MongoWire.Framing

namespace MongoWire.Network

/-! ## One connection -/

/-- A turn of `process_socket`: what it found, and the handler as it was then. -/
structure Served where
  arrival : Arrival
  handler : Handler

/-- A connection: both ends, what is on its way between them, and a record of what happened. -/
structure Link where
  /-- Everything that the client wrote. -/
  written : Bytes
  /-- What the server did not read yet. -/
  uplink : Bytes
  /-- The client writes no more. -/
  closed : Bool
  /-- The buffer of `Framed`. -/
  inbox : Bytes
  served : List Served
  socket : Socket
  /-- What `process_socket` returned. -/
  result : Option (Outcome Exit Unit)
  /-- What the client did not read yet. -/
  downlink : Bytes
  /-- The buffer of the client. -/
  buf : Bytes
  received : List (Header × MessageBody)
  /-- The error that `recv` returned. The client stops there. -/
  failed : Option ProtocolError

inductive Action where
  | write (bytes : Bytes)
  | shutdown
  /-- The server reads so many bytes. -/
  | arrive (n : Nat)
  /-- `framed.next()` looks at its buffer, and the loop takes a turn if there is a reason to. -/
  | serve (now : Int64) (handler : Handler)
  /-- The client reads so many bytes. -/
  | back (n : Nat)
  /-- The client takes a message off its buffer. -/
  | recv

def Link.new (config : ServerConfig) : Link where
  written := []
  uplink := []
  closed := false
  inbox := []
  served := []
  socket := .new config
  result := none
  downlink := []
  buf := []
  received := []
  failed := none

section Model

variable (crc : Checksum) (build : Build) (config : ServerConfig)

def processTurn (t : Served) : Method Exit Socket Unit :=
  Server.processFrame crc build config t.handler t.arrival

/-- The stream ended inside a frame. -/
def bytesRemaining : ProtocolError := .io (.invalid "bytes remaining on stream")

namespace Link

/-- One turn of the loop. -/
def turn (l : Link) (t : Served) (rest : Bytes) : Link :=
  let (result, socket) := processTurn crc build config t l.socket
  { l with
    inbox := rest
    served := l.served ++ [t]
    socket
    result := if result.isOk then none else some result
    downlink := l.downlink ++ (socket.sent.drop l.socket.sent.length).flatMap Sent.bytes }

def serve (l : Link) (now : Int64) (handler : Handler) : Link :=
  if l.result.isSome then l else
  match MongoCodec.decode crc ⟨config.maxMsgLen⟩ l.inbox with
  | (.ok (some msg), rest) => l.turn crc build config ⟨⟨.ok msg, now⟩, handler⟩ rest
  | (.err e, rest) => l.turn crc build config ⟨⟨.error e, now⟩, handler⟩ rest
  | _ =>
    if ¬ l.closed ∨ l.uplink ≠ [] then l
    -- `decode_eof`: a clean end of the stream ends the loop.
    else if l.inbox = [] then { l with result := some (.ok ()) }
    else l.turn crc build config ⟨⟨.error bytesRemaining, now⟩, handler⟩ l.inbox

def write (l : Link) (bytes : Bytes) : Link :=
  if l.closed then l else { l with written := l.written ++ bytes, uplink := l.uplink ++ bytes }

def arrive (l : Link) (n : Nat) : Link :=
  if l.result.isSome then l
  else { l with uplink := l.uplink.drop n, inbox := l.inbox ++ l.uplink.take n }

def back (l : Link) (n : Nat) : Link :=
  if l.failed.isSome then l
  else { l with downlink := l.downlink.drop n, buf := l.buf ++ l.downlink.take n }

def recv (l : Link) : Link :=
  if l.failed.isSome then l else
  match parseMessage crc .maxValue l.buf with
  | (.ok (some msg), rest) => { l with buf := rest, received := l.received ++ [msg] }
  | (.err e, rest) => { l with buf := rest, failed := some e }
  | _ => l

def act (l : Link) : Action → Link
  | .write bytes => l.write bytes
  | .shutdown => { l with closed := true }
  | .arrive n => l.arrive n
  | .serve now handler => l.serve crc build config now handler
  | .back n => l.back n
  | .recv => l.recv crc

end Link

/-- The connections that `serve` accepted, each in a task of its own. -/
abbrev World (ι : Type) := ι → Link

def World.act {ι : Type} [DecidableEq ι] (w : World ι) (x : ι × Action) : World ι :=
  Function.update w x.1 ((w x.1).act crc build config x.2)

def World.run {ι : Type} [DecidableEq ι] (actions : List (ι × Action)) : World ι :=
  actions.foldl (World.act crc build config) fun _ => .new config

end Model

/-! ## What an action does -/

variable {crc : Checksum} {build : Build} {config : ServerConfig}

theorem incremental_decode (crc : Checksum) (codec : MongoCodec) :
    Incremental (codec.decode crc) := incremental_parseMessage crc codec.maxMsgLen

theorem Link.recv_cases (l : Link) :
    (l.recv crc = l ∧ (l.failed = none → (parseMessage crc .maxValue l.buf).1 = .ok none)) ∨
    (l.failed = none ∧
      ((∃ msg rest, parseMessage crc .maxValue l.buf = (.ok (some msg), rest) ∧
        l.recv crc = { l with buf := rest, received := l.received ++ [msg] }) ∨
      ∃ e rest, parseMessage crc .maxValue l.buf = (.err e, rest) ∧
        l.recv crc = { l with buf := rest, failed := some e })) := by
  have hreturns := returns_parseMessage crc .maxValue l.buf
  unfold Link.recv
  split
  · rename_i hfailed
    refine .inl ⟨rfl, fun hnone => ?_⟩
    rw [hnone] at hfailed
    cases hfailed
  · have hnone : l.failed = none := Option.not_isSome_iff_eq_none.mp ‹_›
    rcases hparse : parseMessage crc .maxValue l.buf with ⟨(_ | msg) | e | _ | _, rest⟩
    · exact .inl ⟨rfl, fun _ => rfl⟩
    · exact .inr ⟨hnone, .inl ⟨msg, rest, rfl, rfl⟩⟩
    · exact .inr ⟨hnone, .inr ⟨e, rest, rfl, rfl⟩⟩
    all_goals
      rw [hparse] at hreturns
      exact absurd hreturns id

/-- The server waits: it has no whole frame, and more may come. -/
def Link.Waits (crc : Checksum) (config : ServerConfig) (l : Link) : Prop :=
  (MongoCodec.decode crc ⟨config.maxMsgLen⟩ l.inbox).1 = .ok none ∧
    (l.closed = false ∨ l.uplink ≠ [])

theorem Link.serve_cases (l : Link) (now : Int64) (handler : Handler) :
    (l.serve crc build config now handler = l ∧ (l.result = none → l.Waits crc config)) ∨
    (l.result = none ∧
      ((∃ msg rest, MongoCodec.decode crc ⟨config.maxMsgLen⟩ l.inbox = (.ok (some msg), rest) ∧
        l.serve crc build config now handler =
          l.turn crc build config ⟨⟨.ok msg, now⟩, handler⟩ rest) ∨
      (∃ e rest,
        ((MongoCodec.decode crc ⟨config.maxMsgLen⟩ l.inbox).1 = .err e ∨ l.closed = true) ∧
        l.serve crc build config now handler =
          l.turn crc build config ⟨⟨.error e, now⟩, handler⟩ rest) ∨
      l.closed = true ∧ l.serve crc build config now handler = { l with result := some (.ok ()) })) := by
  have hreturns := returns_parseMessage crc config.maxMsgLen l.inbox
  unfold Link.serve
  split
  · rename_i hresult
    refine .inl ⟨rfl, fun hrun => ?_⟩
    rw [hrun] at hresult
    cases hresult
  · have hrun : l.result = none := Option.not_isSome_iff_eq_none.mp ‹_›
    split
    · exact .inr ⟨hrun, .inl ⟨_, _, ‹_›, rfl⟩⟩
    · exact .inr ⟨hrun, .inr (.inl ⟨_, _, .inl (congrArg Prod.fst ‹_›), rfl⟩)⟩
    · rename_i hmsg herr
      split
      · rename_i hmore
        refine .inl ⟨rfl, fun _ => ⟨?_, by simpa using hmore⟩⟩
        rcases hdecode : MongoCodec.decode crc ⟨config.maxMsgLen⟩ l.inbox with
          ⟨(_ | msg) | e | _ | _, rest⟩
        · rfl
        · exact absurd hdecode (hmsg msg rest)
        · exact absurd hdecode (herr e rest)
        all_goals
          rw [show parseMessage crc config.maxMsgLen l.inbox = _ from hdecode] at hreturns
          exact absurd hreturns id
      · rename_i hdone
        have hclosed : l.closed = true := not_not.mp (not_or.mp hdone).1
        split
        · exact .inr ⟨hrun, .inr (.inr ⟨hclosed, rfl⟩)⟩
        · exact .inr ⟨hrun, .inr (.inl ⟨_, _, .inr hclosed, rfl⟩)⟩

theorem Link.serve_of_waits {l : Link} {now : Int64} {handler : Handler}
    (h : l.result = none → l.Waits crc config) : l.serve crc build config now handler = l := by
  unfold Link.serve
  split
  · rfl
  · obtain ⟨hwait, hmore⟩ := h (Option.not_isSome_iff_eq_none.mp ‹_›)
    rw [← Prod.eta (MongoCodec.decode crc ⟨config.maxMsgLen⟩ l.inbox), hwait]
    exact if_pos (by simpa using hmore)

theorem run_concat {ι : Type} [DecidableEq ι] (actions : List (ι × Action)) (x : ι × Action)
    (i : ι) : World.run crc build config (actions ++ [x]) i =
      if i = x.1 then (World.run crc build config actions i).act crc build config x.2
      else World.run crc build config actions i := by
  unfold World.run
  rw [List.foldl_append, List.foldl_cons, List.foldl_nil, World.act, Function.update_apply]
  split
  · rw [‹i = _›]
  · rfl

theorem Link.act_cases (l : Link) (a : Action) :
    ((l.act crc build config a).served = l.served ∧
      (l.act crc build config a).socket = l.socket) ∨
    ∃ now t, a = .serve now t.handler ∧ (l.act crc build config a).served = l.served ++ [t] ∧
      (l.act crc build config a).socket = (processTurn crc build config t l.socket).2 := by
  cases a with
  | serve now handler =>
    rcases l.serve_cases now handler with ⟨hsame, -⟩ | ⟨-, ⟨msg, rest, -, hturn⟩ |
        ⟨e, rest, -, hturn⟩ | ⟨-, hend⟩⟩
    · rw [Link.act, hsame]
      exact .inl ⟨rfl, rfl⟩
    · rw [Link.act, hturn]
      exact .inr ⟨now, ⟨⟨.ok msg, now⟩, handler⟩, rfl, rfl, rfl⟩
    · rw [Link.act, hturn]
      exact .inr ⟨now, ⟨⟨.error e, now⟩, handler⟩, rfl, rfl, rfl⟩
    · rw [Link.act, hend]
      exact .inl ⟨rfl, rfl⟩
  | write bytes =>
    rw [Link.act, Link.write]
    split <;> exact .inl ⟨rfl, rfl⟩
  | arrive n =>
    rw [Link.act, Link.arrive]
    split <;> exact .inl ⟨rfl, rfl⟩
  | recv =>
    rcases @Link.recv_cases crc l with ⟨hsame, -⟩ | ⟨-, ⟨msg, rest, -, hrecv⟩ | ⟨e, rest, -, hrecv⟩⟩
    · rw [Link.act, hsame]
      exact .inl ⟨rfl, rfl⟩
    · rw [Link.act, hrecv]
      exact .inl ⟨rfl, rfl⟩
    · rw [Link.act, hrecv]
      exact .inl ⟨rfl, rfl⟩
  | back n =>
    rw [Link.act, Link.back]
    split <;> exact .inl ⟨rfl, rfl⟩
  | shutdown => exact .inl ⟨rfl, rfl⟩

theorem served_induction {ι : Type} [DecidableEq ι] {actions : List (ι × Action)} {i : ι}
    {P : List Served → Socket → Prop} (hnew : P [] (.new config))
    (hturn : ∀ served socket t now, (i, .serve now t.handler) ∈ actions → P served socket →
      P (served ++ [t]) (processTurn crc build config t socket).2) :
    P (World.run crc build config actions i).served (World.run crc build config actions i).socket := by
  induction actions using List.reverseRecOn with
  | nil => exact hnew
  | append_singleton actions x ih =>
    have hsofar := ih fun served socket t now hmem =>
      hturn served socket t now (List.mem_append_left _ hmem)
    rw [run_concat]
    split
    · rename_i hi
      rcases (World.run crc build config actions i).act_cases x.2 with ⟨hserved, hsocket⟩ |
          ⟨now, t, hx, hserved, hsocket⟩
      · rw [hserved, hsocket]
        exact hsofar
      · rw [hserved, hsocket]
        refine hturn _ _ t now (List.mem_append_right _ (List.mem_singleton.mpr ?_)) hsofar
        rw [hi, ← hx]
    · exact hsofar

end MongoWire.Network
