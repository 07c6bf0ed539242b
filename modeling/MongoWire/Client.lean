import MongoWire.Framing.Pipeline
import MongoWire.Framing.Stream
import MongoWire.Lib.Method
import MongoWire.Lib.Residual

/-!
# The client

`mongowire/src/test_client.rs`: a client that writes single frames and reads frames off a stream
that arrives in chunks.
-/

open MongoWire.Lib MongoWire.Lib.Outcome MongoWire.Framing

namespace MongoWire

/-- `Header::new`: the length is filled in by the encoder. -/
def Header.new (requestId responseTo : Int32) (opCode : Opcode) : Header :=
  ⟨0, requestId, responseTo, opCode⟩

/-- The legacy handshake, a query on `admin.$cmd`. -/
def OpQuery.handshake (request : RawDocument) : OpQuery where
  flags := ⟨0⟩
  fullCollectionName := "admin.$cmd"
  numberToSkip := 0
  numberToReturn := -1
  query := request
  returnFieldsSelector := none

/-- A client: the chunks that `read_buf` is going to give, and the bytes that it has read. -/
structure TestClient where
  stream : List Bytes
  buf : Bytes

namespace TestClient

/-- `next_id`, on the counter of the process. -/
def nextId : Method ε Int32 Int32 := do
  let id ← .get
  .modify (· + 1)
  return id

/-- `frame_bytes`. -/
def frameBytes (crc : Checksum) (requestId responseTo : Int32) (body : MessageBody)
    (checksum : Bool) : Outcome ProtocolError Bytes := do
  let encoded := encodeMessage crc (.new requestId responseTo body.opcode) body checksum []
  encoded.result
  return encoded.out

def truncated : ProtocolError := .invalidHeader "truncated message before EOF"

/-- A read of no bytes: the end of the stream. -/
def eof (buf : Bytes) : Outcome ProtocolError (Option (Header × MessageBody)) :=
  if buf = [] then .ok none else .err truncated

/-- The loop of `recv`, which reads a chunk whenever the buffer holds no whole message. -/
def recvLoop (crc : Checksum) (stream : List Bytes) (buf : Bytes) :
    Outcome ProtocolError (Option (Header × MessageBody)) × TestClient :=
  match parseMessage crc .maxValue buf, stream with
  | (.ok none, buf), [] => (eof buf, ⟨[], buf⟩)
  | (.ok none, buf), chunk :: stream =>
    if chunk = [] then (eof buf, ⟨stream, buf⟩) else recvLoop crc stream (buf ++ chunk)
  | (result, buf), stream => (result, ⟨stream, buf⟩)
termination_by structural stream

def recv (crc : Checksum) : Method ProtocolError TestClient (Option (Header × MessageBody)) :=
  fun c => recvLoop crc c.stream c.buf

/-- `request`, where `peer` is what the other side sends back once it got the bytes. -/
def request (crc : Checksum) (peer : Bytes → List Bytes) (body : MessageBody) :
    Method ProtocolError (Int32 × TestClient) (Header × MessageBody) := do
  let id ← nextId.zoom Prod.fst fun s n => (n, s.2)
  let bytes ← .check (frameBytes crc id 0 body false)
  .modify fun s => (s.1, { s.2 with stream := s.2.stream ++ peer bytes })
  let found ← (recv crc).zoom Prod.snd fun s c => (s.1, c)
  -- `expect` on the message, and `assert_eq!` on its id.
  match found with
  | none => .check .panic
  | some (header, reply) =>
    .check (if header.responseTo = id then .ok (header, reply) else .panic)

/-- The results of `n` calls of `recv`. -/
def recvs (crc : Checksum) : Nat → TestClient →
    List (Outcome ProtocolError (Option (Header × MessageBody)))
  | 0, _ => []
  | n + 1, c => (recv crc c).1 :: recvs crc n (recv crc c).2

/-! ## What the calls return -/

/-- What `recv` returns after the last message, by how the stream ended. -/
def ending : Outcome ProtocolError Bytes → Outcome ProtocolError (Option (Header × MessageBody))
  | .ok rest => eof rest
  | .err e => .err e
  | .panic => .panic
  | .hang => .hang

/-- `read_buf` gives no bytes only at the end of the stream. -/
def Live (stream : List Bytes) : Prop := ∀ chunk ∈ stream, chunk ≠ []

variable {crc : Checksum}

theorem recvLoop_of_ready {stream : List Bytes} {buf rest : Bytes}
    {result : Outcome ProtocolError (Option (Header × MessageBody))}
    (hparse : parseMessage crc .maxValue buf = (result, rest)) (hready : result ≠ .ok none) :
    recvLoop crc stream buf = (result, ⟨stream, rest⟩) := by
  unfold recvLoop
  rw [hparse]
  rcases result with (_ | _) | _ | _ | _
  · exact absurd rfl hready
  all_goals rfl

theorem recvLoop_of_eof {buf : Bytes} (hwait : (parseMessage crc .maxValue buf).1 = .ok none) :
    recvLoop crc [] buf = (eof buf, ⟨[], buf⟩) := by
  have hparse : parseMessage crc .maxValue buf = (.ok none, buf) :=
    Prod.ext hwait (parseMessage_wait buf hwait)
  unfold recvLoop
  rw [hparse]

theorem recvLoop_of_wait {chunk : Bytes} {stream : List Bytes} {buf : Bytes} (hne : chunk ≠ [])
    (hwait : (parseMessage crc .maxValue buf).1 = .ok none) :
    recvLoop crc (chunk :: stream) buf = recvLoop crc stream (buf ++ chunk) := by
  have hparse : parseMessage crc .maxValue buf = (.ok none, buf) :=
    Prod.ext hwait (parseMessage_wait buf hwait)
  rw [recvLoop.eq_def, hparse]
  exact if_neg hne

/-- What a call returns when `d` is all that its client still gets. -/
def Gives (crc : Checksum) (d : Drained UInt8 (Header × MessageBody) ProtocolError)
    (r : Outcome ProtocolError (Option (Header × MessageBody)) × TestClient) : Prop :=
  match d.items with
  | [] => r.1 = ending d.stop
  | x :: xs => r.1 = .ok (some x) ∧ Live r.2.stream ∧
      drainAll (parseMessage crc .maxValue) (r.2.buf ++ r.2.stream.flatten) = ⟨xs, d.stop⟩

theorem gives_of_ready {stream : List Bytes} (hlive : Live stream) {buf : Bytes}
    (hready : (parseMessage crc .maxValue buf).1 ≠ .ok none) :
    Gives crc (drainAll (parseMessage crc .maxValue) (buf ++ stream.flatten))
      (recvLoop crc stream buf) := by
  have hinc := incremental_parseMessage crc .maxValue
  have hreturns := returns_parseMessage crc .maxValue buf
  have hstable := parseMessage_append buf stream.flatten hready
  rcases hparse : parseMessage crc .maxValue buf with ⟨(_ | x) | e | _ | _, rest⟩
  · rw [hparse] at hready
    exact absurd rfl hready
  · rw [hparse] at hstable
    have hsome := hinc.drainAll_of_some (congrArg Prod.fst hstable)
    rw [hstable] at hsome
    rw [recvLoop_of_ready hparse nofun, hsome]
    exact ⟨rfl, hlive, rfl⟩
  · rw [recvLoop_of_ready hparse nofun,
      hinc.drainAll_of_err (congrArg Prod.fst hparse) stream.flatten]
    exact rfl
  all_goals
    rw [hparse] at hreturns
    exact absurd hreturns id

theorem gives_recvLoop (stream : List Bytes) (hlive : Live stream) (buf : Bytes) :
    Gives crc (drainAll (parseMessage crc .maxValue) (buf ++ stream.flatten))
      (recvLoop crc stream buf) := by
  have hinc := incremental_parseMessage crc .maxValue
  induction stream generalizing buf with
  | nil =>
    by_cases hwait : (parseMessage crc .maxValue buf).1 = .ok none
    · rw [List.flatten_nil, List.append_nil, hinc.drainAll_of_none hwait, recvLoop_of_eof hwait]
      exact rfl
    · exact gives_of_ready hlive hwait
  | cons chunk stream ih =>
    obtain ⟨hne, hlive'⟩ := List.forall_mem_cons.mp hlive
    by_cases hwait : (parseMessage crc .maxValue buf).1 = .ok none
    · rw [List.flatten_cons, ← List.append_assoc, recvLoop_of_wait hne hwait]
      exact ih hlive' (buf ++ chunk)
    · exact gives_of_ready hlive hwait

theorem recvs_eq {c : TestClient} (hlive : Live c.stream) {items : List (Header × MessageBody)}
    {stop : Outcome ProtocolError Bytes}
    (hdrain : drainAll (parseMessage crc .maxValue) (c.buf ++ c.stream.flatten) = ⟨items, stop⟩) :
    recvs crc (items.length + 1) c = items.map (fun x => .ok (some x)) ++ [ending stop] := by
  induction items generalizing c with
  | nil =>
    have hgives := @gives_recvLoop crc c.stream hlive c.buf
    rw [hdrain] at hgives
    exact congrArg (fun r => [r]) hgives
  | cons x items ih =>
    have hgives := @gives_recvLoop crc c.stream hlive c.buf
    rw [hdrain] at hgives
    obtain ⟨hsome, hlive', hrest⟩ := hgives
    exact congrArg₂ List.cons hsome (ih hlive' hrest)

/-- **The chunks of a stream do not show.** Whatever a stream holds, and wherever its reads are cut,
the calls of `recv` return its messages in order. The call after the last message returns `None` if
the stream ends there, complains about a message that is cut off, or passes on the parser's error. -/
theorem recv_returns_messages (crc : Checksum) (chunks : List Bytes)
    (hlive : ∀ chunk ∈ chunks, chunk ≠ []) :
    let d := drainAll (parseMessage crc .maxValue) chunks.flatten
    recvs crc (d.items.length + 1) ⟨chunks, []⟩ =
      d.items.map (fun x => .ok (some x)) ++ [ending d.stop] :=
  @recvs_eq crc ⟨chunks, []⟩ hlive _ _ rfl

theorem recv_returns_messages_cut :
    recvs crc32c 2 ⟨[emptyFrame.take 3, emptyFrame.drop 3 ++ emptyFrame.take 20], []⟩ =
      [.ok (some (⟨26, 7, 0, .msg⟩, .msg ⟨⟨0⟩, ⟨OpMsg.emptyDocument, []⟩, none⟩)),
        .err truncated] :=
  -- A frame in two chunks, and one that is cut off.
  recv_returns_messages crc32c [emptyFrame.take 3, emptyFrame.drop 3 ++ emptyFrame.take 20]
    (by decide)

end TestClient

/-! ## Streams of frames -/

/-- A message that can be sent. -/
structure Letter extends Outgoing where
  sendable : toOutgoing.Sendable
  fits : total body checksum ≤ maxMsgLen

namespace Letter

variable {crc : Checksum}

theorem delivers (crc : Checksum) (x : Letter) : Delivers crc x.toOutgoing := x.sendable.delivers x.fits

theorem received_cases (crc : Checksum) (x : Letter) : (x.received crc).2 = x.body ∨
    ∃ m c, x.body = .msg m ∧ (x.received crc).2 = .msg (m.withChecksum c) := by
  unfold Outgoing.received
  rcases x.body with m | _ | _ | _
  · dsimp only
    split
    · exact .inr ⟨m, _, rfl, rfl⟩
    · exact .inl rfl
  all_goals exact .inl rfl

theorem parses (x : Letter) {maxLen : Int32} (hle : ((x.frame crc).length : Int) ≤ maxLen.toInt)
    (rest : Bytes) :
    parseMessage crc maxLen (x.frame crc ++ rest) = (.ok (some (x.received crc)), rest) := by
  obtain ⟨-, hlen, hparses⟩ := x.delivers crc
  obtain ⟨w, hframe, ha⟩ := (parseMessage_eq_some _ _).mp (hparses rest)
  obtain ⟨h16, -, hmax⟩ := ha.bounds
  exact (parseMessage_eq_some _ _).mpr ⟨w, hframe,
    ⟨h16, hlen.le.trans hle, hmax⟩, ha.length, ha.opcode, ha.parsed, ha.checksum⟩

theorem parses_client (x : Letter) (rest : Bytes) :
    parseMessage crc .maxValue (x.frame crc ++ rest) = (.ok (some (x.received crc)), rest) := by
  refine x.parses ?_ rest
  rw [← (x.delivers crc).length]
  exact Int32.toInt_le _

theorem frameBytes_eq (crc : Checksum) (x : Letter) :
    TestClient.frameBytes crc x.header.requestId x.header.responseTo x.body x.checksum =
      .ok (x.frame crc) := by
  have hheader : Header.new x.header.requestId x.header.responseTo x.body.opcode =
      { x.header with messageLength := 0 } := by
    rw [← x.sendable.opcode]
    rfl
  have hsame : (encodeMessage crc { x.header with messageLength := 0 } x.body x.checksum []).out =
        x.frame crc ∧
      (encodeMessage crc { x.header with messageLength := 0 } x.body x.checksum []).result =
        (x.encode crc []).result := by
    unfold Outgoing.frame Outgoing.encode encodeMessage
    split
    · exact ⟨rfl, rfl⟩
    · split
      · exact ⟨rfl, rfl⟩
      · exact ⟨rfl, rfl⟩
  unfold TestClient.frameBytes
  rw [hheader]
  dsimp only
  rw [hsame.1, hsame.2, (x.delivers crc).appends]
  rfl

end Letter

theorem TestClient.request_eq {crc : Checksum} {peer : Bytes → List Bytes} {x : Letter}
    (hto : x.header.responseTo = 0) (hunsigned : x.checksum = false)
    (hlive : Live (peer (x.frame crc))) {found : Header × MessageBody}
    {more : List (Header × MessageBody)} {stop : Outcome ProtocolError Bytes}
    (hdrain : drainAll (parseMessage crc .maxValue) (peer (x.frame crc)).flatten =
      ⟨found :: more, stop⟩)
    (hid : found.1.responseTo = x.header.requestId) :
    (request crc peer x.body (x.header.requestId, ⟨[], []⟩)).1 = .ok found := by
  have hbytes := x.frameBytes_eq crc
  rw [hto, hunsigned] at hbytes
  obtain ⟨c, hrecv⟩ : ∃ c, recv crc ⟨peer (x.frame crc), []⟩ = (.ok (some found), c) := by
    have hall := @recvs_eq crc ⟨peer (x.frame crc), []⟩ hlive _ _ hdrain
    exact ⟨_, Prod.ext (List.head_eq_of_cons_eq hall) rfl⟩
  have hnext : nextId.zoom Prod.fst (fun s n => (n, s.2)) (x.header.requestId, ⟨[], []⟩) =
      ((.ok x.header.requestId : Outcome ProtocolError Int32),
        (x.header.requestId + 1, (⟨[], []⟩ : TestClient))) := rfl
  have hfound : (recv crc).zoom Prod.snd (fun s c => (s.1, c))
      (x.header.requestId + 1, ⟨[] ++ peer (x.frame crc), []⟩) =
        (.ok (some found), (x.header.requestId + 1, c)) := by
    unfold Method.zoom
    dsimp only
    rw [List.nil_append, hrecv]
  unfold request
  rw [Method.bind_of_ok hnext, hbytes, Method.check_ok_bind, Method.modify_bind,
    Method.bind_of_ok hfound]
  dsimp only
  rw [if_pos hid]
  rfl

/-- **A stream of frames that is cut off.** Wherever the connection breaks, and however the reads are
cut, `recv` returns the messages whose frames are whole. Then it returns `None` if the connection
broke between two frames, and an error if it broke inside one. -/
theorem TestClient.recv_cut_frames (crc : Checksum) (letters : List Letter) (n : Nat)
    (chunks : List Bytes) (hlive : ∀ chunk ∈ chunks, chunk ≠ [])
    (hcut : chunks.flatten = (letters.flatMap fun x => x.frame crc).take n) :
    ∃ k rest, chunks.flatten = ((letters.take k).flatMap fun x => x.frame crc) ++ rest ∧
      (∀ x ∈ letters[k]?, rest.length < (x.frame crc).length) ∧
      recvs crc ((letters.take k).length + 1) ⟨chunks, []⟩ =
        (letters.take k).map (fun x => .ok (some (x.received crc))) ++
          [if rest = [] then .ok none else .err truncated] := by
  have hinc := incremental_parseMessage crc .maxValue
  obtain ⟨k, rest, htake, hnext, hdrain⟩ :=
    hinc.drainAll_cut (fun x : Letter => x.parses_client) (parseMessage_nil crc _) letters n
  rw [← hcut] at htake hdrain
  have hrecvs := @recvs_eq crc ⟨chunks, []⟩ hlive _ _ hdrain
  rw [List.length_map, List.map_map] at hrecvs
  exact ⟨k, rest, htake, hnext, hrecvs⟩

/-- An empty document. -/
def Letter.empty : Letter where
  header := ⟨26, 7, 0, .msg⟩
  body := .msg ⟨⟨0⟩, ⟨OpMsg.emptyDocument, []⟩, none⟩
  checksum := false
  sendable := ⟨rfl, by rintro _ ⟨⟩; rfl, by decide, nofun⟩
  fits := by decide

theorem TestClient.recv_cut_frames_empty :
    let chunks := [(Letter.empty.frame crc32c).take 3,
      (Letter.empty.frame crc32c).drop 3 ++ (Letter.empty.frame crc32c).take 20]
    ∃ k rest, chunks.flatten = (([Letter.empty, .empty].take k).flatMap fun x => x.frame crc32c) ++ rest ∧
      recvs crc32c (([Letter.empty, .empty].take k).length + 1) ⟨chunks, []⟩ =
        ([Letter.empty, .empty].take k).map (fun x => .ok (some (x.received crc32c))) ++
          [if rest = [] then .ok none else .err truncated] := by
  -- Two frames of which the second one is cut off.
  intro chunks
  obtain ⟨k, rest, hrest, -, hrecvs⟩ :=
    recv_cut_frames crc32c [.empty, .empty] 46 chunks (by decide) (by decide)
  exact ⟨k, rest, hrest, hrecvs⟩

end MongoWire
