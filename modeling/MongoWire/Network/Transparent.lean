import MongoWire.Api.Turns
import MongoWire.Messages.Compressed
import MongoWire.Network

/-!
# Compressed requests

A client may wrap any of its requests in `OP_COMPRESSED`. The server then does what it would have
done.
-/

open MongoWire.Lib MongoWire.Lib.Outcome MongoWire.Framing

namespace MongoWire.Network

/-! ## A stream that ends -/

/-- What `framed.next()` gives over a stream that ends: the messages, and an error if the last one
cannot be read or is cut off. -/
def arrivals (clock : Nat → Int64) (d : Drained UInt8 (Header × MessageBody) ProtocolError) :
    List Arrival :=
  let last : List (Except ProtocolError (Header × MessageBody)) := match d.stop with
    | .ok [] => []
    | .ok _ => [.error bytesRemaining]
    | .err e => [.error e]
    | _ => []
  (d.items.map Except.ok ++ last).zipIdx.map fun (frame, n) => ⟨frame, clock n⟩

/-- `process_socket` over everything that a client writes. -/
def serveStream (crc : Checksum) (build : Build) (config : ServerConfig) (handler : Handler)
    (clock : Nat → Int64) (bytes : Bytes) : Outcome Exit Unit × Socket :=
  Server.processSocket crc build config handler
    (arrivals clock (drainAll (MongoCodec.decode crc ⟨config.maxMsgLen⟩) bytes))

/-! ## Turns that cannot be told apart -/

theorem processFrame_congr {crc : Checksum} {build : Build} {config : ServerConfig}
    {handler : Handler} {header header' : Header} {wire wire' : MessageBody} (now : Int64)
    (hid : header.requestId = header'.requestId)
    (hbody : Ingress.unwrap build config.maxMsgLen wire =
      Ingress.unwrap build config.maxMsgLen wire') :
    Server.processFrame crc build config handler ⟨.ok (header, wire), now⟩ =
      Server.processFrame crc build config handler ⟨.ok (header', wire'), now⟩ := by
  have hquery (q : OpQuery) : Server.processQuery crc config now header q =
      Server.processQuery crc config now header' q := by
    unfold Server.processQuery
    rw [hid]
  have hmsg (m : OpMsg) : Server.processMsg crc handler header m =
      Server.processMsg crc handler header' m := by
    unfold Server.processMsg
    rw [hid]
  unfold Server.processFrame
  dsimp only
  rw [hbody]
  simp only [hquery, hmsg]

/-! ## The two streams -/

/-- A request as it is, and as its client writes it: with the same body, or with this body wrapped.
A request that carries a checksum takes it into the wrapper. -/
structure Request (crc : Checksum) (build : Build) (config : ServerConfig) where
  plain : Letter
  written : Letter
  requestId_eq : written.header.requestId = plain.header.requestId
  not_nested : plain.body.opcode ≠ .compressed
  packs : (written.received crc).2 = (plain.received crc).2 ∨ ∃ id c, written.body = .compressed c ∧
    OpCompressed.wrap build plain.body.opcode ((plain.received crc).2.encodeBody []) id = .ok c
  plain_fits : ((plain.frame crc).length : Int) ≤ config.maxMsgLen.toInt
  written_fits : ((written.frame crc).length : Int) ≤ config.maxMsgLen.toInt

namespace Request

variable {crc : Checksum} {build : Build} {config : ServerConfig}

theorem received_compressed {x : Letter} {c : OpCompressed} (h : x.body = .compressed c) :
    (x.received crc).2 = .compressed c := by
  unfold Outgoing.received
  rw [h]

theorem opcode_received (x : Letter) : (x.received crc).2.opcode = x.body.opcode := by
  rcases x.received_cases crc with hsame | ⟨m, c, hbody, hsigned⟩
  · rw [hsame]
  · rw [hsigned, hbody]
    rfl

theorem length_encodeBody_le (x : Letter) :
    ((x.received crc).2.encodeBody []).length ≤ (x.frame crc).length := by
  have hparses := (x.delivers crc).parses []
  rw [← Prod.eta (x.received crc), parseMessage_eq_some] at hparses
  obtain ⟨w, hframe, -⟩ := hparses
  have hlen := congrArg List.length hframe
  rw [List.length_append, List.length_append, length_frameLayout] at hlen
  rw [MessageBody.encodeBody_eq]
  simp only [List.nil_append, List.length_append, length_u32ToLe]
  omega

theorem parses_received (x : Letter) :
    MessageBody.parseBody x.body.opcode ((x.received crc).2.encodeBody []) =
      .ok (x.received crc).2 := by
  rcases x.received_cases crc with hsame | ⟨m, c, hbody, hsigned⟩
  · rw [hsame]
    exact x.sendable.parses
  · have hparsed := x.sendable.parsed
    rw [hbody] at hparsed ⊢
    rw [hsigned, MessageBody.encodeBody_eq, List.nil_append]
    exact (MessageBody.parseBody_eq_ok _ _ _).mpr ⟨rfl, _, hparsed.withChecksum c, rfl⟩

theorem unwrap_of_not_nested {b : MessageBody} (h : b.opcode ≠ .compressed) {maxMsgLen : Int32} :
    Ingress.unwrap build maxMsgLen b = .ok b := by
  cases b with
  | compressed c => exact absurd rfl h
  | _ => rfl

theorem unwrap_written (hbuild : ∀ id, ∀ c ∈ build.codec id, c.Binding)
    (r : Request crc build config) :
    Ingress.unwrap build config.maxMsgLen (r.written.received crc).2 =
      Ingress.unwrap build config.maxMsgLen (r.plain.received crc).2 := by
  rcases r.packs with hsame | ⟨id, c, hbody, hwrap⟩
  · rw [hsame]
  · obtain ⟨hlt, z, hz, rfl⟩ := OpCompressed.wrap_eq_ok.mp hwrap
    have hplain : (r.plain.received crc).2.opcode ≠ .compressed := by
      rw [opcode_received]
      exact r.not_nested
    have hsize := toInt_ofNat ((r.plain.received crc).2.encodeBody []).length hlt
    have hle : (((r.plain.received crc).2.encodeBody []).length : Int) ≤ config.maxMsgLen.toInt :=
      (Int.ofNat_le.mpr (length_encodeBody_le r.plain)).trans r.plain_fits
    rw [received_compressed hbody, unwrap_of_not_nested hplain, Ingress.unwrap,
      OpCompressed.unwrapBody_of_size r.not_nested hsize hle,
      Build.decompress_compress (hbuild id) hz]
    exact parses_received r.plain

theorem processFrame_written (hbuild : ∀ id, ∀ c ∈ build.codec id, c.Binding)
    (handler : Handler) (now : Int64) (r : Request crc build config) :
    Server.processFrame crc build config handler ⟨.ok (r.written.received crc), now⟩ =
      Server.processFrame crc build config handler ⟨.ok (r.plain.received crc), now⟩ :=
  processFrame_congr now r.requestId_eq (r.unwrap_written hbuild)

theorem arrivals_frames (clock : Nat → Int64) (requests : List (Request crc build config))
    {side : Request crc build config → Letter}
    (hfits : ∀ r, (((side r).frame crc).length : Int) ≤ config.maxMsgLen.toInt) :
    arrivals clock (drainAll (MongoCodec.decode crc ⟨config.maxMsgLen⟩)
        (requests.flatMap fun r => (side r).frame crc)) =
      requests.zipIdx.map fun (r, n) => ⟨.ok ((side r).received crc), clock n⟩ := by
  have hinc := incremental_decode crc ⟨config.maxMsgLen⟩
  have hcodes := hinc.drainAll_codes (fun r => (side r).parses (hfits r)) requests []
  rw [Drained.andThen_ok, hinc.drainAll_of_none (parseMessage_nil crc _), List.append_nil,
    List.append_nil] at hcodes
  rw [hcodes, arrivals]
  simp [List.zipIdx_map]

end Request

/-- **Compression does not show.** Whatever a handler does: whether a client sends its requests as
they are, or any of them compressed, in any of the ways that the server knows, the connection
returns the same, calls its handler with the same commands and answers with the same replies. The
requests keep the server's limit in both forms, and their checksums, if they have any, are right. -/
theorem compression_does_not_show (crc : Checksum) (snappy zlib zstd : Option Compressor)
    (hsnappy : ∀ c ∈ snappy, c.Lossless) (hzlib : ∀ c ∈ zlib, c.Lossless)
    (hzstd : ∀ c ∈ zstd, c.Lossless) (config : ServerConfig) (handler : Handler)
    (clock : Nat → Int64) (requests : List (Request crc (.ofFeatures snappy zlib zstd) config)) :
    serveStream crc (.ofFeatures snappy zlib zstd) config handler clock
        (requests.flatMap fun r => r.written.frame crc) =
      serveStream crc (.ofFeatures snappy zlib zstd) config handler clock
        (requests.flatMap fun r => r.plain.frame crc) := by
  have hbuild := Build.binding_ofFeatures hsnappy hzlib hzstd
  unfold serveStream Server.processSocket
  rw [Request.arrivals_frames clock requests Request.written_fits,
    Request.arrivals_frames clock requests Request.plain_fits]
  refine congrFun (Method.forEach_congr ?_) _
  rw [List.forall₂_map_left_iff, List.forall₂_map_right_iff, List.forall₂_same]
  rintro ⟨r, n⟩ -
  exact r.processFrame_written hbuild handler (clock n)

/-- A wrapped body under the header of its request. -/
def packedLetter (header : Header) (c : OpCompressed) (hsize : 0 ≤ c.uncompressedSize.toInt)
    (hfits : total (.compressed c) false ≤ maxMsgLen) : Letter where
  header := { header with opCode := .compressed }
  body := .compressed c
  checksum := false
  sendable := by
    refine ⟨rfl, nofun, ?_, nofun⟩
    show (do return MessageBody.compressed (← OpCompressed.parseBody (c.encodeBody []))) = _
    rw [OpCompressed.parseBody_encodeBody hsize]
    rfl
  fits := hfits

/-! Pings without and with a checksum, stored in snappy frames. -/

def pingLetter (checksum : Bool) : Letter where
  header := ⟨0, 5, 0, .msg⟩
  body := .msg ⟨⟨0⟩, ⟨Server.Sample.body, []⟩, none⟩
  checksum := checksum
  sendable := ⟨rfl, by rintro _ ⟨⟩; rfl, by decide +revert, fun _ => rfl⟩
  fits := by cases checksum <;> decide

def packedPing (checksum : Bool) : OpCompressed :=
  let body := ((pingLetter checksum).received crc32c).2.encodeBody []
  ⟨.msg, .ofNat body.length, .snappy, OpCompressed.storedFrame body⟩

def pingRequest (checksum : Bool) :
    Request crc32c (.ofFeatures (some OpCompressed.storing) none none) Server.Sample.config where
  plain := pingLetter checksum
  written := packedLetter ⟨0, 5, 0, .msg⟩ (packedPing checksum)
    (by cases checksum <;> decide +kernel) (by cases checksum <;> decide +kernel)
  requestId_eq := rfl
  not_nested := nofun
  packs := .inr ⟨.snappy, packedPing checksum, rfl, OpCompressed.wrap_eq_ok.mpr
    ⟨by cases checksum <;> decide +kernel, _, rfl, rfl⟩⟩
  plain_fits := by cases checksum <;> decide +kernel
  written_fits := by cases checksum <;> decide +kernel

theorem compression_does_not_show_ping :
    let build := Build.ofFeatures (some OpCompressed.storing) none none
    let handler := Server.Sample.always (.ok .noReply) trivial
    serveStream crc32c build Server.Sample.config handler (fun _ => 0)
        ([pingRequest false, pingRequest true].flatMap fun r => r.written.frame crc32c) =
      serveStream crc32c build Server.Sample.config handler (fun _ => 0)
        ([pingRequest false, pingRequest true].flatMap fun r => r.plain.frame crc32c) :=
  compression_does_not_show crc32c (some OpCompressed.storing) none none
    (by simpa using OpCompressed.storing_lossless) (by simp) (by simp) Server.Sample.config
    (Server.Sample.always (.ok .noReply) trivial) (fun _ => 0) [pingRequest false, pingRequest true]

end MongoWire.Network
