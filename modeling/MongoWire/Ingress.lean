import MongoWire.Framing.Stream
import MongoWire.Framing.Checksum

/-!
# The way in

What `process_socket` of `mongowire/src/api/mod.rs` does with a byte stream
before it dispatches a request: parse a frame, and unwrap it if it is
compressed. Any error closes the connection.
-/

open MongoWire.Lib MongoWire.Lib.Outcome MongoWire.Io MongoWire.Framing

namespace MongoWire.Ingress

/-- One request that reached the dispatch. -/
structure Request where
  /-- The frame as it came off the stream. -/
  frame : Bytes
  header : Header
  /-- The body of the frame. -/
  wire : MessageBody
  /-- The body that is dispatched. -/
  body : MessageBody
  deriving DecidableEq

def unwrap (build : Build) (maxMsgLen : Int32) :
    MessageBody → Outcome ProtocolError MessageBody
  | .compressed c => c.unwrapBody build maxMsgLen
  | body => .ok body

/-- One round of the loop of `process_socket`, up to the dispatch. -/
def readRequest (crc : Checksum) (build : Build) (maxMsgLen : Int32) :
    Decoder UInt8 Request ProtocolError := fun buf =>
  match parseMessage crc maxMsgLen buf with
  | (.ok (some (header, wire)), rest) =>
    (do return some ⟨buf.take (buf.length - rest.length), header, wire,
          ← unwrap build maxMsgLen wire⟩, rest)
  | (.ok none, rest) => (.ok none, rest)
  | (.err e, rest) => (.err e, rest)
  | (.panic, rest) => (.panic, rest)
  | (.hang, rest) => (.hang, rest)

/-- Every document that a body holds. -/
def documents : MessageBody → List RawDocument
  | .msg m => m.sections.body :: m.sections.sequences.flatMap (·.documents)
  | .query q => q.query :: q.returnFieldsSelector.toList
  | .reply r => r.documents
  | .compressed _ => []

/-! ## Hostile input -/

theorem returns_unwrap (build : Build) (maxMsgLen : Int32) (b : MessageBody) :
    (unwrap build maxMsgLen b).Returns := by
  cases b with
  | compressed c => exact c.returns_unwrapBody build maxMsgLen
  | _ => trivial

theorem returns_readRequest (crc : Checksum) (build : Build) (maxMsgLen : Int32) (buf : Bytes) :
    (readRequest crc build maxMsgLen buf).1.Returns := by
  have hreturns := returns_parseMessage crc maxMsgLen buf
  unfold readRequest
  split <;> rename_i hparse
  · simp [returns_bind, returns_unwrap]
  · trivial
  · trivial
  all_goals simp [hparse] at hreturns

/-- Every call on a document comes back. -/
structure Inspectable (d : RawDocument) : Prop where
  command : d.command.Returns
  fields : ∀ item ∈ d.fields, item.Returns
  get : ∀ key, (d.get key).Returns
  shallow : d.shallow.Returns
  deep : d.deep.Returns

theorem inspectable (d : RawDocument) : Inspectable d :=
  ⟨d.returns_command, d.returns_of_mem_fields, d.returns_get, d.returns_decode .shallow,
    d.returns_decode .deep⟩

/-- **No crash on hostile input.** Whatever the buffer, the limit and the decompressors, reading a
request comes back, and so does every call on every document of a request that was read. -/
theorem returns_ingress (crc : Checksum) (build : Build) (maxMsgLen : Int32) (buf : Bytes) :
    (parseMessage crc maxMsgLen buf).1.Returns ∧
    (readRequest crc build maxMsgLen buf).1.Returns ∧
    ∀ request, (readRequest crc build maxMsgLen buf).1 = .ok (some request) →
      ∀ d ∈ documents request.body, Inspectable d :=
  ⟨returns_parseMessage crc maxMsgLen buf, returns_readRequest crc build maxMsgLen buf,
    fun _ _ d _ => inspectable d⟩

/-- A build without any compressor but `noop`. -/
def bareBuild : Build := ⟨none, none, none⟩

/-- The request 1 with the body `{}` and the checksum `t`, wrapped without compression. -/
def wrappedFrame (t : UInt32) : Bytes :=
  [39, 0, 0, 0, 1, 0, 0, 0, 0, 0, 0, 0, 220, 7, 0, 0, 221, 7, 0, 0, 14, 0, 0, 0, 0,
    1, 0, 0, 0, 0, 5, 0, 0, 0, 0] ++ u32ToLe t

def wrappedRequest (t : UInt32) : Request where
  frame := wrappedFrame t
  header := ⟨39, 1, 0, .compressed⟩
  wire := .compressed ⟨.msg, 14, .noop, [1, 0, 0, 0, 0, 5, 0, 0, 0, 0] ++ u32ToLe t⟩
  body := .msg { signedMessage with checksum := some t }

theorem returns_ingress_wrappedFrame :
    readRequest crc32c bareBuild (.ofNat maxMsgLen) (wrappedFrame 0) =
      (.ok (some (wrappedRequest 0)), []) ∧ Inspectable OpMsg.emptyDocument := by
  have hread : readRequest crc32c bareBuild (.ofNat maxMsgLen) (wrappedFrame 0) =
      (.ok (some (wrappedRequest 0)), []) := by
    decide
  refine ⟨hread, (returns_ingress crc32c bareBuild (.ofNat maxMsgLen) (wrappedFrame 0)).2.2
    (wrappedRequest 0) (by rw [hread]) _ ?_⟩
  exact List.mem_cons_self

/-! ## Checksums on read -/

/-- The uncompressed message that a request stands for, header included. -/
def Request.message (build : Build) (r : Request) : Outcome ProtocolError Bytes :=
  match r.wire with
  | .compressed c => do
    let body ← build.decompress c.compressorId c.compressedMessage (i32AsUsize c.uncompressedSize)
    return (Header.mk (16 + c.uncompressedSize) r.header.requestId r.header.responseTo
      c.originalOpcode).layout ++ body
  | _ => .ok r.frame

/-- The body is an `OP_MSG` that carries the checksum `c`. -/
def Request.Carries (r : Request) (c : UInt32) : Prop :=
  ∃ m, r.body = .msg m ∧ m.flags.contains .checksumPresent = true ∧ m.checksum = some c

/-- A checksum that is carried is that of the message, without its last four bytes. -/
def Request.Verified (crc : Checksum) (build : Build) (r : Request) : Prop :=
  ∀ c, r.Carries c →
    ∃ message, r.message build = .ok message ∧ c = crc (message.take (message.length - 4))

/-- A frame that wraps an `OP_MSG` body with `checksumPresent` into `OP_COMPRESSED`. -/
def WrapsChecksum (build : Build) (frame : Bytes) : Prop :=
  (frame.take msgHeaderLen).drop 12 = i32ToLe Opcode.compressed.toI32 ∧
  ∃ z, OpCompressed.parseBody (frame.drop msgHeaderLen) = .ok z ∧ z.originalOpcode = .msg ∧
    ∃ body, build.decompress z.compressorId z.compressedMessage
        (i32AsUsize z.uncompressedSize) = .ok body ∧
      u32FromLe (body.take 4) &&& MsgFlag.checksumPresent ≠ 0

/-- The requests that a stream delivers, in the chunks it comes in. -/
def requests (crc : Checksum) (build : Build) (maxMsgLen : Int32) (chunks : List Bytes) :
    List Request :=
  (feed (readRequest crc build maxMsgLen) chunks []).items

/-- No frame of the run wraps a checksum. -/
def Unwrapped (build : Build) (rs : List Request) : Prop :=
  ∀ r ∈ rs, ¬ WrapsChecksum build r.frame

/-- The frame with another checksum in its last four bytes. -/
def withTrailer (frame : Bytes) (t : UInt32) : Bytes := frame.take (frame.length - 4) ++ u32ToLe t

theorem withTrailer_append (b : Bytes) (c t : UInt32) :
    withTrailer (b ++ u32ToLe c) t = b ++ u32ToLe t := by
  simp [withTrailer]

section Rounds

variable {crc : Checksum} {build : Build} {maxMsgLen : Int32}

theorem readRequest_eq_some (buf rest : Bytes) (r : Request) :
    readRequest crc build maxMsgLen buf = (.ok (some r), rest) ↔
      ∃ w, r.frame = frameLayout r.header w r.wire ∧ buf = r.frame ++ rest ∧
        Accepted crc maxMsgLen r.header w r.wire ∧ unwrap build maxMsgLen r.wire = .ok r.body := by
  constructor
  · intro h
    unfold readRequest at h
    split at h
    case h_1 header wire rest' hparse =>
      simp only [Prod.mk.injEq, bind_eq_ok, pure_eq, ok.injEq, Option.some.injEq] at h
      obtain ⟨⟨body, hunwrap, rfl⟩, rfl⟩ := h
      obtain ⟨w, hbuf, ha⟩ := (parseMessage_eq_some ..).mp hparse
      have hframe : buf.take (buf.length - rest'.length) = frameLayout header w wire := by
        rw [hbuf, List.length_append, Nat.add_sub_cancel, List.take_left]
      exact ⟨w, hframe, by rw [hframe, hbuf], ha, hunwrap⟩
    all_goals cases h
  · obtain ⟨frame, header, wire, body⟩ := r
    rintro ⟨w, hframe, hbuf, ha, hunwrap⟩
    simp only at hframe hbuf ha hunwrap
    have hparse := (parseMessage_eq_some buf rest).mpr ⟨w, by rw [hbuf, hframe], ha⟩
    simp only [readRequest, hparse, hunwrap, ok_bind, pure_eq]
    simp [hbuf]

theorem wrapsChecksum_frameLayout {h : Header} {w : UInt32} {z : OpCompressed} {m : OpMsg}
    (ha : Accepted crc maxMsgLen h w (.compressed z)) (hm : m.checksum.isSome = true)
    (hunwrap : z.unwrapBody build maxMsgLen = .ok (.msg m)) :
    WrapsChecksum build (frameLayout h w (.compressed z)) := by
  obtain ⟨-, -, -, hop, v, hparsed, hplain⟩ := (OpCompressed.unwrapBody_eq_ok ..).mp hunwrap
  obtain ⟨rfl, hsize⟩ := ha.parsed
  refine ⟨?_, z, ?_, hop, _, hplain, ?_⟩
  · rw [frameLayout, List.take_left' h.length_layout, Header.layout, ha.opcode]
    rfl
  · rw [frameLayout, List.drop_left' h.length_layout]
    exact (OpCompressed.parseBody_eq_ok ..).mpr ⟨hsize, rfl⟩
  · rw [List.take_left' (length_u32ToLe v), u32FromLe_u32ToLe]
    exact hparsed.checksum.mp hm

theorem message_of_readRequest {buf rest : Bytes} {r : Request} {c : UInt32}
    (hread : readRequest crc build maxMsgLen buf = (.ok (some r), rest))
    (hwraps : ¬ WrapsChecksum build r.frame) (hc : r.Carries c) :
    ∃ b, r.message build = .ok (b ++ u32ToLe c) ∧ c = crc b := by
  obtain ⟨w, hframe, -, ha, hunwrap⟩ := (readRequest_eq_some ..).mp hread
  obtain ⟨m, hbody, -, hm⟩ := hc
  obtain ⟨frame, header, wire, body⟩ := r
  simp only at hframe ha hunwrap hbody hwraps
  subst hframe hbody
  cases wire with
  | msg m' =>
    cases hunwrap
    exact ⟨covered header w m, congrArg _ (frameLayout_of_checksum header w hm),
      ha.checksum m c rfl hm⟩
  | compressed z => exact absurd (wrapsChecksum_frameLayout ha (by simp [hm]) hunwrap) hwraps
  | _ => cases hunwrap

theorem message_of_mem_requests {chunks : List Bytes}
    (hclean : Unwrapped build (requests crc build maxMsgLen chunks)) {r : Request}
    (hr : r ∈ requests crc build maxMsgLen chunks) {c : UInt32} (hc : r.Carries c) :
    ∃ b, r.message build = .ok (b ++ u32ToLe c) ∧ c = crc b := by
  obtain ⟨buf, rest, hread⟩ := forall_mem_feed
    (p := fun r => ∃ buf rest, readRequest crc build maxMsgLen buf = (.ok (some r), rest))
    (fun buf _ rest hread => ⟨buf, rest, hread⟩) chunks [] r hr
  exact message_of_readRequest hread (hclean r hr) hc

theorem unwrapBody_trailer {z : OpCompressed} {m : OpMsg} {c : UInt32}
    (hnoop : z.compressorId = .noop) (hunwrap : z.unwrapBody build maxMsgLen = .ok (.msg m))
    (hc : m.checksum = some c) :
    ∃ b, z.compressedMessage = b ++ u32ToLe c ∧
      ∀ t, OpCompressed.unwrapBody build { z with compressedMessage := b ++ u32ToLe t } maxMsgLen =
        .ok (.msg { m with checksum := some t }) := by
  simp only [OpCompressed.unwrapBody_eq_ok, hnoop, Build.decompress_noop] at hunwrap ⊢
  obtain ⟨hpos, hnested, hmax, hop, w, hparsed, hlen, hbytes⟩ := hunwrap
  have htail (t : UInt32) : u32ToLe w ++ MessageBody.tail (.msg { m with checksum := some t }) =
      (u32ToLe w ++ OpMsg.sectionsLayout m.sections) ++ u32ToLe t := by
    simp [MessageBody.tail, OpMsg.tail, OpMsg.trailer]
  have hsame : m = { m with checksum := some c } := by rw [← hc]
  rw [hsame, htail] at hbytes
  refine ⟨_, hbytes.symm, fun t => ⟨hpos, hnested, hmax, hop, w, ?_, ?_, htail t⟩⟩
  · exact { hparsed with checksum := by simpa [hc] using hparsed.checksum }
  · rw [← hlen, ← hbytes]
    simp

theorem frameLayout_compressed (h : Header) (w t : UInt32) (z : OpCompressed) (b : Bytes) :
    frameLayout h w (.compressed { z with compressedMessage := b ++ u32ToLe t }) =
      frameLayout h w (.compressed { z with compressedMessage := b }) ++ u32ToLe t := by
  simp [frameLayout, MessageBody.tail, OpCompressed.tail]

theorem readRequest_withTrailer {buf rest : Bytes} {r : Request} {z : OpCompressed} {c : UInt32}
    (hread : readRequest crc build maxMsgLen buf = (.ok (some r), rest))
    (hwire : r.wire = .compressed z) (hnoop : z.compressorId = .noop) (hc : r.Carries c)
    (t : UInt32) :
    ∃ r', readRequest crc build maxMsgLen (withTrailer r.frame t) = (.ok (some r'), []) ∧
      r'.Carries t := by
  obtain ⟨w, hframe, -, ha, hunwrap⟩ := (readRequest_eq_some ..).mp hread
  obtain ⟨m, hbody, hflag, hm⟩ := hc
  rw [hwire] at hframe ha hunwrap
  rw [hbody] at hunwrap
  obtain ⟨b, hmessage, hany⟩ := unwrapBody_trailer hnoop hunwrap hm
  have hsame : z = { z with compressedMessage := b ++ u32ToLe c } := by rw [← hmessage]
  have hsplit : withTrailer r.frame t =
      frameLayout r.header w (.compressed { z with compressedMessage := b ++ u32ToLe t }) := by
    rw [hframe, hsame, frameLayout_compressed, frameLayout_compressed, withTrailer_append]
  have hlength := ha.length
  rw [hsame, frameLayout_compressed, List.length_append, length_u32ToLe] at hlength
  refine ⟨⟨withTrailer r.frame t, r.header, _, _⟩, (readRequest_eq_some ..).mpr ⟨w, hsplit,
    (List.append_nil _).symm, ⟨ha.bounds, ?_, ha.opcode, ha.parsed, by simp⟩, hany t⟩,
    _, rfl, hflag, rfl⟩
  rw [hlength, frameLayout_compressed, List.length_append, length_u32ToLe]

/-- **Checksums are verified on read.** In a run without wrapped checksums, a checksum that is
delivered is that of its message, so two messages that differ in their checksums alone are not
both delivered. A checksum wrapped without compression is delivered whatever it says. -/
theorem verified_requests (crc : Checksum) (build : Build) (maxMsgLen : Int32) :
    (∀ chunks, Unwrapped build (requests crc build maxMsgLen chunks) →
      ∀ r ∈ requests crc build maxMsgLen chunks, r.Verified crc build) ∧
    (∀ chunks chunks', Unwrapped build (requests crc build maxMsgLen chunks) →
      Unwrapped build (requests crc build maxMsgLen chunks') →
      ∀ r ∈ requests crc build maxMsgLen chunks, ∀ r' ∈ requests crc build maxMsgLen chunks',
      ∀ b c c', r.Carries c → r'.Carries c' → r.message build = .ok (b ++ u32ToLe c) →
        r'.message build = .ok (b ++ u32ToLe c') → c = c') ∧
    (∀ buf rest r z c, readRequest crc build maxMsgLen buf = (.ok (some r), rest) →
      r.wire = .compressed z → z.compressorId = .noop → r.Carries c →
      ∀ t, ∃ r', readRequest crc build maxMsgLen (withTrailer r.frame t) = (.ok (some r'), []) ∧
        r'.Carries t) := by
  refine ⟨?_, ?_, fun _ _ _ _ _ => readRequest_withTrailer⟩
  · intro chunks hclean r hr c hc
    obtain ⟨b, hmessage, hcrc⟩ := message_of_mem_requests hclean hr hc
    exact ⟨_, hmessage, by simpa using hcrc⟩
  · intro chunks chunks' hclean hclean' r hr r' hr' b c c' hc hc' hb hb'
    obtain ⟨d, hd, rfl⟩ := message_of_mem_requests hclean hr hc
    obtain ⟨d', hd', rfl⟩ := message_of_mem_requests hclean' hr' hc'
    rw [hb, ok.injEq] at hd
    rw [hb', ok.injEq] at hd'
    rw [← List.append_inj_left' hd (by simp), ← List.append_inj_left' hd' (by simp)]

end Rounds

/-- One message comes in twice, with its checksum and with zero in its place, and both are
delivered. -/
theorem requests_wrappedFrame :
    requests crc32c bareBuild (.ofNat maxMsgLen) [wrappedFrame 1981590494, wrappedFrame 0] =
      [wrappedRequest 1981590494, wrappedRequest 0] ∧
    (wrappedRequest 1981590494).message bareBuild = .ok signedFrame ∧
    (wrappedRequest 0).message bareBuild = .ok (withTrailer signedFrame 0) ∧
    (wrappedRequest 0).Carries 0 ∧ ¬ (wrappedRequest 0).Verified crc32c bareBuild := by
  have hmessage : (wrappedRequest 0).message bareBuild = .ok (withTrailer signedFrame 0) := by
    decide
  have hcarries : (wrappedRequest 0).Carries 0 := ⟨_, rfl, by decide, rfl⟩
  refine ⟨by decide +kernel, by decide +kernel, hmessage, hcarries, fun hverified => ?_⟩
  obtain ⟨message, hok, hcrc⟩ := hverified 0 hcarries
  rw [hmessage, ok.injEq] at hok
  subst hok
  revert hcrc
  decide +kernel

def signedRequest : Request := ⟨signedFrame, ⟨30, 1, 0, .msg⟩, .msg signedMessage, .msg signedMessage⟩

theorem verified_requests_signedFrame :
    requests crc32c bareBuild (.ofNat maxMsgLen) [signedFrame.take 20, signedFrame.drop 20] =
      [signedRequest] ∧
    signedRequest.Carries 1981590494 ∧ signedRequest.Verified crc32c bareBuild := by
  have hrun : requests crc32c bareBuild (.ofNat maxMsgLen)
      [signedFrame.take 20, signedFrame.drop 20] = [signedRequest] := by
    decide +kernel
  have hclean : Unwrapped bareBuild [signedRequest] := by
    simp only [Unwrapped, List.mem_singleton, forall_eq]
    exact fun hwraps => absurd hwraps.1 (by decide)
  refine ⟨hrun, ⟨_, rfl, by decide, rfl⟩, ?_⟩
  exact (verified_requests crc32c bareBuild (.ofNat maxMsgLen)).1 _ (hrun ▸ hclean) signedRequest
    (by simp [hrun])

end MongoWire.Ingress
