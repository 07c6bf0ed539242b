import MongoWire.Framing.EncodeSpec

/-!
# Frames there and back

Messages written one behind the other are read back one by one, and a frame
that was read is written back as it was.
-/

open MongoWire.Lib MongoWire.Lib.Outcome MongoWire.Io

namespace MongoWire.Framing

/-! ## Sending and receiving -/

/-- The arguments of one call of `encode_message`. -/
structure Outgoing where
  header : Header
  body : MessageBody
  checksum : Bool

namespace Outgoing

def encode (crc : Checksum) (o : Outgoing) (out : Bytes) : Encoded :=
  encodeMessage crc o.header o.body o.checksum out

/-- The bytes that an empty buffer gets. -/
def frame (crc : Checksum) (o : Outgoing) : Bytes := (o.encode crc []).out

/-- The message that a receiver should see: the length filled in, and the checksum added. -/
def received (crc : Checksum) (o : Outgoing) : Header × MessageBody :=
  ({ o.header with messageLength := .ofNat (o.frame crc).length },
    match o.body with
    | .msg m =>
      if o.checksum then
        .msg { m with flags := ⟨m.flags.bits ||| MsgFlag.checksumPresent⟩,
                      checksum := some (crc ((o.frame crc).take ((o.frame crc).length - 4))) }
      else .msg m
    | b => b)

/-- What the caller promises of a message. -/
structure Sendable (o : Outgoing) : Prop where
  opcode : o.header.opCode = o.body.opcode
  unsigned : ∀ m, o.body = .msg m → m.checksum = none
  parses : MessageBody.parseBody o.body.opcode (o.body.encodeBody []) = .ok o.body
  checksum : o.checksum = true → o.body.opcode = .msg

end Outgoing

/-- Encode the messages into one buffer; the headers as the calls leave them, and the buffer. -/
def sendAll (crc : Checksum) : List Outgoing → Bytes → Outcome ProtocolError (List Header × Bytes)
  | [], out => .ok ([], out)
  | o :: os, out => do
    let sent := o.encode crc out
    sent.result
    let (headers, out) ← sendAll crc os sent.out
    return (sent.header :: headers, out)

/-- The results of `n` calls of `parse_message`, and the buffer after them. -/
def receive (crc : Checksum) (maxLen : Int32) :
    Nat → Bytes → List (Outcome ProtocolError (Option (Header × MessageBody))) × Bytes
  | 0, buf => ([], buf)
  | n + 1, buf =>
    let (result, rest) := parseMessage crc maxLen buf
    let (results, rest) := receive crc maxLen n rest
    (result :: results, rest)

/-- What one `encode_message` did for a message that a receiver then sees. -/
structure Delivers (crc : Checksum) (o : Outgoing) : Prop where
  appends : ∀ out, o.encode crc out = ⟨.ok (), (o.received crc).1, out ++ o.frame crc⟩
  length : (o.received crc).1.messageLength.toInt = (o.frame crc).length
  parses : ∀ rest, parseMessage crc (.ofNat maxMsgLen) (o.frame crc ++ rest) =
    (.ok (some (o.received crc)), rest)

theorem inBounds_sized (h : Header) {n : Nat} (h16 : msgHeaderLen ≤ n) (hn : n ≤ maxMsgLen) :
    (sized h n).InBounds (.ofNat maxMsgLen) := by
  have hmax : (Int32.ofNat maxMsgLen).toInt = maxMsgLen := toInt_ofNat _ (by decide)
  rw [Header.InBounds, toInt_sized h n hn, hmax]
  omega

namespace Outgoing.Sendable

variable {crc : Checksum} {o : Outgoing}

theorem parsed (ho : o.Sendable) : o.body.ParsedFrom o.body.word := by
  obtain ⟨-, w, hparsed, hbytes⟩ := (MessageBody.parseBody_eq_ok ..).mp ho.parses
  rw [MessageBody.encodeBody_eq, List.nil_append, List.append_left_inj, u32ToLe_inj] at hbytes
  rwa [hbytes]

theorem delivers_of_encode {n : Nat} {w : UInt32} {b : MessageBody}
    (hencode : ∀ out, o.encode crc out =
      ⟨.ok (), sized o.header n, out ++ frameLayout (sized o.header n) w b⟩)
    (hlen : n = (frameLayout (sized o.header n) w b).length) (hn : n ≤ maxMsgLen)
    (hop : o.header.opCode = b.opcode) (hparsed : b.ParsedFrom w)
    (hcrc : ∀ m c, b = .msg m → m.checksum = some c → c = crc (covered (sized o.header n) w m))
    (hbody : (o.received crc).2 = b) : Delivers crc o := by
  have hframe : o.frame crc = frameLayout (sized o.header n) w b := by
    rw [frame, hencode]
    rfl
  have hheader : (o.received crc).1 = sized o.header n := by
    rw [received, hframe, ← hlen]
    rfl
  have hint := toInt_sized o.header n hn
  refine ⟨fun out => by rw [hencode, hheader, hframe], by rw [hheader, hframe, hint, ← hlen],
    fun rest => ?_⟩
  rw [← Prod.eta (o.received crc), hheader, hbody, hframe, parseMessage_eq_some]
  refine ⟨w, rfl, inBounds_sized o.header ?_ hn, by rw [hint, ← hlen], hop, hparsed, hcrc⟩
  rw [hlen, length_frameLayout]
  omega

theorem delivers (ho : o.Sendable) (hfits : total o.body o.checksum ≤ maxMsgLen) :
    Delivers crc o := by
  have hparsed := ho.parsed
  obtain ⟨header, body, checksum⟩ := o
  cases checksum with
  | false =>
    refine delivers_of_encode (fun out => encodeMessage_plain crc header out body hfits)
      (total_eq ..) hfits ho.opcode hparsed ?_ ?_
    · intro m c hm hc
      rw [ho.unsigned m hm] at hc
      cases hc
    · cases body <;> rfl
  | true =>
    cases body with
    | msg m =>
      have hm := ho.unsigned m rfl
      have hencode := fun out => encodeMessage_signed crc header out hm hfits
      refine delivers_of_encode hencode (total_signed _ _ _ hm) hfits ho.opcode
        (hparsed.withChecksum _) ?_ ?_
      · rintro _ _ ⟨⟩ ⟨⟩
        rfl
      · have hframe : frame crc ⟨header, .msg m, true⟩ = _ := congrArg Encoded.out (hencode [])
        rw [List.nil_append, frameLayout_withChecksum] at hframe
        simp only [received, hframe, if_true, List.length_append, length_u32ToLe,
          Nat.add_sub_cancel, List.take_left]
        rfl
    | _ => cases ho.checksum rfl

theorem length_frame (ho : o.Sendable) (hfits : total o.body o.checksum ≤ maxMsgLen) :
    (o.frame crc).length = total o.body o.checksum := by
  obtain ⟨header, body, checksum⟩ := o
  cases checksum with
  | false =>
    have hencode := encodeMessage_plain crc header [] body hfits
    rw [frame, encode, hencode]
    exact (total_eq ..).symm
  | true =>
    cases body with
    | msg m =>
      have hm := ho.unsigned m rfl
      rw [frame, encode, encodeMessage_signed crc header [] hm hfits]
      exact (total_signed _ _ _ hm).symm
    | _ => cases ho.checksum rfl

end Outgoing.Sendable

theorem delivers_of_result {crc : Checksum} {o : Outgoing} (ho : o.Sendable) {out : Bytes}
    (hresult : (o.encode crc out).result = .ok ()) : Delivers crc o := by
  refine ho.delivers (Nat.not_lt.mp fun hlarge => ?_)
  obtain ⟨e, he⟩ := encodeMessage_tooLarge crc o.header out o.body o.checksum hlarge
  rw [Outgoing.encode, he] at hresult
  cases hresult

/-- **Pipelining.** Frames are appended behind whatever the buffer holds and do not depend on it,
and reading them back returns the messages in order and leaves what follows them. -/
theorem receive_sendAll (crc : Checksum) (os : List Outgoing) (hos : ∀ o ∈ os, o.Sendable)
    (out : Bytes) (headers : List Header) (out' : Bytes)
    (hsend : sendAll crc os out = .ok (headers, out')) :
    out' = out ++ (os.map (Outgoing.frame crc)).flatten ∧
    headers = os.map (fun o => (o.received crc).1) ∧
    (∀ o ∈ os, (o.received crc).1.messageLength.toInt = (o.frame crc).length) ∧
    ∀ rest, receive crc (.ofNat maxMsgLen) os.length
        ((os.map (Outgoing.frame crc)).flatten ++ rest) =
      (os.map fun o => .ok (some (o.received crc)), rest) := by
  induction os generalizing out headers with
  | nil =>
    cases hsend
    simp [receive]
  | cons o os ih =>
    obtain ⟨ho, hos⟩ := List.forall_mem_cons.mp hos
    simp only [sendAll, bind_eq_ok, Prod.exists, pure_eq, ok.injEq, Prod.mk.injEq] at hsend
    obtain ⟨_, hresult, headers, _, hsend, rfl, rfl⟩ := hsend
    have hdelivers := delivers_of_result ho hresult
    rw [hdelivers.appends] at hsend
    obtain ⟨rfl, rfl, hlengths, hreceive⟩ := ih hos _ _ hsend
    refine ⟨by simp, by rw [hdelivers.appends]; rfl,
      List.forall_mem_cons.mpr ⟨hdelivers.length, hlengths⟩, fun rest => ?_⟩
    rw [List.map_cons, List.flatten_cons, List.append_assoc, List.length_cons, receive,
      hdelivers.parses]
    simp only [hreceive, List.map_cons]

/-- `{}` as an `OP_MSG` with a checksum, and the reply of no documents. -/
def pingAndReply : List Outgoing :=
  [⟨⟨0, 1, 0, .msg⟩, .msg ⟨⟨0⟩, ⟨OpMsg.emptyDocument, []⟩, none⟩, true⟩,
    ⟨⟨0, 2, 1, .reply⟩, .reply ⟨⟨8⟩, 0, 0, 0, []⟩, false⟩]

theorem receive_sendAll_pingAndReply :
    receive crc32c (.ofNat maxMsgLen) 2
        ((pingAndReply.map (Outgoing.frame crc32c)).flatten ++ [1, 2]) =
      (pingAndReply.map fun o => .ok (some (o.received crc32c)), [1, 2]) := by
  have hos : ∀ o ∈ pingAndReply, o.Sendable := by
    rw [pingAndReply, List.forall_mem_cons, List.forall_mem_singleton]
    exact ⟨⟨rfl, by rintro _ ⟨⟩; rfl, by decide, fun _ => rfl⟩,
      ⟨rfl, by rintro _ ⟨⟩, by decide, by rintro ⟨⟩⟩⟩
  exact (receive_sendAll crc32c pingAndReply hos [9] [⟨30, 1, 0, .msg⟩, ⟨36, 2, 1, .reply⟩]
    ([9] ++ (pingAndReply.map (Outgoing.frame crc32c)).flatten) (by decide +kernel)).2.2.2 [1, 2]

/-! ## Writing back what was read -/

/-- The frame with the bits of its flag word cleared that have no name. -/
def clearUnknown (op : Opcode) (frame : Bytes) : Bytes :=
  frame.take msgHeaderLen ++ (u32ToLe (flagWord frame &&& MessageBody.knownBits op) ++
    frame.drop (msgHeaderLen + 4))

theorem clearUnknown_frameLayout (op : Opcode) (h : Header) (w : UInt32) (b : MessageBody) :
    clearUnknown op (frameLayout h w b) = frameLayout h (w &&& MessageBody.knownBits op) b := by
  rw [clearUnknown, flagWord_frameLayout, frameLayout, List.take_left' (Header.length_layout h),
    ← List.drop_drop, List.drop_left' (Header.length_layout h), List.drop_left' (length_u32ToLe w)]
  rfl

theorem and_eq_self {w k : UInt32} (h : w &&& ~~~ k = 0) : w &&& k = w := by
  have hbits := congrArg UInt32.toBitVec h
  apply UInt32.toBitVec_inj.mp
  ext i hi
  have := congrArg (fun b : BitVec 32 => b[i]) hbits
  simp at this ⊢
  exact this

/-- **Byte-exact.** A frame that was accepted is encoded as it was, but for unknown flag bits. -/
theorem encodeMessage_parseMessage (crc : Checksum) (maxLen : Int32) (buf rest : Bytes) (h : Header)
    (b : MessageBody) (hparse : parseMessage crc maxLen buf = (.ok (some (h, b)), rest)) :
    ∃ frame, buf = frame ++ rest ∧ (frame.length : Int) = h.messageLength.toInt ∧
      (∀ out, encodeMessage crc h b false out = ⟨.ok (), h, out ++ clearUnknown h.opCode frame⟩) ∧
      (flagWord frame &&& ~~~ MessageBody.knownBits h.opCode = 0 →
        clearUnknown h.opCode frame = frame) := by
  obtain ⟨w, rfl, ha⟩ := (parseMessage_eq_some buf rest).mp hparse
  have hlen := ha.length
  rw [← total_eq] at hlen
  have hsized : sized h (total b false) = h := by rw [sized, ofNat_of_toInt _ _ hlen]
  have hfits : total b false ≤ maxMsgLen := by
    have := ha.bounds.2.2
    omega
  refine ⟨frameLayout h w b, rfl, ha.length.symm, fun out => ?_, fun hknown => ?_⟩
  · rw [encodeMessage_plain crc h out b hfits, hsized, clearUnknown_frameLayout, ha.opcode,
      ha.parsed.word_eq]
  · rw [flagWord_frameLayout] at hknown
    rw [clearUnknown_frameLayout, and_eq_self hknown]

/-- `{}` with an optional bit that has no name, and the first byte of the next frame. -/
def optionalBitFrame : Bytes :=
  [26, 0, 0, 0, 7, 0, 0, 0, 0, 0, 0, 0, 221, 7, 0, 0, 2, 0, 4, 0, 0, 5, 0, 0, 0, 0, 99]

theorem encodeMessage_parseMessage_optionalBit :
    ∃ frame, optionalBitFrame = frame ++ [99] ∧ (frame.length : Int) = (26 : Int32).toInt ∧
      (∀ out, encodeMessage crc32c ⟨26, 7, 0, .msg⟩
        (.msg ⟨⟨2⟩, ⟨OpMsg.emptyDocument, []⟩, none⟩) false out =
          ⟨.ok (), ⟨26, 7, 0, .msg⟩, out ++ clearUnknown .msg frame⟩) ∧
      (flagWord frame &&& ~~~ MessageBody.knownBits .msg = 0 → clearUnknown .msg frame = frame) :=
  encodeMessage_parseMessage crc32c 1000 optionalBitFrame [99] ⟨26, 7, 0, .msg⟩ _ (by decide)

end MongoWire.Framing
