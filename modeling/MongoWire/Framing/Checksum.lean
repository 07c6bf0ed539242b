import MongoWire.Framing.EncodeSpec
import MongoWire.Messages.Errors

/-!
# Checksums on read and on write

`parse_message` lets an `OP_MSG` through if and only if its body parses and its
checksum, where it claims one, is right. When does it reject the checksum of a
frame that `encode_message` wrote? Only when that one was copied and had been
made for other bytes.
-/

open MongoWire.Lib MongoWire.Lib.Outcome MongoWire.Io

namespace MongoWire.Framing

/-! ## On read -/

/-- The bytes that the header lays claim to. -/
def claimed (h : Header) (buf : Bytes) : Bytes := buf.take h.messageLength.toInt.toNat

theorem claimed_eq {maxLen : Int32} {buf : Bytes} {h : Header}
    (hparse : Header.parse (buf.take msgHeaderLen) maxLen = .ok h)
    (hlen : h.messageLength.toInt ≤ buf.length) :
    h.InBounds maxLen ∧ h.messageLength.toInt = (claimed h buf).length ∧
      claimed h buf = h.layout ++ (claimed h buf).drop msgHeaderLen := by
  have h16 : (buf.take msgHeaderLen).length = msgHeaderLen := by
    by_contra hne
    have hshort : (buf.take msgHeaderLen).length < msgHeaderLen := by
      rw [List.length_take] at hne ⊢
      omega
    rw [Header.parse, if_pos hshort] at hparse
    cases hparse
  obtain ⟨hhead, hbounds⟩ := (Header.parse_eq_ok _ h16 maxLen h).mp hparse
  have hlow := hbounds.1
  have hclaimed : (claimed h buf).length = h.messageLength.toInt.toNat :=
    List.length_take_of_le (by omega)
  refine ⟨hbounds, by omega, ?_⟩
  have htake : (claimed h buf).take msgHeaderLen = h.layout := by
    rw [claimed, List.take_take, Nat.min_eq_left (by omega), hhead]
  rw [← htake, List.take_append_drop]

/-- **Which direct messages are let through.** Given the whole frame of an `OP_MSG`, the body has to
parse, and the last four bytes have to be the checksum of the others unless bit 0 is clear. -/
theorem parseMessage_direct_iff (crc : Checksum) (maxLen : Int32) (buf : Bytes) (h : Header)
    (hparse : Header.parse (buf.take msgHeaderLen) maxLen = .ok h) (hop : h.opCode = .msg)
    (hlen : h.messageLength.toInt ≤ buf.length) (m : OpMsg) :
    (parseMessage crc maxLen buf).1 = .ok (some (h, .msg m)) ↔
      OpMsg.parseBody ((claimed h buf).drop msgHeaderLen) = .ok m ∧
        (flagWord (claimed h buf) &&& MsgFlag.checksumPresent = 0 ∨ Signed crc (claimed h buf)) := by
  obtain ⟨hbounds, hframe, hsplit⟩ := claimed_eq hparse hlen
  constructor
  · intro hok
    obtain ⟨w, hbuf, ha⟩ := (parseMessage_eq_some buf (parseMessage crc maxLen buf).2).mp
      (Prod.ext hok rfl)
    have hlayout : claimed h buf = frameLayout h w (.msg m) := by
      rw [claimed, ha.length, Int.toNat_natCast, hbuf, List.take_left]
    have hbody : (claimed h buf).drop msgHeaderLen = m.layoutWith w := by
      rw [hlayout, frameLayout, List.drop_left' (Header.length_layout h)]
      rfl
    refine ⟨by rw [hbody]; exact OpMsg.parseBody_complete ha.parsed, ?_⟩
    rw [hlayout, flagWord_frameLayout]
    by_cases hbit : w &&& MsgFlag.checksumPresent = 0
    · exact .inl hbit
    · obtain ⟨c, hc⟩ := Option.isSome_iff_exists.mp (ha.parsed.checksum.mpr hbit)
      refine .inr ?_
      rw [frameLayout_of_checksum h w hc, signed_append]
      exact ha.checksum m c rfl hc
  · rintro ⟨hbody, hsigned⟩
    obtain ⟨w, hparsed, hbytes⟩ := OpMsg.parseBody_sound hbody
    have hlayout : claimed h buf = frameLayout h w (.msg m) := by
      rw [hsplit, hbytes]
      rfl
    rw [hlayout, flagWord_frameLayout] at hsigned
    have hbuf : buf = frameLayout h w (.msg m) ++ buf.drop h.messageLength.toInt.toNat := by
      rw [← hlayout, claimed, List.take_append_drop]
    have ha : Accepted crc maxLen h w (.msg m) := by
      refine ⟨hbounds, by rw [← hlayout]; exact hframe, hop, hparsed, ?_⟩
      intro m' c hm hc
      cases hm
      -- The parser took a checksum off the end, so bit 0 is set and the frame is signed.
      have hbit := hparsed.checksum.mp (Option.isSome_iff_exists.mpr ⟨c, hc⟩)
      have hsigned := hsigned.resolve_left hbit
      rwa [frameLayout_of_checksum h w hc, signed_append] at hsigned
    rw [(parseMessage_eq_some buf _).mpr ⟨w, hbuf, ha⟩]

/-- `{}` with the checksum of request 1. -/
def signedFrame : Bytes :=
  [30, 0, 0, 0, 1, 0, 0, 0, 0, 0, 0, 0, 221, 7, 0, 0, 1, 0, 0, 0, 0, 5, 0, 0, 0, 0, 222, 171, 28, 118]

def signedMessage : OpMsg := ⟨.checksumPresent, ⟨OpMsg.emptyDocument, []⟩, some 1981590494⟩

theorem parseMessage_direct_signedFrame :
    (parseMessage crc32c (.ofNat maxMsgLen) (signedFrame ++ [30, 0])).1 =
      .ok (some (⟨30, 1, 0, .msg⟩, .msg signedMessage)) :=
  -- A frame with the right checksum and the start of the next one.
  (parseMessage_direct_iff crc32c (.ofNat maxMsgLen) (signedFrame ++ [30, 0]) ⟨30, 1, 0, .msg⟩
    (by decide) rfl (by decide) signedMessage).mpr
    ⟨by decide, .inr (by unfold Signed; decide +kernel)⟩

/-! ## On write -/

variable {crc : Checksum} {maxLen : Int32} {h : Header} {frame : Bytes}

theorem noMismatch_header (b : Bytes) (maxLen : Int32) : NoMismatch (Header.parse b maxLen) := by
  simp [Header.parse, failsWith_ite, failsWith_bind]

theorem noMismatch_u32In (b : Bytes) (i j : Nat) : NoMismatch (u32In b i j) := by
  simp [u32In, failsWith_bind]

theorem noMismatch_rejectShort (h : Header) (n : Nat) (b : Bytes) :
    NoMismatch (rejectShort h n b) := by
  simp [rejectShort, failsWith_ite, failsWith_bind, noMismatch_u32In]

theorem noMismatch_parseFrame (h : Header) (frame : Bytes) : NoMismatch (parseFrame h frame) := by
  simp [parseFrame, failsWith_bind, MessageBody.noMismatch_parseBody]

theorem takeFrame_whole (hhead : frame.take msgHeaderLen = h.layout) (hbounds : h.InBounds maxLen)
    (hlen : h.messageLength.toInt = frame.length) :
    takeFrame crc maxLen frame = do
      rejectShort h frame.length frame
      verifyChecksum crc h frame.length frame
      return some (h, frame, []) := by
  have h16 : msgHeaderLen ≤ frame.length := by have := hbounds.1; omega
  have hparse := (Header.parse_eq_ok (frame.take msgHeaderLen) (by simp; omega) maxLen h).mpr
    ⟨hhead, hbounds⟩
  have hn : i32AsUsize h.messageLength = frame.length := i32AsUsize_of_toInt hlen
  rw [takeFrame_eq h16, hparse, ok_bind]
  simp only [hn, Nat.lt_irrefl, if_false, List.take_length, List.drop_length]

theorem noMismatch_parseMessage (hframe : NoMismatch (takeFrame crc maxLen frame)) :
    NoMismatch (parseMessage crc maxLen frame).1 := by
  unfold parseMessage
  split <;> rename_i htake
  · trivial
  · exact noMismatch_parseFrame _ _
  · rwa [htake] at hframe
  all_goals trivial

theorem noMismatch_of_not_inBounds (h16 : msgHeaderLen ≤ frame.length)
    (hhead : frame.take msgHeaderLen = h.layout) (hbounds : ¬ h.InBounds maxLen) :
    NoMismatch (takeFrame crc maxLen frame) := by
  rw [takeFrame_eq h16]
  refine (failsWith_bind _ _).mpr ⟨noMismatch_header _ _, fun h' hparse => absurd ?_ hbounds⟩
  obtain ⟨hhead', hbounds'⟩ :=
    (Header.parse_eq_ok (frame.take msgHeaderLen) (by simp; omega) maxLen h').mp hparse
  rwa [Header.layout_inj (hhead.symm.trans hhead')]

theorem noMismatch_iff (hhead : frame.take msgHeaderLen = h.layout)
    (h16 : msgHeaderLen ≤ frame.length) (hmax : frame.length ≤ maxMsgLen)
    (hlen : h.messageLength.toInt = frame.length) :
    (∀ maxLen, NoMismatch (parseMessage crc maxLen frame).1) ↔
      (ClaimsChecksum h frame → msgHeaderLen + 10 ≤ frame.length → Signed crc frame) := by
  constructor
  · intro hno hclaim hlong
    have hbounds : h.InBounds (.ofNat maxMsgLen) := by
      have hlimit : (Int32.ofNat maxMsgLen).toInt = maxMsgLen := toInt_ofNat _ (by decide)
      rw [Header.InBounds, hlimit]
      omega
    have hno := hno (.ofNat maxMsgLen)
    have hshort := (rejectShort_eq_ok h).mpr fun _ => hlong
    rw [signed_iff crc (by omega)]
    by_contra hwrong
    rw [parseMessage, takeFrame_whole hhead hbounds hlen, hshort, ok_bind,
      verifyChecksum_eq crc h (by omega) hclaim.1, if_pos hclaim.2.2] at hno
    simp [hwrong] at hno
  · intro hsigned maxLen
    refine noMismatch_parseMessage ?_
    by_cases hbounds : h.InBounds maxLen
    · rw [takeFrame_whole hhead hbounds hlen]
      refine (failsWith_bind _ _).mpr ⟨noMismatch_rejectShort _ _ _, fun _ hshort => ?_⟩
      have hlong := (rejectShort_eq_ok h).mp hshort
      rw [(verifyChecksum_eq_ok crc h hlong).mpr fun hclaim => hsigned hclaim (hlong hclaim)]
      trivial
    · exact noMismatch_of_not_inBounds h16 hhead hbounds

theorem noMismatch_frameLayout {n : Nat} {w : UInt32} {b : MessageBody}
    (hn : n = (frameLayout (sized h n) w b).length) (hmax : n ≤ maxMsgLen) :
    (∀ maxLen, NoMismatch (parseMessage crc maxLen (frameLayout (sized h n) w b)).1) ↔
      (h.opCode = .msg ∧ w &&& MsgFlag.checksumPresent ≠ 0 → msgHeaderLen + 10 ≤ n →
        Signed crc (frameLayout (sized h n) w b)) := by
  have hint := toInt_sized h n hmax
  have hhead : (frameLayout (sized h n) w b).take msgHeaderLen = (sized h n).layout :=
    List.take_left' (Header.length_layout _)
  rw [noMismatch_iff hhead (by rw [length_frameLayout]; omega) (by omega) (by rw [hint, ← hn]),
    claimsChecksum_frameLayout, ← hn]
  rfl

theorem noMismatch_iff_ne {α : Type} (x : Outcome ProtocolError α) :
    NoMismatch x ↔ ∀ expected computed, x ≠ .err (.checksumMismatch expected computed) := by
  cases x with
  | err e => cases e <;> simp
  | _ => simp [FailsWith]

/-- `m` carries a checksum that was not made for this header and these bytes. -/
def Stale (crc : Checksum) (h : Header) (m : OpMsg) : Prop :=
  ∃ c, m.checksum = some c ∧ c ≠ crc (covered (sized h (total (.msg m) false)) m.flags.bits m)

theorem noMismatch_copied (hop : h.opCode = .msg) {m : OpMsg}
    (hm : m.checksum.isSome = m.flags.contains .checksumPresent)
    (hfits : total (.msg m) false ≤ maxMsgLen) :
    (∀ maxLen, NoMismatch (parseMessage crc maxLen
        (frameLayout (sized h (total (.msg m) false)) m.flags.bits (.msg m))).1) ↔
      ¬ (Stale crc h m ∧ msgHeaderLen + 10 ≤ total (.msg m) false) := by
  rw [noMismatch_frameLayout (total_eq ..) hfits, ← MsgFlags.contains_checksumPresent, ← hm]
  cases hc : m.checksum with
  | none => simp [Stale, hc]
  | some c =>
    rw [frameLayout_of_checksum _ _ hc, signed_append]
    simp only [hop, Option.isSome_some, true_and, Stale, hc, Option.some.injEq, exists_eq_left',
      not_and, forall_const]
    exact not_imp_not.symm

/-- **Checksums on write.** The frame of an `OP_MSG` has a wrong checksum if and only if a stale one
was copied into it. -/
theorem parseMessage_encodeMessage_iff (crc : Checksum) (h : Header) (hop : h.opCode = .msg)
    (m : OpMsg) (hm : m.checksum.isSome = m.flags.contains .checksumPresent) (checksum : Bool)
    (out : Bytes) :
    ((encodeMessage crc h (.msg m) checksum out).result = .ok () →
      ∀ maxLen expected computed,
        (parseMessage crc maxLen
          ((encodeMessage crc h (.msg m) checksum out).out.drop out.length)).1 ≠
            .err (.checksumMismatch expected computed)) ↔
      ¬ (checksum = false ∧ Stale crc h m ∧ msgHeaderLen + 10 ≤ total (.msg m) false ∧
        total (.msg m) false ≤ maxMsgLen) := by
  simp only [← noMismatch_iff_ne]
  by_cases hfits : total (.msg m) checksum ≤ maxMsgLen
  · cases checksum with
    | false =>
      rw [encodeMessage_plain crc h out _ hfits]
      simp only [true_implies, List.drop_left, hfits, and_true, true_and]
      exact noMismatch_copied hop hm hfits
    | true =>
      simp only [Bool.true_eq_false, false_and, not_false_eq_true, iff_true]
      cases hc : m.checksum with
      | some c => exact fun hok => absurd hok (encodeMessage_twice crc h out hc)
      | none =>
        intro _
        rw [encodeMessage_signed crc h out hc hfits, List.drop_left,
          noMismatch_frameLayout (total_signed _ _ _ hc) hfits, frameLayout_withChecksum,
          signed_append]
        exact fun _ _ => rfl
  · obtain ⟨e, he⟩ := encodeMessage_tooLarge crc h out (.msg m) checksum (by omega)
    rw [he]
    simp only [reduceCtorEq, false_implies, true_iff]
    rintro ⟨rfl, -, -, hle⟩
    exact hfits hle

/-- A message that was read as request 1 and is sent on as request 2 keeps its checksum, and the
next receiver refuses it. -/
theorem parseMessage_resent :
    parseMessage crc32c (.ofNat maxMsgLen) signedFrame =
      (.ok (some (⟨30, 1, 0, .msg⟩, .msg signedMessage)), []) ∧
    signedMessage.checksum.isSome = signedMessage.flags.contains .checksumPresent ∧
    (encodeMessage crc32c ⟨30, 2, 0, .msg⟩ (.msg signedMessage) false []).result = .ok () ∧
    (parseMessage crc32c (.ofNat maxMsgLen)
      (encodeMessage crc32c ⟨30, 2, 0, .msg⟩ (.msg signedMessage) false []).out).1 =
        .err (.checksumMismatch 1981590494 2451740674) := by
  decide +kernel

theorem parseMessage_forwarded :
    (encodeMessage crc32c ⟨0, 1, 0, .msg⟩ (.msg signedMessage) false [9]).result = .ok () ∧
    ∀ maxLen expected computed,
      (parseMessage crc32c maxLen
        ((encodeMessage crc32c ⟨0, 1, 0, .msg⟩ (.msg signedMessage) false [9]).out.drop 1)).1 ≠
          .err (.checksumMismatch expected computed) := by
  -- Sent on as request 1, its checksum is right.
  have hok : (encodeMessage crc32c ⟨0, 1, 0, .msg⟩ (.msg signedMessage) false [9]).result = .ok () := by
    decide
  refine ⟨hok, (parseMessage_encodeMessage_iff crc32c ⟨0, 1, 0, .msg⟩ rfl signedMessage (by decide)
    false [9]).mpr ?_ hok⟩
  rintro ⟨-, ⟨c, hc, hne⟩, -⟩
  cases hc
  exact hne (by decide +kernel)

end MongoWire.Framing
