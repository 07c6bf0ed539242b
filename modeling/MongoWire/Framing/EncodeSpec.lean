import MongoWire.Framing.Spec

/-!
# What `encode_message` appends

The bytes are those of one frame, whatever the buffer held before. With a
checksum, the flag word is patched first and the checksum covers the patched
bytes.
-/

open MongoWire.Lib MongoWire.Lib.Outcome MongoWire.Io

namespace MongoWire

/-! ## Adding a checksum to a message -/

namespace MsgFlags

/-- The flags with `checksumPresent` set. -/
def withChecksum (f : MsgFlags) : MsgFlags := ⟨f.bits ||| MsgFlag.checksumPresent⟩

theorem or_and (x y z : UInt32) : (x ||| y) &&& z = x &&& z ||| y &&& z :=
  UInt32.toBitVec_inj.mp BitVec.and_or_distrib_right

theorem Known.withChecksum {f : MsgFlags} (h : f.Known) : f.withChecksum.Known := by
  rw [Known, MsgFlags.withChecksum, or_and, h]
  rfl

theorem withChecksum_and (f : MsgFlags) :
    f.withChecksum.bits &&& MsgFlag.checksumPresent ≠ 0 := by
  rw [withChecksum, or_and]
  rcases and_one f.bits with h | h <;> simp [MsgFlag.checksumPresent, h]

end MsgFlags

namespace OpMsg

/-- `m` as a receiver sees it when it was sent with the checksum `c`. -/
def withChecksum (c : UInt32) (m : OpMsg) : OpMsg :=
  { m with flags := m.flags.withChecksum, checksum := some c }

theorem ParsedFrom.known {m : OpMsg} (h : m.ParsedFrom m.flags.bits) : m.flags.Known :=
  (congrArg MsgFlags.bits h.flags).symm

theorem ParsedFrom.withChecksum {m : OpMsg} (h : m.ParsedFrom m.flags.bits) (c : UInt32) :
    (m.withChecksum c).ParsedFrom m.flags.withChecksum.bits where
  required := h.known.withChecksum.required
  flags := h.known.withChecksum.truncate
  checksum := ⟨fun _ => m.flags.withChecksum_and, fun _ => rfl⟩
  body := h.body
  sequences := h.sequences
  valid := h.valid

end OpMsg

namespace Framing

/-! ## Writing a frame -/

/-- The header with its length filled in. -/
def sized (h : Header) (n : Nat) : Header := { h with messageLength := .ofNat n }

theorem toInt_sized (h : Header) (n : Nat) (hn : n ≤ maxMsgLen) :
    (sized h n).messageLength.toInt = n := toInt_ofNat n (by simp only [maxMsgLen] at hn; omega)

theorem total_eq (h : Header) (w : UInt32) (b : MessageBody) :
    total b false = (frameLayout h w b).length := by
  rw [total, b.bodyLen_eq, length_frameLayout]
  rfl

theorem frameLayout_withChecksum (h : Header) (w c : UInt32) (m : OpMsg) :
    frameLayout h w (.msg (m.withChecksum c)) = covered h w m ++ u32ToLe c :=
  frameLayout_of_checksum h w rfl

theorem total_signed (h : Header) (w c : UInt32) {m : OpMsg} (hm : m.checksum = none) :
    total (.msg m) true = (frameLayout h w (.msg (m.withChecksum c))).length := by
  rw [frameLayout_withChecksum, ← frameLayout_of_no_checksum h w hm, List.length_append,
    length_u32ToLe, ← total_eq]
  rfl

theorem patchFlags_eq (h : Header) (w : UInt32) (b : MessageBody) (out : Bytes) :
    patchFlags (out.length + msgHeaderLen) (out ++ frameLayout h w b) =
      .ok (out ++ frameLayout h (w ||| MsgFlag.checksumPresent) b) := by
  have hsplit (v : UInt32) : out ++ frameLayout h v b = (out ++ h.layout) ++ (u32ToLe v ++ b.tail) := by
    simp [frameLayout]
  have hat : (out ++ h.layout).length = out.length + msgHeaderLen := by simp
  rw [hsplit, hsplit, ← hat, patchFlags, u32In_ok _ _ _ rfl (by simp; omega), List.drop_left,
    List.take_left' (length_u32ToLe w), u32FromLe_u32ToLe, ok_bind, copyAt, if_pos (by simp; omega),
    List.take_left, length_u32ToLe, ← List.drop_drop, List.drop_left,
    List.drop_left' (length_u32ToLe w)]
  simp

theorem slice_appended (out b : Bytes) :
    (slice (out ++ b) out.length (out ++ b).length : Outcome ProtocolError Bytes) = .ok b := by
  rw [slice_to_end _ _ (by simp), List.drop_left]

variable (crc : Checksum) (h : Header) (out : Bytes)

theorem encodeMessage_tooLarge (b : MessageBody) (checksum : Bool)
    (hlarge : maxMsgLen < total b checksum) :
    ∃ e, encodeMessage crc h b checksum out = ⟨.err e, h, out⟩ := by
  unfold encodeMessage
  split <;> rename_i htry
  · exact ⟨_, rfl⟩
  · obtain ⟨hlt, rfl⟩ := (i32TryFrom_eq_some _ _).mp htry
    rw [if_pos (by rw [toInt_ofNat _ hlt]; exact_mod_cast hlarge)]
    exact ⟨_, rfl⟩

theorem encodeMessage_of_fits (b : MessageBody) (checksum : Bool)
    (hfits : total b checksum ≤ maxMsgLen) :
    encodeMessage crc h b checksum out =
      let header := sized h (total b checksum)
      let out' := out ++ frameLayout header b.word b
      if checksum then .finish header out' (appendChecksum crc b out.length out')
      else ⟨.ok (), header, out'⟩ := by
  have hlt : total b checksum < 2 ^ 31 := by simp only [maxMsgLen] at hfits; omega
  have htry : i32TryFrom (total b checksum) = some (.ofNat (total b checksum)) :=
    (i32TryFrom_eq_some _ _).mpr ⟨hlt, rfl⟩
  have hframe (header : Header) :
      b.encodeBody (header.encode out) = out ++ frameLayout header b.word b := by
    rw [b.encodeBody_eq, Header.encode_eq, frameLayout, List.append_assoc]
  unfold encodeMessage
  simp only [htry]
  rw [if_neg (by rw [toInt_ofNat _ hlt]; omega)]
  simp only [hframe, sized]

theorem encodeMessage_plain (b : MessageBody) (hfits : total b false ≤ maxMsgLen) :
    encodeMessage crc h b false out = ⟨.ok (), sized h (total b false),
      out ++ frameLayout (sized h (total b false)) b.word b⟩ := by
  rw [encodeMessage_of_fits crc h out b false hfits]
  rfl

theorem encodeMessage_second {m : OpMsg} {c : UInt32} (hc : m.checksum = some c)
    (hfits : total (.msg m) true ≤ maxMsgLen) :
    let header := sized h (total (.msg m) true)
    encodeMessage crc h (.msg m) true out =
      ⟨.err (.invalidOpMsg "body already carries a checksum trailer"), header,
        out ++ frameLayout header m.flags.bits (.msg m)⟩ := by
  rw [encodeMessage_of_fits crc h out _ true hfits]
  simp [appendChecksum, hc, Encoded.finish, MessageBody.word]

theorem encodeMessage_twice {m : OpMsg} {c : UInt32} (hc : m.checksum = some c) :
    (encodeMessage crc h (.msg m) true out).result ≠ .ok () := by
  by_cases hfits : total (.msg m) true ≤ maxMsgLen
  · simp [encodeMessage_second crc h out hc hfits]
  · obtain ⟨e, he⟩ := encodeMessage_tooLarge crc h out (.msg m) true (by omega)
    simp [he]

theorem encodeMessage_signed {m : OpMsg} (hm : m.checksum = none)
    (hfits : total (.msg m) true ≤ maxMsgLen) :
    let header := sized h (total (.msg m) true)
    let w := m.flags.withChecksum.bits
    encodeMessage crc h (.msg m) true out = ⟨.ok (), header,
      out ++ frameLayout header w (.msg (m.withChecksum (crc (covered header w m))))⟩ := by
  intro header w
  have hcovered := frameLayout_of_no_checksum header w hm
  have happend : appendChecksum crc (.msg m) out.length (out ++ frameLayout header m.flags.bits (.msg m)) =
      .ok (out ++ (covered header w m ++ u32ToLe (crc (covered header w m)))) := by
    have hpatch := patchFlags_eq header m.flags.bits (.msg m) out
    rw [show m.flags.bits ||| MsgFlag.checksumPresent = w from rfl, hcovered] at hpatch
    simp only [appendChecksum, hm, Option.isSome_none, Bool.false_eq_true, if_false, hpatch, ok_bind,
      slice_appended, pure_eq, List.append_assoc]
  rw [encodeMessage_of_fits crc h out _ true hfits, frameLayout_withChecksum]
  simp only [if_true, MessageBody.word]
  rw [happend]
  rfl

/-! ## What a failed call leaves behind -/

/-- The message has a checksum and is to be given another. -/
def AddsSecondChecksum (b : MessageBody) (checksum : Bool) : Prop :=
  checksum = true ∧ ∃ m c, b = .msg m ∧ m.checksum = some c

theorem encodeMessage_ok (b : MessageBody) (checksum : Bool)
    (hfits : total b checksum ≤ maxMsgLen) (hone : ¬ AddsSecondChecksum b checksum) :
    (encodeMessage crc h b checksum out).result = .ok () := by
  cases checksum with
  | false => rw [encodeMessage_plain crc h out b hfits]
  | true =>
    cases b with
    | msg m =>
      cases hc : m.checksum with
      | some c => exact absurd ⟨rfl, m, c, rfl, hc⟩ hone
      | none => rw [encodeMessage_signed crc h out hc hfits]
    | _ =>
      rw [encodeMessage_of_fits crc h out _ true hfits]
      simp only [if_true, appendChecksum, ok_bind, slice_appended, pure_eq, Encoded.finish]

/-- **A failed call and its buffers.** `encode_message` leaves the header and the buffer as they
were whenever it fails, unless it fails because of a second checksum: the frame is then already in
the buffer. -/
theorem encodeMessage_atomic_iff (crc : Checksum) (h : Header) (b : MessageBody) (checksum : Bool)
    (out : Bytes) :
    (∀ e, (encodeMessage crc h b checksum out).result = .err e →
      (encodeMessage crc h b checksum out).header = h ∧
        (encodeMessage crc h b checksum out).out = out) ↔
      ¬ (AddsSecondChecksum b checksum ∧ msgHeaderLen + b.bodyLen + 4 ≤ maxMsgLen) := by
  by_cases hsecond : AddsSecondChecksum b checksum
  · obtain ⟨rfl, m, c, rfl, hc⟩ := hsecond
    by_cases hfits : total (.msg m) true ≤ maxMsgLen
    · have hgrows : out ++ frameLayout (sized h (total (.msg m) true)) m.flags.bits (.msg m) ≠ out := by
        intro heq
        have hlen := congrArg List.length heq
        rw [List.length_append, length_frameLayout] at hlen
        omega
      rw [encodeMessage_second crc h out hc hfits]
      constructor
      · intro hatomic
        exact absurd (hatomic _ rfl).2 hgrows
      · intro hno
        exact absurd ⟨⟨rfl, m, c, rfl, hc⟩, hfits⟩ hno
    · obtain ⟨e, he⟩ := encodeMessage_tooLarge crc h out (.msg m) true (by omega)
      rw [he]
      constructor
      · intro _ hrefused
        exact hfits hrefused.2
      · intro _ _ _
        exact ⟨rfl, rfl⟩
  · constructor
    · intro _ hrefused
      exact hsecond hrefused.1
    · intro _ e herr
      by_cases hfits : total b checksum ≤ maxMsgLen
      · rw [encodeMessage_ok crc h out b checksum hfits hsecond] at herr
        cases herr
      · obtain ⟨e', he⟩ := encodeMessage_tooLarge crc h out b checksum (by omega)
        rw [he]
        exact ⟨rfl, rfl⟩

/-- `{}` with the checksum 7. -/
def carriesChecksum : MessageBody := .msg ⟨.checksumPresent, ⟨OpMsg.emptyDocument, []⟩, some 7⟩

/-- The call fails and leaves a frame of 30 bytes behind, whose header says 34. -/
theorem encodeMessage_appends_refused :
    (encodeMessage crc32c ⟨0, 1, 0, .msg⟩ carriesChecksum true [9]).result =
      .err (.invalidOpMsg "body already carries a checksum trailer") ∧
    (encodeMessage crc32c ⟨0, 1, 0, .msg⟩ carriesChecksum true [9]).header = ⟨34, 1, 0, .msg⟩ ∧
    (encodeMessage crc32c ⟨0, 1, 0, .msg⟩ carriesChecksum true [9]).out =
      [9, 34, 0, 0, 0, 1, 0, 0, 0, 0, 0, 0, 0, 221, 7, 0, 0, 1, 0, 0, 0, 0, 5, 0, 0, 0, 0,
        7, 0, 0, 0] := by
  decide

end Framing

end MongoWire
