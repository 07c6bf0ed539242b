import MongoWire.Framing
import MongoWire.Messages.Total

/-!
# What a frame is

`parse_message` accepts a frame if and only if it is a header, a word and the
tail of a body, with a correct checksum where it claims one.
-/

open MongoWire.Lib MongoWire.Lib.Outcome MongoWire.Io

namespace MongoWire.Framing

/-! ## Checksums -/

/-- The word behind the header. -/
def flagWord (frame : Bytes) : UInt32 := u32FromLe ((frame.drop msgHeaderLen).take 4)

/-- An `OP_MSG` frame that says it ends in a checksum. -/
def ClaimsChecksum (h : Header) (frame : Bytes) : Prop :=
  h.opCode = .msg ∧ msgHeaderLen + 4 ≤ frame.length ∧ flagWord frame &&& MsgFlag.checksumPresent ≠ 0

/-- The last four bytes are the checksum of all the others. -/
def Signed (crc : Checksum) (frame : Bytes) : Prop :=
  frame.drop (frame.length - 4) = u32ToLe (crc (frame.take (frame.length - 4)))

theorem u32In_ok (b : Bytes) (i j : Nat) (hij : j = i + 4) (h : j ≤ b.length) :
    u32In b i j = .ok (u32FromLe ((b.drop i).take 4)) := by
  subst hij
  have hlen : ((b.drop i).take 4).length = 4 := by simp; omega
  simp [u32In, slice_ok b i (i + 4) (by omega) h, expectBlock, hlen]

section Checks

variable (crc : Checksum) (h : Header) {buf : Bytes} {n : Nat}

theorem u32In_append (t : Bytes) (i j : Nat) (hj : j ≤ buf.length) :
    u32In (buf ++ t) i j = u32In buf i j := by
  rw [u32In, slice_append t i j hj, u32In]

theorem rejectShort_append (t : Bytes) (hn : n ≤ buf.length) :
    rejectShort h n (buf ++ t) = rejectShort h n buf := by
  unfold rejectShort
  split <;> rename_i hc
  · rw [u32In_append t _ _ (by omega)]
  · rfl

theorem verifyChecksum_append (t : Bytes) (hn : n ≤ buf.length) :
    verifyChecksum crc h n (buf ++ t) = verifyChecksum crc h n buf := by
  rw [verifyChecksum, slice_append t _ _ hn, verifyChecksum]

theorem returns_rejectShort (hn : n ≤ buf.length) : (rejectShort h n buf).Returns := by
  unfold rejectShort
  split <;> rename_i hc
  · rw [u32In_ok _ _ _ rfl (by omega), ok_bind, returns_ite_err]
    simp
  · simp

variable {frame : Bytes}

theorem flagWord_eq (hlen : msgHeaderLen + 4 ≤ frame.length) :
    u32In frame msgHeaderLen (msgHeaderLen + 4) = .ok (flagWord frame) :=
  u32In_ok frame _ _ rfl hlen

theorem rejectShort_eq_ok :
    rejectShort h frame.length frame = .ok () ↔
      (ClaimsChecksum h frame → msgHeaderLen + 10 ≤ frame.length) := by
  unfold rejectShort
  split <;> rename_i hc
  · obtain ⟨hop, hlow, hhigh⟩ := hc
    rw [flagWord_eq hlow, ok_bind, ite_err_eq_ok]
    simp only [ClaimsChecksum, hop, hlow, true_and, and_true]
    constructor
    · intro h0 h1; exact absurd h1 h0
    · intro h0 h1; have := h0 h1; omega
  · simp only [true_iff]
    rintro ⟨hop, hlow, -⟩
    by_contra hlt
    exact hc ⟨hop, hlow, by omega⟩

theorem verifyChecksum_eq (hlen : msgHeaderLen + 8 ≤ frame.length) (hop : h.opCode = .msg) :
    verifyChecksum crc h frame.length frame =
      if flagWord frame &&& MsgFlag.checksumPresent ≠ 0 then
        let expected := u32FromLe (frame.drop (frame.length - 4))
        let computed := crc (frame.take (frame.length - 4))
        if computed ≠ expected then .err (.checksumMismatch expected computed) else .ok ()
      else .ok () := by
  have htrailer : u32In frame (frame.length - 4) frame.length =
      .ok (u32FromLe (frame.drop (frame.length - 4))) := by
    rw [u32In_ok _ _ _ (by omega) (Nat.le_refl _), List.take_of_length_le (by simp; omega)]
  rw [verifyChecksum, if_pos ⟨hop, hlen⟩, slice_to_end _ _ (by omega), List.drop_zero, ok_bind,
    flagWord_eq (by omega), ok_bind, usub_ok _ _ (by omega), ok_bind, htrailer, ok_bind,
    slice_ok _ _ _ (by omega) (by omega), ok_bind, List.drop_zero, Nat.sub_zero]

theorem returns_verifyChecksum (hn : n ≤ buf.length) : (verifyChecksum crc h n buf).Returns := by
  by_cases hc : h.opCode = .msg ∧ msgHeaderLen + 8 ≤ n
  · obtain ⟨frame, t, rfl, rfl⟩ : ∃ frame t, buf = frame ++ t ∧ n = frame.length :=
      ⟨buf.take n, buf.drop n, (List.take_append_drop n buf).symm, by simp; omega⟩
    rw [verifyChecksum_append crc h t (Nat.le_refl _), verifyChecksum_eq crc h hc.2 hc.1]
    simp only
    split
    · rw [returns_ite_err]; simp
    · simp
  · simp [verifyChecksum, hc]

theorem signed_iff (hlen : 4 ≤ frame.length) :
    Signed crc frame ↔
      crc (frame.take (frame.length - 4)) = u32FromLe (frame.drop (frame.length - 4)) := by
  have h4 : (frame.drop (frame.length - 4)).length = 4 := by simp; omega
  rw [Signed, ← u32ToLe_inj, u32ToLe_u32FromLe _ h4, eq_comm]

theorem verifyChecksum_eq_ok (hlong : ClaimsChecksum h frame → msgHeaderLen + 10 ≤ frame.length) :
    verifyChecksum crc h frame.length frame = .ok () ↔
      (ClaimsChecksum h frame → Signed crc frame) := by
  by_cases hc : h.opCode = .msg ∧ msgHeaderLen + 8 ≤ frame.length
  · rw [verifyChecksum_eq crc h hc.2 hc.1, signed_iff crc (by omega)]
    simp only [ClaimsChecksum, hc.1, true_and]
    split <;> rename_i hbit
    · rw [ite_err_eq_ok]
      simp only [not_not, and_true]
      exact ⟨fun heq _ => heq, fun himp => himp ⟨by omega, hbit⟩⟩
    · simp only [true_iff]
      exact fun hclaim => absurd hclaim.2 hbit
  · simp only [verifyChecksum, hc, if_false, true_iff]
    intro hclaim
    have := hlong hclaim
    exact absurd ⟨hclaim.1, by omega⟩ hc

end Checks

/-! ## One frame -/

/-- A frame as `parse_message` lets it through to the body parser. -/
structure IsFrame (crc : Checksum) (maxLen : Int32) (h : Header) (frame : Bytes) : Prop where
  header : frame.take msgHeaderLen = h.layout
  bounds : h.InBounds maxLen
  length : h.messageLength.toInt = frame.length
  long : ClaimsChecksum h frame → msgHeaderLen + 10 ≤ frame.length
  signed : ClaimsChecksum h frame → Signed crc frame

section TakeFrame

variable {crc : Checksum} {maxLen : Int32}

theorem takeFrame_eq {buf : Bytes} (h16 : msgHeaderLen ≤ buf.length) :
    takeFrame crc maxLen buf = do
      let h ← Header.parse (buf.take msgHeaderLen) maxLen
      let n := i32AsUsize h.messageLength
      if buf.length < n then .ok none else do
      rejectShort h n buf
      verifyChecksum crc h n buf
      return some (h, buf.take n, buf.drop n) := by
  rw [takeFrame, if_neg (by omega), slice_ok _ _ _ (by omega) h16, ok_bind, List.drop_zero,
    Nat.sub_zero]
  congr 1
  funext h
  simp only
  split <;> rename_i hn
  · rfl
  · simp only [freeze, Nat.not_lt.mp hn, if_true, ok_bind]

theorem takeFrame_of_short {buf : Bytes} (h16 : buf.length < msgHeaderLen) :
    takeFrame crc maxLen buf = .ok none := if_pos h16

theorem takeFrame_eq_some (buf : Bytes) (h : Header) (frame rest : Bytes) :
    takeFrame crc maxLen buf = .ok (some (h, frame, rest)) ↔
      buf = frame ++ rest ∧ IsFrame crc maxLen h frame := by
  constructor
  · intro hok
    by_cases h16 : buf.length < msgHeaderLen
    · rw [takeFrame_of_short h16] at hok; cases hok
    have hhead : (buf.take msgHeaderLen).length = msgHeaderLen := by simp; omega
    rw [takeFrame_eq (by omega), bind_eq_ok] at hok
    obtain ⟨h', hparse, hok⟩ := hok
    obtain ⟨hlayout, hbounds⟩ := (Header.parse_eq_ok _ hhead maxLen h').mp hparse
    have hlen := i32AsUsize_of_nonneg h'.messageLength (Int.le_trans (by decide) hbounds.1)
    generalize i32AsUsize h'.messageLength = n at hlen hok
    simp only at hok
    split at hok <;> rename_i hn
    · cases hok
    obtain ⟨f, t, rfl, rfl⟩ : ∃ f t, buf = f ++ t ∧ n = f.length :=
      ⟨buf.take n, buf.drop n, (List.take_append_drop n buf).symm, by simp; omega⟩
    have h16f : msgHeaderLen ≤ f.length := by have := hbounds.1; omega
    rw [rejectShort_append h' t (Nat.le_refl _), verifyChecksum_append crc h' t (Nat.le_refl _)]
      at hok
    simp only [List.take_left, List.drop_left, bind_eq_ok, pure_eq, ok.injEq, Option.some.injEq,
      Prod.mk.injEq] at hok
    obtain ⟨_, hshort, _, hverify, rfl, rfl, rfl⟩ := hok
    have hlong := (rejectShort_eq_ok h').mp hshort
    rw [List.take_append_of_le_length h16f] at hlayout
    exact ⟨rfl, hlayout, hbounds, hlen.symm, hlong, (verifyChecksum_eq_ok crc h' hlong).mp hverify⟩
  · rintro ⟨rfl, hframe⟩
    have hbounds := hframe.bounds
    have hlen := hframe.length
    have h16 : msgHeaderLen ≤ frame.length := by have := hbounds.1; omega
    have hhead : (frame.take msgHeaderLen).length = msgHeaderLen := by simp; omega
    have hparse := (Header.parse_eq_ok _ hhead maxLen h).mpr ⟨hframe.header, hbounds⟩
    have hn : i32AsUsize h.messageLength = frame.length := i32AsUsize_of_toInt hlen
    have hshort := (rejectShort_eq_ok h).mpr hframe.long
    have hverify := (verifyChecksum_eq_ok crc h hframe.long).mpr hframe.signed
    rw [takeFrame_eq (by simp; omega), List.take_append_of_le_length h16, hparse, ok_bind]
    simp only [hn]
    rw [if_neg (by simp), rejectShort_append h rest (Nat.le_refl _),
      verifyChecksum_append crc h rest (Nat.le_refl _), hshort, ok_bind, hverify, ok_bind,
      List.take_left, List.drop_left]
    rfl

theorem takeFrame_append (buf t : Bytes) (hready : takeFrame crc maxLen buf ≠ .ok none) :
    takeFrame crc maxLen (buf ++ t) = do
      return (← takeFrame crc maxLen buf).map fun (h, frame, rest) => (h, frame, rest ++ t) := by
  by_cases h16 : buf.length < msgHeaderLen
  · exact absurd (takeFrame_of_short h16) hready
  have h16 := Nat.not_lt.mp h16
  rw [takeFrame_eq h16] at hready ⊢
  rw [takeFrame_eq (by simp; omega), List.take_append_of_le_length h16]
  cases hparse : Header.parse (buf.take msgHeaderLen) maxLen with
  | ok h =>
    simp only [hparse, ok_bind] at hready ⊢
    split at hready <;> rename_i hn
    · exact absurd rfl hready
    have hn := Nat.not_lt.mp hn
    rw [if_neg (by simp; omega), if_neg (by omega), rejectShort_append h t hn,
      verifyChecksum_append crc h t hn, List.take_append_of_le_length hn,
      List.drop_append_of_le_length hn]
    simp only [bind_assoc, pure_bind, Option.map_some]
  | _ => rfl

theorem returns_takeFrame (buf : Bytes) : (takeFrame crc maxLen buf).Returns := by
  by_cases h16 : buf.length < msgHeaderLen
  · simp [takeFrame_of_short h16]
  simp only [takeFrame_eq (Nat.not_lt.mp h16), returns_bind, Header.returns_parse, true_and]
  intro h _
  split <;> rename_i hn
  · simp
  simp only [returns_bind, returns_rejectShort h (Nat.not_lt.mp hn),
    returns_verifyChecksum crc h (Nat.not_lt.mp hn), pure_eq, returns_ok, implies_true, and_true]

end TakeFrame

/-! ## One message -/

def frameLayout (h : Header) (w : UInt32) (b : MessageBody) : Bytes :=
  h.layout ++ (u32ToLe w ++ b.tail)

theorem length_frameLayout (h : Header) (w : UInt32) (b : MessageBody) :
    (frameLayout h w b).length = msgHeaderLen + (4 + b.tail.length) := by
  simp [frameLayout]

theorem flagWord_frameLayout (h : Header) (w : UInt32) (b : MessageBody) :
    flagWord (frameLayout h w b) = w := by
  rw [flagWord, frameLayout, List.drop_left' (Header.length_layout h),
    List.take_left' (length_u32ToLe w), u32FromLe_u32ToLe]

theorem claimsChecksum_frameLayout (h : Header) (w : UInt32) (b : MessageBody) :
    ClaimsChecksum h (frameLayout h w b) ↔
      h.opCode = .msg ∧ w &&& MsgFlag.checksumPresent ≠ 0 := by
  rw [ClaimsChecksum, flagWord_frameLayout, length_frameLayout]
  simp

theorem signed_append (crc : Checksum) (b : Bytes) (c : UInt32) :
    Signed crc (b ++ u32ToLe c) ↔ c = crc b := by
  have hlen : (b ++ u32ToLe c).length - 4 = b.length := by simp
  rw [Signed, hlen, List.drop_left, List.take_left, u32ToLe_inj]

/-- What a checksum covers: the header, the flag word and the sections. -/
def covered (h : Header) (w : UInt32) (m : OpMsg) : Bytes :=
  h.layout ++ (u32ToLe w ++ OpMsg.sectionsLayout m.sections)

theorem frameLayout_of_checksum (h : Header) (w : UInt32) {m : OpMsg} {c : UInt32}
    (hc : m.checksum = some c) : frameLayout h w (.msg m) = covered h w m ++ u32ToLe c := by
  simp [frameLayout, covered, MessageBody.tail, OpMsg.tail, OpMsg.trailer, hc]

theorem frameLayout_of_no_checksum (h : Header) (w : UInt32) {m : OpMsg}
    (hm : m.checksum = none) : frameLayout h w (.msg m) = covered h w m := by
  simp [frameLayout, covered, MessageBody.tail, OpMsg.tail, OpMsg.trailer, hm]

/-- `b` is what the frame of `h`, `w` and its tail holds. -/
structure Accepted (crc : Checksum) (maxLen : Int32) (h : Header) (w : UInt32) (b : MessageBody) :
    Prop where
  bounds : h.InBounds maxLen
  length : h.messageLength.toInt = (frameLayout h w b).length
  opcode : h.opCode = b.opcode
  parsed : b.ParsedFrom w
  checksum : ∀ m c, b = .msg m → m.checksum = some c → c = crc (covered h w m)

section ParseMessage

variable {crc : Checksum} {maxLen : Int32} {h : Header} {w : UInt32} {b : MessageBody}

theorem accepted_iff_isFrame :
    Accepted crc maxLen h w b ↔
      IsFrame crc maxLen h (frameLayout h w b) ∧ h.opCode = b.opcode ∧ b.ParsedFrom w := by
  have hhead : (frameLayout h w b).take msgHeaderLen = h.layout :=
    List.take_left' (Header.length_layout h)
  constructor
  · intro ha
    have hclaim : ClaimsChecksum h (frameLayout h w b) → ∃ m c, b = .msg m ∧ m.checksum = some c := by
      rw [claimsChecksum_frameLayout, ha.opcode]
      rintro ⟨hop, hbit⟩
      cases b with
      | msg m =>
        obtain ⟨c, hc⟩ := Option.isSome_iff_exists.mp (ha.parsed.checksum.mpr hbit)
        exact ⟨m, c, rfl, hc⟩
      | _ => cases hop
    refine ⟨⟨hhead, ha.bounds, ha.length, ?_, ?_⟩, ha.opcode, ha.parsed⟩
    · intro hclaims
      obtain ⟨m, c, rfl, hc⟩ := hclaim hclaims
      have h6 := OpMsg.six_le_length ha.parsed.body
      rw [frameLayout_of_checksum h w hc]
      simp [covered]
      omega
    · intro hclaims
      obtain ⟨m, c, rfl, hc⟩ := hclaim hclaims
      rw [frameLayout_of_checksum h w hc, signed_append]
      exact ha.checksum m c rfl hc
  · rintro ⟨hframe, hop, hparsed⟩
    refine ⟨hframe.bounds, hframe.length, hop, hparsed, ?_⟩
    rintro m c rfl hc
    have hsigned := hframe.signed ((claimsChecksum_frameLayout ..).mpr
      ⟨hop, hparsed.checksum.mp (by simp [hc])⟩)
    rwa [frameLayout_of_checksum h w hc, signed_append] at hsigned

theorem parseFrame_eq_ok (frame : Bytes) (h16 : msgHeaderLen ≤ frame.length)
    (o : Option (Header × MessageBody)) :
    parseFrame h frame = .ok o ↔ ∃ b w, o = some (h, b) ∧ h.opCode = b.opcode ∧ b.ParsedFrom w ∧
      frame.drop msgHeaderLen = u32ToLe w ++ b.tail := by
  simp only [parseFrame, slice_to_end frame _ h16, ok_bind, bind_eq_ok, MessageBody.parseBody_eq_ok,
    pure_eq, ok.injEq]
  constructor
  · rintro ⟨b, ⟨hop, w, hparsed, hbytes⟩, rfl⟩
    exact ⟨b, w, rfl, hop, hparsed, hbytes⟩
  · rintro ⟨b, w, rfl, hop, hparsed, hbytes⟩
    exact ⟨b, ⟨hop, w, hparsed, hbytes⟩, rfl⟩

theorem IsFrame.sixteen_le {frame : Bytes} (hf : IsFrame crc maxLen h frame) :
    msgHeaderLen ≤ frame.length := by
  have := hf.bounds.1
  have := hf.length
  omega

/-- **One call, one frame.** `parse_message` returns a message exactly when the buffer starts with
its frame, and takes exactly this frame off the buffer. -/
theorem parseMessage_eq_some (buf rest : Bytes) :
    parseMessage crc maxLen buf = (.ok (some (h, b)), rest) ↔
      ∃ w, buf = frameLayout h w b ++ rest ∧ Accepted crc maxLen h w b := by
  constructor
  · intro hok
    unfold parseMessage at hok
    split at hok
    case h_2 h' frame rest' htake =>
      rw [Prod.mk.injEq] at hok
      obtain ⟨hparse, rfl⟩ := hok
      obtain ⟨rfl, hframe⟩ := (takeFrame_eq_some ..).mp htake
      obtain ⟨b', w, hb, hop, hparsed, hbytes⟩ :=
        (parseFrame_eq_ok _ hframe.sixteen_le _).mp hparse
      cases hb
      obtain rfl : frame = frameLayout h w b := by
        rw [frameLayout, ← hbytes, ← hframe.header, List.take_append_drop]
      exact ⟨w, rfl, accepted_iff_isFrame.mpr ⟨hframe, hop, hparsed⟩⟩
    all_goals cases hok
  · rintro ⟨w, rfl, ha⟩
    obtain ⟨hframe, hop, hparsed⟩ := accepted_iff_isFrame.mp ha
    have hbody := (parseFrame_eq_ok _ hframe.sixteen_le _).mpr ⟨b, w, rfl, hop, hparsed,
      List.drop_left' (Header.length_layout h)⟩
    rw [parseMessage, (takeFrame_eq_some ..).mpr ⟨rfl, hframe⟩]
    simp only [hbody]

theorem returns_parseMessage (crc : Checksum) (maxLen : Int32) (buf : Bytes) :
    (parseMessage crc maxLen buf).1.Returns := by
  have hreturns : (takeFrame crc maxLen buf).Returns := returns_takeFrame buf
  unfold parseMessage
  split <;> rename_i htake
  · simp
  · obtain ⟨-, hframe⟩ := (takeFrame_eq_some ..).mp htake
    simp [parseFrame, returns_bind, hframe.sixteen_le, MessageBody.returns_parseBody]
  · simp
  · simp [htake] at hreturns
  · simp [htake] at hreturns

end ParseMessage

end MongoWire.Framing
