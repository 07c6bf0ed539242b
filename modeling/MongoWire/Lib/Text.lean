import MongoWire.Lib.LittleEndian

/-!
# Text in byte strings

A `String` is its UTF-8 bytes, so reading text is a check and never a change.
-/

namespace MongoWire.Lib

/-- `str::as_bytes`. -/
def utf8 (s : String) : Bytes := s.toByteArray.data.toList

/-- `std::str::from_utf8`. Nothing reads the position inside its error, so it is not kept. -/
def fromUtf8 (b : Bytes) : Option String :=
  if h : ByteArray.IsValidUTF8 ⟨b.toArray⟩ then some (.ofByteArray ⟨b.toArray⟩ h) else none

@[simp] theorem fromUtf8_utf8 (s : String) : fromUtf8 (utf8 s) = some s := by
  have h := s.isValidUTF8
  simp [fromUtf8, utf8, h]

theorem fromUtf8_eq_some (b : Bytes) (s : String) : fromUtf8 b = some s ↔ b = utf8 s := by
  constructor
  · intro h
    unfold fromUtf8 at h
    split at h
    · cases h; simp [utf8]
    · cases h
  · rintro rfl; exact fromUtf8_utf8 s

theorem utf8_injective {s t : String} (h : utf8 s = utf8 t) : s = t := by
  have := fromUtf8_utf8 s
  rw [h, fromUtf8_utf8] at this
  exact (Option.some.inj this).symm

theorem utf8_eq_nil (s : String) : utf8 s = [] ↔ s = "" := by
  constructor
  · intro h; exact utf8_injective (h.trans rfl)
  · rintro rfl; rfl

theorem length_utf8_append (s t : String) :
    (utf8 (s ++ t)).length = (utf8 s).length + (utf8 t).length := by
  simp [utf8]

theorem utf8_ofList (cs : List Char) : utf8 (.ofList cs) = cs.flatMap String.utf8EncodeChar := by
  simp [utf8, List.utf8Encode, List.data_toByteArray]

/-! ## Decimal numbers -/

theorem utf8_toString (n : Nat) :
    utf8 (toString n) = (Nat.toDigits 10 n).flatMap String.utf8EncodeChar := by
  rw [Nat.toString_eq_ofList_toDigits, utf8_ofList]

theorem eq_zero_of_ofNat {n : Nat} (hn : n < 256) (h : UInt8.ofNat n = 0) : n = 0 := by
  have := congrArg UInt8.toNat h
  simp only [UInt8.toNat_ofNat', UInt8.toNat_zero] at this
  omega

theorem utf8EncodeChar_digit (c : Char) (h : c.isDigit) :
    ∃ b : UInt8, String.utf8EncodeChar c = [b] ∧ b ≠ 0 := by
  simp only [Char.isDigit, Bool.and_eq_true, decide_eq_true_eq] at h
  have hlo : 48 ≤ c.val.toNat := h.1
  have hhi : c.val.toNat ≤ 57 := h.2
  refine ⟨UInt8.ofNat c.val.toNat, ?_, ?_⟩
  · unfold String.utf8EncodeChar
    rw [if_pos (by omega)]
  · intro h0
    have := eq_zero_of_ofNat (by omega) h0
    omega

theorem flatMap_digits (l : List Char) (h : ∀ c ∈ l, c.isDigit) :
    (l.flatMap String.utf8EncodeChar).length = l.length ∧
      (0 : UInt8) ∉ l.flatMap String.utf8EncodeChar := by
  induction l with
  | nil => simp
  | cons c l ih =>
    obtain ⟨b, hb, hne⟩ := utf8EncodeChar_digit c (h c (by simp))
    obtain ⟨hlen, hmem⟩ := ih (fun x hx => h x (by simp [hx]))
    simp [hb, hlen, hmem, hne.symm]

theorem isDigit_toDigits (n : Nat) : ∀ c ∈ Nat.toDigits 10 n, c.isDigit :=
  fun _ hc => Nat.isDigit_of_mem_toDigits (by omega) (by omega) hc

theorem nul_not_mem_toString (n : Nat) : (0 : UInt8) ∉ utf8 (toString n) := by
  rw [utf8_toString]
  exact (flatMap_digits _ (isDigit_toDigits n)).2

theorem length_toString_le (n k : Nat) (hk : 0 < k) (h : n < 10 ^ k) :
    (utf8 (toString n)).length ≤ k := by
  rw [utf8_toString, (flatMap_digits _ (isDigit_toDigits n)).1]
  exact (Nat.length_toDigits_le_iff (by omega) hk).mpr h

/-! ## Hexadecimal -/

/-- Each byte as `format!("{b:02x}")`. -/
def lowerHex (bytes : Bytes) : String :=
  .ofList (bytes.flatMap fun b => [Nat.digitChar (b.toNat / 16), Nat.digitChar (b.toNat % 16)])

/-! ## NUL-terminated text -/

theorem nul_mem_utf8EncodeChar (c : Char) : (0 : UInt8) ∈ String.utf8EncodeChar c ↔ c = '\x00' := by
  -- the bytes of a character past ASCII all have their high bit set
  constructor
  · intro h
    apply Char.toNat_inj.mp
    unfold String.utf8EncodeChar at h
    dsimp only at h
    split at h
    · simp only [List.mem_cons, List.not_mem_nil, or_false] at h
      exact eq_zero_of_ofNat (n := c.val.toNat) (by omega) h.symm
    · -- every byte of the other three encodings is at least 0x80
      exfalso
      split at h
      · simp only [List.mem_cons, List.not_mem_nil, or_false] at h
        rcases h with h | h
        all_goals have := eq_zero_of_ofNat (by omega) h.symm; omega
      · split at h
        · simp only [List.mem_cons, List.not_mem_nil, or_false] at h
          rcases h with h | h | h
          all_goals have := eq_zero_of_ofNat (by omega) h.symm; omega
        · simp only [List.mem_cons, List.not_mem_nil, or_false] at h
          rcases h with h | h | h | h
          all_goals have := eq_zero_of_ofNat (by omega) h.symm; omega
  · rintro rfl
    decide

theorem nul_mem_utf8 (s : String) : (0 : UInt8) ∈ utf8 s ↔ '\x00' ∈ s.toList := by
  obtain ⟨cs, rfl⟩ : ∃ cs, s = String.ofList cs := ⟨s.toList, String.ofList_toList.symm⟩
  rw [utf8_ofList, String.toList_ofList, List.mem_flatMap]
  constructor
  · rintro ⟨c, hc, h⟩
    rwa [← (nul_mem_utf8EncodeChar c).mp h]
  · intro h
    exact ⟨_, h, (nul_mem_utf8EncodeChar _).mpr rfl⟩

/-- `iter().position(|&b| b == 0)`. -/
def nulPos (b : Bytes) : Option Nat := b.findIdx? (· == 0)

theorem nulPos_append (s t : Bytes) (h : (0 : UInt8) ∉ s) : nulPos (s ++ 0 :: t) = some s.length := by
  induction s with
  | nil => simp [nulPos, List.findIdx?_cons]
  | cons x s ih =>
    simp only [List.mem_cons, not_or] at h
    have hx : (x == 0) = false := by rw [beq_eq_false_iff_ne]; exact Ne.symm h.1
    have := ih h.2
    unfold nulPos at this ⊢
    simp [List.findIdx?_cons, hx, this]

theorem nulPos_eq_some (b : Bytes) (n : Nat) :
    nulPos b = some n ↔ ∃ s t, b = s ++ 0 :: t ∧ (0 : UInt8) ∉ s ∧ s.length = n := by
  constructor
  · intro h
    simp only [nulPos, List.findIdx?_eq_some_iff_getElem] at h
    obtain ⟨hlt, hz, hbefore⟩ := h
    refine ⟨b.take n, b.drop (n + 1), ?_, ?_, by simp; omega⟩
    · have : b[n] = 0 := by simpa using hz
      rw [← this, List.cons_getElem_drop_succ, List.take_append_drop]
    · intro hmem
      obtain ⟨i, hi, hget⟩ := List.getElem_of_mem hmem
      simp only [List.length_take] at hi
      have := hbefore i (by omega)
      simp only [List.getElem_take] at hget
      simp [hget] at this
  · rintro ⟨s, t, rfl, hs, rfl⟩
    exact nulPos_append s t hs

end MongoWire.Lib
