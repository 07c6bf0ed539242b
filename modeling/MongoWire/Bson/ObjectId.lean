import MongoWire.Bson.Json
import MongoWire.Common.SystemTime

/-!
# Object ids

`ObjectId` of `mongo_common/src/bson/scalar.rs`: the ids that a process generates from one counter,
and their hexadecimal form.
-/

open MongoWire.Lib MongoWire.Lib.Outcome MongoWire.Io

namespace MongoWire.ObjectId

/-! ## The source -/

/-- What one call of `new` reads: the time since the epoch and the random bytes. -/
structure Draw where
  since : Except Duration Duration
  random : Block 5

/-- `map_or(0, |d| d.as_secs() as u32)`. A clock before the epoch counts as the epoch. -/
def Draw.seconds (draw : Draw) : UInt32 :=
  match draw.since with
  | .ok d => .ofNat d.secs.toNat
  | .error _ => 0

/-- `u32::to_be_bytes`. -/
def u32ToBe (v : UInt32) : Bytes := (u32ToLe v).reverse

@[simp] theorem length_u32ToBe (v : UInt32) : (u32ToBe v).length = 4 := by
  rw [u32ToBe, List.length_reverse, length_u32ToLe]

/-- `ObjectId::new`, and the counter that it leaves: `fetch_add` wraps. -/
def new (draw : Draw) (counter : UInt32) : ObjectId × UInt32 :=
  (⟨u32ToBe draw.seconds ++ draw.random.val ++ (u32ToBe counter).drop 1, by simp [draw.random.property]⟩,
    counter + 1)

/-- The ids of a process in the order in which the calls, from any thread, reach the counter. -/
def generate : List Draw → (counter : UInt32) → List ObjectId
  | [], _ => []
  | draw :: draws, counter =>
    let (id, counter) := new draw counter
    id :: generate draws counter

/-- `hex_digit`. -/
def hexDigit (b : UInt8) : Option UInt8 :=
  if 48 ≤ b ∧ b ≤ 57 then some (b - 48)
  else if 97 ≤ b ∧ b ≤ 102 then some (b - 97 + 10)
  else if 65 ≤ b ∧ b ≤ 70 then some (b - 65 + 10)
  else none

def wrongLength : ScalarError := .invalid Tag.objectId.toU8 "object id hex string must be 24 characters"

def notHex : ScalarError := .invalid Tag.objectId.toU8 "object id hex string contains a non-hex character"

/-- The loop of `from_hex` over `chunks_exact(2)`. -/
def fromHexPairs : Bytes → Outcome ScalarError Bytes
  | hi :: lo :: rest => do
    let hi ← ofOption notHex (hexDigit hi)
    let lo ← ofOption notHex (hexDigit lo)
    return ((hi <<< 4) ||| lo) :: (← fromHexPairs rest)
  | _ => .ok []

def fromHex (s : String) : Outcome ScalarError ObjectId := do
  let input := utf8 s
  if input.length ≠ 24 then .err wrongLength else
  expectBlock 12 (← fromHexPairs input)

/-! ## Generated ids -/

theorem leBytes_eq_iff (w n m : Nat) : leBytes w n = leBytes w m ↔ n % 256 ^ w = m % 256 ^ w := by
  induction w generalizing n m with
  | zero => simp [leBytes, Nat.mod_one]
  | succ w ih =>
    rw [leBytes, leBytes, List.cons.injEq, ih, Nat.pow_succ', Nat.mod_mul, Nat.mod_mul,
      ← UInt8.toNat_inj, UInt8.toNat_ofNat', UInt8.toNat_ofNat']
    generalize n / 256 % 256 ^ w = x
    generalize m / 256 % 256 ^ w = y
    omega

theorem new_eq_iff (draw draw' : Draw) (counter counter' : UInt32) :
    (new draw counter).1 = (new draw' counter').1 ↔ draw.seconds = draw'.seconds ∧
      draw.random = draw'.random ∧ counter.toNat % 2 ^ 24 = counter'.toNat % 2 ^ 24 := by
  have hseconds : u32ToBe draw.seconds = u32ToBe draw'.seconds ↔ draw.seconds = draw'.seconds := by
    rw [u32ToBe, u32ToBe, List.reverse_inj, u32ToLe, u32ToLe, leBytes_eq_iff, ← UInt32.toNat_inj]
    have := draw.seconds.toNat_lt
    have := draw'.seconds.toNat_lt
    omega
  have hcounter : (u32ToBe counter).drop 1 = (u32ToBe counter').drop 1 ↔
      counter.toNat % 2 ^ 24 = counter'.toNat % 2 ^ 24 := by
    show (leBytes 3 counter.toNat).reverse = (leBytes 3 counter'.toNat).reverse ↔ _
    rw [List.reverse_inj, leBytes_eq_iff]
    rfl
  have hlen : (u32ToBe draw.seconds ++ draw.random.val).length =
      (u32ToBe draw'.seconds ++ draw'.random.val).length := by
    simp [draw.random.property, draw'.random.property]
  rw [← hseconds, ← hcounter, ← and_assoc, Subtype.ext_iff, Subtype.ext_iff]
  constructor
  · intro h
    obtain ⟨hhead, hlast⟩ := List.append_inj h hlen
    exact ⟨List.append_inj hhead (by simp), hlast⟩
  · rintro ⟨⟨hfirst, hmid⟩, hlast⟩
    show u32ToBe draw.seconds ++ draw.random.val ++ (u32ToBe counter).drop 1 = _
    rw [hfirst, hmid, hlast]
    rfl

theorem getElem?_generate (draws : List Draw) (counter : UInt32) (i : Nat) :
    (generate draws counter)[i]? = draws[i]?.map fun draw => (new draw (counter + .ofNat i)).1 := by
  induction draws generalizing counter i with
  | nil => rfl
  | cons draw draws ih =>
    cases i with
    | zero => simp [generate]
    | succ i =>
      have hnext : counter + .ofNat (i + 1) = counter + 1 + .ofNat i := by
        rw [UInt32.ofNat_add, UInt32.add_assoc, UInt32.add_comm 1]
        rfl
      rw [hnext]
      exact ih (counter + 1) i

/-- **Ids of a process repeat only after 2^24 calls.** Two of its ids are the same exactly when they
were drawn in the same second with the same random bytes, and the number of calls between them is a
multiple of 2^24. -/
theorem generated_eq_iff {draws : List Draw} {i j : Nat} {di dj : Draw} (hi : draws[i]? = some di)
    (hj : draws[j]? = some dj) : (generate draws 0)[i]? = (generate draws 0)[j]? ↔
      di.seconds = dj.seconds ∧ di.random = dj.random ∧ i % 2 ^ 24 = j % 2 ^ 24 := by
  have hcounter (k : Nat) : (0 + UInt32.ofNat k).toNat % 2 ^ 24 = k % 2 ^ 24 := by
    rw [UInt32.zero_add, UInt32.toNat_ofNat']
    omega
  rw [getElem?_generate, getElem?_generate, hi, hj, Option.map_some, Option.map_some, Option.some.injEq,
    new_eq_iff, hcounter, hcounter]

theorem generated_eq_iff_next :
    (generate [⟨.ok ⟨7, 0⟩, ⟨[1, 2, 3, 4, 5], rfl⟩⟩, ⟨.ok ⟨7, 0⟩, ⟨[1, 2, 3, 4, 5], rfl⟩⟩] 0)[0]? ≠
      (generate [⟨.ok ⟨7, 0⟩, ⟨[1, 2, 3, 4, 5], rfl⟩⟩, ⟨.ok ⟨7, 0⟩, ⟨[1, 2, 3, 4, 5], rfl⟩⟩] 0)[1]? :=
  -- Two ids of one second, drawn one after the other with the same random bytes.
  fun h => absurd ((generated_eq_iff rfl rfl).mp h).2.2 (by decide)

/-! ## The hexadecimal form -/

/-- `u8::to_ascii_lowercase`. -/
def toLower (b : UInt8) : UInt8 := if 65 ≤ b ∧ b ≤ 90 then b + 32 else b

/-- The byte of a digit of `to_hex`. -/
def hexByte (n : Nat) : UInt8 := .ofNat (Nat.digitChar n).toNat

theorem utf8EncodeChar_digitChar : ∀ n < 16, String.utf8EncodeChar (Nat.digitChar n) = [hexByte n] := by
  decide

/-- The digits of a byte, high half first. -/
def hexPair (b : UInt8) : Bytes := [hexByte (b.toNat / 16), hexByte (b.toNat % 16)]

theorem utf8_toHex (id : ObjectId) : utf8 id.toHex = id.val.flatMap hexPair := by
  unfold toHex lowerHex
  rw [utf8_ofList, List.flatMap_assoc]
  congr
  funext b
  have hb := b.toNat_lt
  simp [hexPair, utf8EncodeChar_digitChar (b.toNat / 16) (by omega),
    utf8EncodeChar_digitChar (b.toNat % 16) (by omega)]

theorem toNat_hexByte : ∀ n < 16, (hexByte n).toNat = if n < 10 then 48 + n else 87 + n := by decide

theorem toNat_toLower (b : UInt8) :
    (toLower b).toNat = if 65 ≤ b.toNat ∧ b.toNat ≤ 90 then b.toNat + 32 else b.toNat := by
  revert b
  decide +kernel

theorem hexDigit_eq (b : UInt8) : (hexDigit b).map UInt8.toNat =
    if 48 ≤ b.toNat ∧ b.toNat ≤ 57 then some (b.toNat - 48)
    else if 97 ≤ b.toNat ∧ b.toNat ≤ 102 then some (b.toNat - 87)
    else if 65 ≤ b.toNat ∧ b.toNat ≤ 70 then some (b.toNat - 55)
    else none := by
  revert b
  decide +kernel

theorem hexDigit_eq_some (b d : UInt8) :
    hexDigit b = some d ↔ d.toNat < 16 ∧ toLower b = hexByte d.toNat := by
  have hmap : hexDigit b = some d ↔ (hexDigit b).map UInt8.toNat = some d.toNat := by
    cases hexDigit b <;> simp [UInt8.toNat_inj]
  by_cases hd : d.toNat < 16
  · rw [hmap, hexDigit_eq, and_iff_right hd, ← UInt8.toNat_inj, toNat_toLower, toNat_hexByte _ hd]
    split_ifs <;> simp <;> omega
  · rw [hmap, hexDigit_eq]
    split_ifs <;> simp [hd] <;> omega

theorem toNat_halves {hi lo : UInt8} (hhi : hi.toNat < 16) (hlo : lo.toNat < 16) :
    ((hi <<< 4) ||| lo).toNat = hi.toNat * 16 + lo.toNat := by
  have hshift : (hi <<< 4).toNat = hi.toNat <<< 4 := by
    simp [Nat.shiftLeft_eq]
    omega
  rw [UInt8.toNat_or, hshift, ← Nat.shiftLeft_add_eq_or_of_lt (show lo.toNat < 2 ^ 4 by omega),
    Nat.shiftLeft_eq]

theorem hexPair_eq_iff (hi lo b : UInt8) : [toLower hi, toLower lo] = hexPair b ↔
    ∃ h l, hexDigit hi = some h ∧ hexDigit lo = some l ∧ b = (h <<< 4) ||| l := by
  have hb := b.toNat_lt
  simp only [hexDigit_eq_some, hexPair, List.cons.injEq, and_true]
  constructor
  · rintro ⟨hhi, hlo⟩
    have h1 : (UInt8.ofNat (b.toNat / 16)).toNat = b.toNat / 16 := by
      rw [UInt8.toNat_ofNat']
      omega
    have h2 : (UInt8.ofNat (b.toNat % 16)).toNat = b.toNat % 16 := by
      rw [UInt8.toNat_ofNat']
      omega
    refine ⟨.ofNat (b.toNat / 16), .ofNat (b.toNat % 16), ⟨by omega, by rw [h1, hhi]⟩,
      ⟨by omega, by rw [h2, hlo]⟩, UInt8.toNat_inj.mp ?_⟩
    rw [toNat_halves (by omega) (by omega), h1, h2]
    omega
  · rintro ⟨h, l, ⟨hh, hhi⟩, ⟨hl, hlo⟩, rfl⟩
    rw [toNat_halves hh hl, hhi, hlo]
    constructor
    · congr 1
      omega
    · congr 1
      omega

theorem fromHexPairs_eq_ok {input : Bytes} (heven : input.length % 2 = 0) (bytes : Bytes) :
    fromHexPairs input = .ok bytes ↔ input.map toLower = bytes.flatMap hexPair := by
  induction input using fromHexPairs.induct generalizing bytes with
  | case1 hi lo rest ih =>
    have hrest : rest.length % 2 = 0 := by
      simp only [List.length_cons] at heven
      omega
    rw [fromHexPairs]
    simp only [bind_eq_ok, ofOption_eq_ok, pure_eq, ok.injEq]
    cases bytes with
    | nil => simp
    | cons b bytes =>
      have hsplit : (hi :: lo :: rest).map toLower = (b :: bytes).flatMap hexPair ↔
          [toLower hi, toLower lo] = hexPair b ∧ rest.map toLower = bytes.flatMap hexPair := by
        simp [hexPair, and_assoc]
      rw [hsplit, hexPair_eq_iff, ← ih hrest bytes]
      constructor
      · rintro ⟨h, hh, l, hl, tail, htail, hcons⟩
        obtain ⟨rfl, rfl⟩ := List.cons.inj hcons
        exact ⟨⟨h, l, hh, hl, rfl⟩, htail⟩
      · rintro ⟨⟨h, l, hh, hl, rfl⟩, htail⟩
        exact ⟨h, hh, l, hl, bytes, htail, rfl⟩
  | case2 input hshort =>
    obtain rfl : input = [] := by
      rcases input with _ | ⟨hi, _ | ⟨lo, rest⟩⟩
      · rfl
      · cases heven
      · exact (hshort hi lo rest rfl).elim
    cases bytes with
    | nil => simp [fromHexPairs]
    | cons b bytes => simp [fromHexPairs, hexPair]

theorem length_flatMap_hexPair (bytes : Bytes) : (bytes.flatMap hexPair).length = 2 * bytes.length := by
  induction bytes with
  | nil => rfl
  | cons b bytes ih =>
    rw [List.flatMap_cons, List.length_append, ih, List.length_cons]
    simp only [hexPair, List.length_cons, List.length_nil]
    omega

theorem length_toHex (id : ObjectId) : (utf8 id.toHex).length = 24 := by
  rw [utf8_toHex, length_flatMap_hexPair, id.property]

theorem returns_fromHexPairs (input : Bytes) : (fromHexPairs input).Returns := by
  induction input using fromHexPairs.induct with
  | case1 hi lo rest ih => simp [fromHexPairs, returns_bind, ih]
  | case2 input hshort =>
    rw [fromHexPairs]
    · trivial
    · exact hshort

theorem returns_fromHex (s : String) : (fromHex s).Returns := by
  unfold fromHex
  simp only [returns_ite_err, returns_bind, returns_fromHexPairs, returns_expectBlock, true_and]
  intro hlen bytes hbytes
  rw [not_not] at hlen
  rw [fromHexPairs_eq_ok (by omega)] at hbytes
  have := congrArg List.length hbytes
  rw [List.length_map, length_flatMap_hexPair] at this
  omega

/-- **The hexadecimal form is read back.** `from_hex` never panics. It accepts, in either case of the
letters, the text that `to_hex` writes for an id, and nothing else, and returns that id. -/
theorem fromHex_accepts (s : String) : (fromHex s).Returns ∧
    ∀ id, fromHex s = .ok id ↔ (utf8 s).map toLower = utf8 id.toHex := by
  refine ⟨returns_fromHex s, fun id => ?_⟩
  by_cases hlen : (utf8 s).length = 24
  · rw [fromHex]
    simp only [hlen, ne_eq, not_true_eq_false, if_false, bind_eq_ok, expectBlock_eq_ok]
    rw [utf8_toHex, ← fromHexPairs_eq_ok (by omega)]
    exact ⟨fun ⟨bytes, hbytes, heq⟩ => heq ▸ hbytes, fun h => ⟨_, h, rfl⟩⟩
  · refine iff_of_false ?_ fun h => hlen ?_
    · simp [fromHex, hlen]
    · have := congrArg List.length h
      rwa [List.length_map, length_toHex] at this

end MongoWire.ObjectId
