import MongoWire.Common.Scalar
import MongoWire.Lib.IntType

/-!
# Datetimes and the system clock

The time conversions of `mongo_common/src/bson/convert.rs`. A `SystemTime` is an
exact offset from the epoch, and every other number has the width that the
source gives it.
-/

open MongoWire.Lib MongoWire.Lib.Outcome

namespace MongoWire

variable {ε : Type}

/-! ## Spans of time -/

/-- `std::time::Duration`. -/
structure Duration where
  secs : Int
  nanos : Int
  deriving DecidableEq

namespace Duration

def fromMillis (millis : Int) : Outcome ε Duration := do
  let nanos ← IntType.u32.mul (millis % 1000) 1000000
  return ⟨millis / 1000, nanos⟩

def asMillis (d : Duration) : Outcome ε Int := do
  let millis ← IntType.u128.mul d.secs 1000
  IntType.u128.add millis (d.nanos / 1000000)

/-- The span of a number of nanoseconds. -/
def ofNanos (n : Int) : Outcome ε Duration := do
  let secs ← IntType.u64.checked (n / 1000000000)
  return ⟨secs, n % 1000000000⟩

def toNanos (d : Duration) : Int := d.secs * 1000000000 + d.nanos

end Duration

/-- `std::time::SystemTime`: the nanoseconds from the epoch. -/
structure SystemTime where
  nanos : Int
  deriving DecidableEq

namespace SystemTime

def unixEpoch : SystemTime := ⟨0⟩

def add (t : SystemTime) (d : Duration) : SystemTime := ⟨t.nanos + d.toNanos⟩

def sub (t : SystemTime) (d : Duration) : SystemTime := ⟨t.nanos - d.toNanos⟩

/-- `duration_since`: the span back to `earlier`, or in the error the span up to it. -/
def durationSince (t earlier : SystemTime) : Outcome ε (Except Duration Duration) := do
  if earlier.nanos ≤ t.nanos then
    return .ok (← Duration.ofNanos (t.nanos - earlier.nanos))
  else
    return .error (← Duration.ofNanos (earlier.nanos - t.nanos))

/-- The milliseconds that both `From<SystemTime>` store. -/
def toMillis (t : SystemTime) : Outcome ε Int64 := do
  match ← t.durationSince unixEpoch with
  | .ok d => return .ofInt (IntType.i64.cast (← d.asMillis))
  | .error d => return .ofInt (← IntType.i64.checked (-IntType.i64.cast (← d.asMillis)))

end SystemTime

/-- `TryFrom<&Scalar> for SystemTime`. -/
def Scalar.trySystemTime : Scalar → Outcome ScalarError SystemTime
  | .dateTime ms => do
    let d ← Duration.fromMillis ms.toInt.natAbs
    if 0 ≤ ms.toInt then return SystemTime.unixEpoch.add d
    else return SystemTime.unixEpoch.sub d
  | _ => .err .notConvertible

/-- `From<SystemTime> for Scalar`. -/
def Scalar.ofSystemTime (t : SystemTime) : Outcome ε Scalar := do
  return .dateTime (← t.toMillis)

/-! ## Whole milliseconds -/

theorem Duration.fromMillis_eq {millis : Int} :
    (fromMillis millis : Outcome ε Duration) = .ok ⟨millis / 1000, millis % 1000 * 1000000⟩ := by
  unfold fromMillis
  rw [IntType.mul_of_holds
    ⟨show (0 : Int) ≤ _ by omega, show _ ≤ (4294967295 : Int) by omega⟩, ok_bind, pure_eq]

theorem Duration.ofNanos_asMillis {n : Int} (h0 : 0 ≤ n) (hlt : n < 18446744073709551616000000) :
    ∃ d, (ofNanos n : Outcome ε Duration) = .ok d ∧ (d.asMillis : Outcome ε Int) = .ok (n / 1000000) := by
  have hsecs : (ofNanos n : Outcome ε Duration) = .ok ⟨n / 1000000000, n % 1000000000⟩ := by
    unfold ofNanos
    rw [IntType.checked_of_holds
      ⟨show (0 : Int) ≤ _ by omega, show _ ≤ (18446744073709551615 : Int) by omega⟩,
      ok_bind, pure_eq]
  refine ⟨_, hsecs, ?_⟩
  have hsum : n / 1000000000 * 1000 + n % 1000000000 / 1000000 = n / 1000000 := by omega
  unfold asMillis
  dsimp only
  rw [IntType.mul_of_holds ⟨show (0 : Int) ≤ _ by omega,
      show _ ≤ (340282366920938463463374607431768211455 : Int) by omega⟩, ok_bind,
    IntType.add_of_holds ⟨show (0 : Int) ≤ _ by omega,
      show _ ≤ (340282366920938463463374607431768211455 : Int) by omega⟩, hsum]

namespace SystemTime

/-- The whole milliseconds from the epoch, cut towards it. -/
def wholeMillis (t : SystemTime) : Int := t.nanos.tdiv 1000000

theorem wholeMillis_eq (t : SystemTime) :
    t.wholeMillis = if 0 ≤ t.nanos then t.nanos / 1000000 else -(-t.nanos / 1000000) := by
  unfold wholeMillis
  split
  · rename_i h
    exact Int.tdiv_eq_ediv_of_nonneg h
  · rename_i h
    rw [← Int.tdiv_eq_ediv_of_nonneg (by omega), Int.neg_tdiv, neg_neg]

theorem durationSince_epoch {t : SystemTime} {d : Duration} (h : 0 ≤ t.nanos)
    (hd : (Duration.ofNanos t.nanos : Outcome ε Duration) = .ok d) :
    (t.durationSince unixEpoch : Outcome ε _) = .ok (.ok d) := by
  unfold durationSince unixEpoch
  dsimp only
  rw [if_pos h, sub_zero, hd, ok_bind, pure_eq]

theorem durationSince_epoch_of_neg {t : SystemTime} {d : Duration} (h : ¬ 0 ≤ t.nanos)
    (hd : (Duration.ofNanos (-t.nanos) : Outcome ε Duration) = .ok d) :
    (t.durationSince unixEpoch : Outcome ε _) = .ok (.error d) := by
  unfold durationSince unixEpoch
  dsimp only
  rw [if_neg h, zero_sub, hd, ok_bind, pure_eq]

theorem toMillis_eq {t : SystemTime} (h : IntType.i64.Holds t.wholeMillis) :
    (t.toMillis : Outcome ε Int64) =
      if t.wholeMillis = IntType.i64.min then .panic else .ok (.ofInt t.wholeMillis) := by
  rw [IntType.holds_i64, wholeMillis_eq] at h
  rw [wholeMillis_eq, show IntType.i64.min = -9223372036854775808 from rfl]
  unfold toMillis
  by_cases h0 : 0 ≤ t.nanos
  · rw [if_pos h0] at h
    simp only [if_pos h0]
    obtain ⟨d, hd, hmillis⟩ := @Duration.ofNanos_asMillis ε t.nanos h0 (by omega)
    have hcast : IntType.i64.cast (t.nanos / 1000000) = t.nanos / 1000000 := by
      rw [IntType.cast_i64]
      omega
    rw [durationSince_epoch h0 hd, ok_bind]
    dsimp only
    rw [hmillis, ok_bind, hcast, pure_eq, if_neg (by omega)]
  · rw [if_neg h0] at h
    simp only [if_neg h0]
    obtain ⟨d, hd, hmillis⟩ := @Duration.ofNanos_asMillis ε (-t.nanos) (by omega) (by omega)
    rw [durationSince_epoch_of_neg h0 hd, ok_bind]
    dsimp only
    rw [hmillis, ok_bind, IntType.cast_i64]
    by_cases hmin : -(-t.nanos / 1000000) = -9223372036854775808
    · -- the cast has turned `2 ^ 63` into the smallest `i64`
      have hquot : -t.nanos / 1000000 = 9223372036854775808 := by omega
      rw [if_pos hmin, hquot]
      rfl
    · have hcast : (-t.nanos / 1000000 + 9223372036854775808) % 18446744073709551616 -
          9223372036854775808 = -t.nanos / 1000000 := by omega
      rw [if_neg hmin, hcast, IntType.checked_of_holds ((IntType.holds_i64 _).mpr (by omega)),
        ok_bind, pure_eq]

end SystemTime

theorem Scalar.trySystemTime_dateTime (ms : Int64) :
    (Scalar.dateTime ms).trySystemTime = .ok ⟨ms.toInt * 1000000⟩ := by
  unfold trySystemTime
  dsimp only
  rw [Duration.fromMillis_eq, ok_bind]
  split
  · rename_i h
    rw [pure_eq]
    unfold SystemTime.add SystemTime.unixEpoch Duration.toNanos
    congr 2
    dsimp only
    omega
  · rename_i h
    rw [pure_eq]
    unfold SystemTime.sub SystemTime.unixEpoch Duration.toNanos
    congr 2
    dsimp only
    omega

theorem SystemTime.toMillis_ofMillis (ms : Int64) :
    ((⟨ms.toInt * 1000000⟩ : SystemTime).toMillis : Outcome ε Int64) =
      if ms = Int64.minValue then .panic else .ok ms := by
  have hwhole : (⟨ms.toInt * 1000000⟩ : SystemTime).wholeMillis = ms.toInt :=
    Int.mul_tdiv_cancel _ (by omega)
  have hmin : ms.toInt = IntType.i64.min ↔ ms = Int64.minValue := by
    rw [← Int64.toInt_inj]
    rfl
  rw [toMillis_eq (by rw [hwhole]; exact IntType.holds_toInt ms), hwhole, Int64.ofInt_toInt]
  simp only [hmin]

theorem SystemTime.toMillis_mono {t t' : SystemTime} (h : IntType.i64.Holds t.wholeMillis)
    (h' : IntType.i64.Holds t'.wholeMillis) (hle : t.nanos ≤ t'.nanos) :
    (∃ a b, (t.toMillis : Outcome ε Int64) = .ok a ∧ (t'.toMillis : Outcome ε Int64) = .ok b ∧ a ≤ b) ↔
      -2 ^ 63 * 1000000 < t.nanos := by
  have hlow : -2 ^ 63 ≤ t.wholeMillis := h.1
  have hmin : t.wholeMillis = IntType.i64.min ↔ t.nanos ≤ -2 ^ 63 * 1000000 := by
    rw [show IntType.i64.min = -2 ^ 63 from rfl]
    rw [wholeMillis_eq] at hlow ⊢
    split at hlow <;> omega
  have hmono : t.wholeMillis ≤ t'.wholeMillis := by
    rw [wholeMillis_eq, wholeMillis_eq]
    split <;> split <;> omega
  rw [toMillis_eq h, toMillis_eq h']
  constructor
  · rintro ⟨a, b, ha, -⟩
    split at ha
    · cases ha
    · rename_i hne
      rw [hmin] at hne
      omega
  · intro hlt
    have hne : t.wholeMillis ≠ IntType.i64.min := by
      rw [Ne, hmin]
      omega
    have hne' : t'.wholeMillis ≠ IntType.i64.min := by
      have := h.1
      omega
    refine ⟨_, _, if_neg hne, if_neg hne', ?_⟩
    rw [IntType.holds_i64] at h h'
    rw [Int64.le_iff_toInt_le, Int64.toInt_ofInt_of_le (by omega) (by omega),
      Int64.toInt_ofInt_of_le (by omega) (by omega)]
    exact hmono

end MongoWire
