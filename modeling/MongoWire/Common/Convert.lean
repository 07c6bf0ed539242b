import MongoWire.Common.Scalar
import MongoWire.Lib.Float64

/-!
# Scalars and native numbers

The integer conversions of `mongo_common/src/bson/convert.rs`. All nine targets
go through one `i64`, and a double is first checked against the range of `i64`
as doubles have it.
-/

open MongoWire.Lib MongoWire.Lib.Outcome

namespace MongoWire

/-- The types that `try_from_numeric!` is applied to. -/
inductive NumericTarget where
  | i8
  | i16
  | i32
  | i64
  | i128
  | u8
  | u16
  | u32
  | u64
  deriving DecidableEq

def NumericTarget.type : NumericTarget → IntType
  | i8 => .i8
  | i16 => .i16
  | i32 => .i32
  | i64 => .i64
  | i128 => .i128
  | u8 => .u8
  | u16 => .u16
  | u32 => .u32
  | u64 => .u64

namespace Scalar

/-- The `i64` that a numeric conversion starts from. -/
def wide : Scalar → Outcome ScalarError Int
  | .int32 i => .ok i.toInt
  | .int64 i => .ok i.toInt
  | .bool b => .ok b.toInt
  | .double bits =>
    let f := Float64.ofBits bits
    if f.fract.eq (.finite 0) ∧ (Float64.ofInt IntType.i64.min).le f ∧
        f.le (Float64.ofInt IntType.i64.max) then .ok (f.toInt .i64)
    else .err .notConvertible
  | _ => .err .notConvertible

/-- `T::try_from(&Scalar)`, for the integer type `T` of a target. -/
def tryFromNumeric (target : NumericTarget) (v : Scalar) : Outcome ScalarError Int := do
  let wide ← v.wide
  if target.type.Holds wide then .ok wide else .err .outOfRange

/-! ## The value of a scalar -/

/-- The number that a scalar stands for. -/
def value : Scalar → Option ℚ
  | .int32 i => some i.toInt
  | .int64 i => some i.toInt
  | .bool b => some b.toInt
  | .double bits =>
    match Float64.ofBits bits with
    | .finite q => some q
    | _ => none
  | _ => none

/-- The scalars that are integers by their kind. -/
def IsInteger : Scalar → Bool
  | .int32 _ => true
  | .int64 _ => true
  | .bool _ => true
  | _ => false

theorem value_double {bits : UInt64} {q : ℚ} :
    (double bits).value = some q ↔ Float64.ofBits bits = .finite q := by
  unfold value
  dsimp only
  rcases Float64.ofBits bits with _ | _ | q'
  · simp
  · simp
  · simp

theorem wide_double {bits : UInt64} {n : Int} :
    (double bits).wide = .ok n ↔
      ∃ k : Int, (double bits).value = some (k : ℚ) ∧ -2 ^ 63 ≤ k ∧ k ≤ 2 ^ 63 ∧
        n = min (2 ^ 63 - 1) k := by
  have hclamp (k : Int) (hk : -2 ^ 63 ≤ k) :
      max IntType.i64.min (min IntType.i64.max k) = min (2 ^ 63 - 1) k := by
    rw [show IntType.i64.min = -2 ^ 63 from rfl, show IntType.i64.max = 2 ^ 63 - 1 from rfl]
    omega
  simp only [value_double]
  unfold wide
  dsimp only
  rw [Float64.ofInt_i64_min, Float64.ofInt_i64_max]
  constructor
  · intro h
    split at h
    · rename_i hguard
      obtain ⟨hfract, hlo, hhi⟩ := hguard
      obtain ⟨k, hk⟩ := (Float64.fract_eq_zero _).mp hfract
      rw [hk, Float64.le_finite, Int.cast_le] at hlo hhi
      rw [hk, Float64.toInt_intCast, hclamp k hlo] at h
      cases h
      exact ⟨k, hk, hlo, hhi, rfl⟩
    · cases h
  · rintro ⟨k, hk, hlo, hhi, rfl⟩
    have hguard := (Float64.fract_eq_zero (.finite k)).mpr ⟨k, rfl⟩
    rw [hk, if_pos ⟨hguard, (Float64.le_finite _ _).mpr (Int.cast_le.mpr hlo),
      (Float64.le_finite _ _).mpr (Int.cast_le.mpr hhi)⟩, Float64.toInt_intCast, hclamp k hlo]

theorem wide_integer {v : Scalar} (hv : v.IsInteger) :
    ∃ n : Int, v.wide = .ok n ∧ v.value = some (n : ℚ) ∧ n < 2 ^ 63 := by
  cases v with
  | int32 i =>
    have := i.toInt_lt
    exact ⟨i.toInt, rfl, rfl, by omega⟩
  | int64 i => exact ⟨i.toInt, rfl, rfl, i.toInt_lt⟩
  | bool b =>
    refine ⟨b.toInt, rfl, rfl, ?_⟩
    rcases b with _ | _
    · decide
    · decide
  | _ => cases hv

theorem numeric_cases (v : Scalar) :
    v.IsInteger ∨ (∃ bits, v = .double bits) ∨ v.wide = .err .notConvertible ∧ v.value = none := by
  cases v with
  | double bits => exact .inr (.inl ⟨bits, rfl⟩)
  | int32 i => exact .inl rfl
  | int64 i => exact .inl rfl
  | bool b => exact .inl rfl
  | _ => exact .inr (.inr ⟨rfl, rfl⟩)

theorem wide_cases {v : Scalar} {n : Int} (h : v.wide = .ok n) :
    v.value = some (n : ℚ) ∨ v.value = some (2 ^ 63) ∧ n = 2 ^ 63 - 1 := by
  rcases v.numeric_cases with hv | ⟨bits, rfl⟩ | ⟨herr, -⟩
  · obtain ⟨m, hwide, hvalue, -⟩ := wide_integer hv
    rw [hwide] at h
    cases h
    exact .inl hvalue
  · obtain ⟨k, hvalue, hlo, hhi, rfl⟩ := wide_double.mp h
    rcases hhi.lt_or_eq with hlt | rfl
    · rw [min_eq_right (by omega)]
      exact .inl hvalue
    · exact .inr ⟨by rw [hvalue]; norm_num, rfl⟩
  · rw [herr] at h
    cases h

theorem wide_of_value_eq {v : Scalar} (h : v.value = some (2 ^ 63)) : v.wide = .ok (2 ^ 63 - 1) := by
  rcases v.numeric_cases with hv | ⟨bits, rfl⟩ | ⟨-, hnone⟩
  · obtain ⟨n, -, hvalue, hlt⟩ := wide_integer hv
    rw [h, Option.some.injEq] at hvalue
    have : (2 : Int) ^ 63 = n := by exact_mod_cast hvalue
    omega
  · exact wide_double.mpr ⟨2 ^ 63, by rw [h]; norm_num, by norm_num, le_rfl, by norm_num⟩
  · rw [hnone] at h
    cases h

/-! ## Exact or refused -/

theorem tryFromNumeric_eq_ok (target : NumericTarget) (v : Scalar) (n : Int) :
    v.tryFromNumeric target = .ok n ↔ v.wide = .ok n ∧ target.type.Holds n := by
  unfold tryFromNumeric
  rw [bind_eq_ok]
  constructor
  · rintro ⟨w, hwide, h⟩
    split at h
    · rename_i hholds
      cases h
      exact ⟨hwide, hholds⟩
    · cases h
  · rintro ⟨hwide, hholds⟩
    exact ⟨n, hwide, if_pos hholds⟩

theorem holds_i64_max (target : NumericTarget) :
    target.type.Holds (2 ^ 63 - 1) ↔ target = .i64 ∨ target = .i128 ∨ target = .u64 := by
  cases target <;> decide

/-- A conversion gives the value of the scalar or refuses it, and takes each integer that fits,
except that the double `2 ^ 63` becomes the largest `i64` where the target holds that. -/
theorem tryFromNumeric_exact_iff (target : NumericTarget) (v : Scalar) :
    (∀ n, v.tryFromNumeric target = .ok n → v.value = some (n : ℚ)) ∧
        (v.IsInteger → ∀ n : Int, v.value = some (n : ℚ) → target.type.Holds n →
          v.tryFromNumeric target = .ok n) ↔
      ¬ (v.value = some (2 ^ 63) ∧ (target = .i64 ∨ target = .i128 ∨ target = .u64)) := by
  constructor
  · rintro ⟨hexact, -⟩ ⟨hvalue, htarget⟩
    have hok := (tryFromNumeric_eq_ok target v (2 ^ 63 - 1)).mpr
      ⟨wide_of_value_eq hvalue, (holds_i64_max target).mpr htarget⟩
    have := hexact _ hok
    rw [hvalue, Option.some.injEq] at this
    norm_num at this
  · intro hne
    refine ⟨fun n hok => ?_, fun hv n hvalue hholds => ?_⟩
    · obtain ⟨hwide, hholds⟩ := (tryFromNumeric_eq_ok target v n).mp hok
      rcases wide_cases hwide with hvalue | ⟨hvalue, rfl⟩
      · exact hvalue
      · exact absurd ⟨hvalue, (holds_i64_max target).mp hholds⟩ hne
    · obtain ⟨m, hwide, hm, -⟩ := wide_integer hv
      rw [hm, Option.some.injEq, Int.cast_inj] at hvalue
      subst hvalue
      exact (tryFromNumeric_eq_ok target v m).mpr ⟨hwide, hholds⟩

/-- `2 ^ 63` as a double passes for the largest `i64`. -/
theorem tryFromNumeric_two_pow_63 :
    (double 0x43E0000000000000).tryFromNumeric .i64 = .ok 9223372036854775807 ∧
      (double 0x43E0000000000000).value = some 9223372036854775808 := by
  decide +kernel

end Scalar

end MongoWire
