import MongoWire.Bson.Value
import MongoWire.Common.Convert
import MongoWire.Common.SystemTime

/-!
# BSON values and native types

`wirebson/src/convert.rs`: a value is converted through its scalar, and what has
none is refused.
-/

open MongoWire.Lib MongoWire.Lib.Outcome

namespace MongoWire

variable {ε : Type}

namespace Bson

/-- `TryFrom<&Bson>`, for a type that a scalar converts to. -/
def tryScalar {α : Type} (convert : Scalar → Outcome ScalarError α) (v : Bson) :
    Outcome BsonError α :=
  match v.asScalar with
  | some s => mapErr .scalar (convert s)
  | none => .err (.scalar .notConvertible)

def tryFromNumeric (target : NumericTarget) : Bson → Outcome BsonError Int :=
  tryScalar (Scalar.tryFromNumeric target)

def trySystemTime : Bson → Outcome BsonError SystemTime := tryScalar Scalar.trySystemTime

/-- `From<SystemTime> for Bson`. -/
def ofSystemTime (t : SystemTime) : Outcome ε Bson := do
  return .dateTime (← t.toMillis)

theorem tryScalar_eq_ok {α : Type} (convert : Scalar → Outcome ScalarError α) (v : Bson) (a : α) :
    v.tryScalar convert = .ok a ↔ ∃ s, v = .ofScalar s ∧ convert s = .ok a := by
  unfold tryScalar
  simp only [← asScalar_eq_some]
  split
  · rename_i s hs
    simp [hs]
  · rename_i hs
    simp [hs]

theorem tryFromNumeric_eq_ok (target : NumericTarget) (v : Bson) (n : Int) :
    v.tryFromNumeric target = .ok n ↔
      ∃ s, v = .ofScalar s ∧ s.wide = .ok n ∧ target.type.Holds n := by
  unfold tryFromNumeric
  simp only [tryScalar_eq_ok, Scalar.tryFromNumeric_eq_ok]

/-- The number that a value stands for. -/
def value (v : Bson) : Option ℚ := v.asScalar.bind Scalar.value

theorem value_ofScalar (s : Scalar) : (Bson.ofScalar s).value = s.value := by
  rw [value, (asScalar_eq_some _ _).mpr rfl, Option.bind_some]

theorem tryFromNumeric_value_iff (target : NumericTarget) (v : Bson) :
    (∀ n, v.tryFromNumeric target = .ok n → v.value = some (n : ℚ)) ↔
      ¬ (v.value = some (2 ^ 63) ∧ (target = .i64 ∨ target = .i128 ∨ target = .u64)) := by
  constructor
  · rintro hexact ⟨hvalue, htarget⟩
    obtain ⟨s, hs, hsvalue⟩ := Option.bind_eq_some_iff.mp hvalue
    have hok := (tryFromNumeric_eq_ok target v (2 ^ 63 - 1)).mpr
      ⟨s, (asScalar_eq_some _ _).mp hs, Scalar.wide_of_value_eq hsvalue,
        (Scalar.holds_i64_max target).mpr htarget⟩
    have := hexact _ hok
    rw [hvalue, Option.some.injEq] at this
    norm_num at this
  · intro hne n hok
    obtain ⟨s, rfl, hwide, hholds⟩ := (tryFromNumeric_eq_ok target v n).mp hok
    rw [value_ofScalar] at hne ⊢
    rcases Scalar.wide_cases hwide with hvalue | ⟨hvalue, rfl⟩
    · exact hvalue
    · exact absurd ⟨hvalue, (Scalar.holds_i64_max target).mp hholds⟩ hne

theorem trySystemTime_dateTime (ms : Int64) :
    (Bson.dateTime ms).trySystemTime = .ok ⟨ms.toInt * 1000000⟩ :=
  (tryScalar_eq_ok _ _ _).mpr ⟨.dateTime ms, rfl, Scalar.trySystemTime_dateTime ms⟩

end Bson

/-! ## Datetimes -/

theorem Scalar.ofSystemTime_eq_ok (t : SystemTime) (ms : Int64) :
    (Scalar.ofSystemTime t : Outcome ε Scalar) = .ok (.dateTime ms) ↔
      (t.toMillis : Outcome ε Int64) = .ok ms := by
  unfold ofSystemTime
  simp [bind_eq_ok]

theorem Bson.ofSystemTime_eq_ok (t : SystemTime) (ms : Int64) :
    (Bson.ofSystemTime t : Outcome ε Bson) = .ok (.dateTime ms) ↔
      (t.toMillis : Outcome ε Int64) = .ok ms := by
  unfold ofSystemTime
  simp [bind_eq_ok]

/-- A datetime survives the way to the clock and back unless it is the smallest `i64`, and times
in order become datetimes in order unless the earlier one is there. -/
theorem dateTime_systemTime_iff :
    (∀ ms : Int64,
      ((Scalar.dateTime ms).trySystemTime >>= Scalar.ofSystemTime = .ok (.dateTime ms) ↔
        ms ≠ Int64.minValue) ∧
      ((Bson.dateTime ms).trySystemTime >>= Bson.ofSystemTime = .ok (.dateTime ms) ↔
        ms ≠ Int64.minValue)) ∧
    ∀ t t' : SystemTime, IntType.i64.Holds t.wholeMillis → IntType.i64.Holds t'.wholeMillis →
      t.nanos ≤ t'.nanos →
      ((∃ a b, (Scalar.ofSystemTime t : Outcome ε Scalar) = .ok (.dateTime a) ∧
          (Scalar.ofSystemTime t' : Outcome ε Scalar) = .ok (.dateTime b) ∧ a ≤ b) ↔
        -2 ^ 63 * 1000000 < t.nanos) ∧
      ((∃ a b, (Bson.ofSystemTime t : Outcome ε Bson) = .ok (.dateTime a) ∧
          (Bson.ofSystemTime t' : Outcome ε Bson) = .ok (.dateTime b) ∧ a ≤ b) ↔
        -2 ^ 63 * 1000000 < t.nanos) := by
  refine ⟨fun ms => ⟨?_, ?_⟩, fun t t' h h' hle => ⟨?_, ?_⟩⟩
  · rw [Scalar.trySystemTime_dateTime, ok_bind, Scalar.ofSystemTime_eq_ok,
      SystemTime.toMillis_ofMillis]
    simp
  · rw [Bson.trySystemTime_dateTime, ok_bind, Bson.ofSystemTime_eq_ok,
      SystemTime.toMillis_ofMillis]
    simp
  · simp only [Scalar.ofSystemTime_eq_ok]
    exact SystemTime.toMillis_mono h h' hle
  · simp only [Bson.ofSystemTime_eq_ok]
    exact SystemTime.toMillis_mono h h' hle

/-- The way back negates a cast that has already wrapped. -/
theorem dateTime_systemTime_min :
    (Scalar.dateTime Int64.minValue).trySystemTime = .ok ⟨-9223372036854775808000000⟩ ∧
      (Scalar.dateTime Int64.minValue).trySystemTime >>= Scalar.ofSystemTime = .panic := by
  decide

end MongoWire
