import MongoWire.Lib.IntType

/-!
# Double-precision numbers

A binary64 datum is the exact rational that its bits denote, an infinity or a
NaN. The operations here never round, but for the cast from an integer.
-/

namespace MongoWire.Lib

inductive Float64 where
  | nan
  | infinity (negative : Bool)
  | finite (value : ℚ)
  deriving DecidableEq

namespace Float64

/-- The datum of a bit pattern: a sign bit, 11 bits of exponent and 52 of fraction. -/
def ofBits (bits : UInt64) : Float64 :=
  let negative := 2 ^ 63 ≤ bits.toNat
  let exponent : Nat := bits.toNat / 2 ^ 52 % 2 ^ 11
  let fraction : Nat := bits.toNat % 2 ^ 52
  let sign : ℚ := if negative then -1 else 1
  if exponent = 2047 then if fraction = 0 then infinity negative else nan
  else if exponent = 0 then finite (sign * fraction / 2 ^ 1074)
  else finite (sign * (2 ^ 52 + fraction) * 2 ^ exponent / 2 ^ 1075)

/-- The nearest number with 53 significant bits, a tie to the even one. -/
def roundSignificand (n : Nat) : Nat :=
  let unit := 2 ^ (n.log2 + 1 - 53)
  let q := n / unit
  let r := n % unit
  (if unit < 2 * r ∨ 2 * r = unit ∧ q % 2 = 1 then q + 1 else q) * unit

/-- `n as f64`, for an integer that cannot overflow to infinity. -/
def ofInt (n : Int) : Float64 := finite (n.sign * roundSignificand n.natAbs)

def truncate (q : ℚ) : Int := if 0 ≤ q then ⌊q⌋ else ⌈q⌉

/-- `f.fract()`. The difference of a datum and its integer part is a datum. -/
def fract : Float64 → Float64
  | nan => nan
  | infinity _ => nan
  | finite q => finite (q - truncate q)

/-- `a == b`. -/
def eq : Float64 → Float64 → Bool
  | nan, _ | _, nan => false
  | a, b => a = b

/-- `a <= b`. -/
def le : Float64 → Float64 → Bool
  | nan, _ | _, nan => false
  | infinity true, _ | _, infinity false => true
  | infinity false, _ | _, infinity true => false
  | finite a, finite b => a ≤ b

/-- `f as t`, for an integer type `t`: the integer part, clamped to the range of the type. -/
def toInt (t : IntType) : Float64 → Int
  | nan => 0
  | infinity negative => if negative then t.min else t.max
  | finite q => max t.min (min t.max (truncate q))

/-! ## Integers -/

theorem truncate_intCast (n : Int) : truncate (n : ℚ) = n := by
  unfold truncate
  split
  · exact Int.floor_intCast n
  · exact Int.ceil_intCast n

theorem fract_eq_zero (f : Float64) :
    f.fract.eq (finite 0) = true ↔ ∃ n : Int, f = finite n := by
  constructor
  · intro h
    rcases f with _ | _ | q
    · simp [fract, eq] at h
    · simp [fract, eq] at h
    · simp only [fract, eq, decide_eq_true_eq, finite.injEq] at h
      exact ⟨truncate q, congrArg finite (sub_eq_zero.mp h)⟩
  · rintro ⟨n, rfl⟩
    simp [fract, eq, truncate_intCast]

theorem le_finite (a b : ℚ) : (finite a).le (finite b) = true ↔ a ≤ b := by
  simp [le]

theorem toInt_intCast (t : IntType) (n : Int) :
    (finite n).toInt t = max t.min (min t.max n) := by
  simp only [toInt, truncate_intCast]

theorem ofInt_i64_min : ofInt IntType.i64.min = finite ((-2 ^ 63 : Int) : ℚ) := by decide +kernel

theorem ofInt_i64_max : ofInt IntType.i64.max = finite ((2 ^ 63 : Int) : ℚ) := by decide +kernel

example : ofBits 0x3FF0000000000000 = finite 1 ∧ ofBits 0xC004000000000000 = finite (-5 / 2) ∧
    ofBits 0x7FF0000000000000 = infinity false := by decide +kernel

end Float64

end MongoWire.Lib
