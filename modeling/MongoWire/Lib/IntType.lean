import MongoWire.Lib.Outcome

/-!
# Machine integers

A machine integer is an `Int` inside the range of its type. Arithmetic is exact
and then checked, a cast keeps the low bits, and a conversion is checked.
-/

namespace MongoWire.Lib

structure IntType where
  signed : Bool
  bits : Nat
  deriving DecidableEq

namespace IntType

variable {ε : Type}

def i8 : IntType := ⟨true, 8⟩
def i16 : IntType := ⟨true, 16⟩
def i32 : IntType := ⟨true, 32⟩
def i64 : IntType := ⟨true, 64⟩
def i128 : IntType := ⟨true, 128⟩
def u8 : IntType := ⟨false, 8⟩
def u16 : IntType := ⟨false, 16⟩
def u32 : IntType := ⟨false, 32⟩
def u64 : IntType := ⟨false, 64⟩
def u128 : IntType := ⟨false, 128⟩

def min (t : IntType) : Int := if t.signed then -2 ^ (t.bits - 1) else 0

def max (t : IntType) : Int := if t.signed then 2 ^ (t.bits - 1) - 1 else 2 ^ t.bits - 1

def Holds (t : IntType) (n : Int) : Prop := t.min ≤ n ∧ n ≤ t.max

instance (t : IntType) (n : Int) : Decidable (t.Holds n) := inferInstanceAs (Decidable (_ ∧ _))

/-- The result of an arithmetic operation, which panics on overflow. -/
def checked (t : IntType) (n : Int) : Outcome ε Int := if t.Holds n then .ok n else .panic

def add (t : IntType) (a b : Int) : Outcome ε Int := t.checked (a + b)
def sub (t : IntType) (a b : Int) : Outcome ε Int := t.checked (a - b)
def mul (t : IntType) (a b : Int) : Outcome ε Int := t.checked (a * b)

/-- `as`, from another integer type. -/
def cast (t : IntType) (n : Int) : Int :=
  if t.signed then n.bmod (2 ^ t.bits) else n % 2 ^ t.bits

/-! ## Ranges -/

theorem holds_i64 (n : Int) :
    i64.Holds n ↔ -9223372036854775808 ≤ n ∧ n ≤ 9223372036854775807 := by
  unfold Holds
  rw [show i64.min = -9223372036854775808 from rfl, show i64.max = 9223372036854775807 from rfl]

theorem holds_toInt (n : Int64) : i64.Holds n.toInt := by
  have hle := n.le_toInt
  have hlt := n.toInt_lt
  rw [holds_i64]
  omega

theorem cast_i64 (n : Int) :
    i64.cast n = (n + 9223372036854775808) % 18446744073709551616 - 9223372036854775808 := by
  show Int.bmod n 18446744073709551616 = _
  rw [Int.bmod_def]
  split <;> omega

theorem checked_of_holds {t : IntType} {n : Int} (h : t.Holds n) :
    (t.checked n : Outcome ε Int) = .ok n := by
  unfold checked
  rw [if_pos h]

theorem add_of_holds {t : IntType} {a b : Int} (h : t.Holds (a + b)) :
    (t.add a b : Outcome ε Int) = .ok (a + b) := checked_of_holds h

theorem sub_of_holds {t : IntType} {a b : Int} (h : t.Holds (a - b)) :
    (t.sub a b : Outcome ε Int) = .ok (a - b) := checked_of_holds h

theorem mul_of_holds {t : IntType} {a b : Int} (h : t.Holds (a * b)) :
    (t.mul a b : Outcome ε Int) = .ok (a * b) := checked_of_holds h

end IntType

end MongoWire.Lib
