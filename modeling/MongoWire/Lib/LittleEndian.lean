import Mathlib

/-!
# Little-endian integers

`leNat` and `leBytes` are inverse to each other on `w` bytes. The fixed-width
integers of Rust are read and written through them.
-/

namespace MongoWire.Lib

abbrev Bytes := List UInt8

/-- The number that the bytes spell, lowest byte first. -/
def leNat : Bytes → Nat
  | [] => 0
  | b :: bs => b.toNat + 256 * leNat bs

/-- The `w` low bytes of `n`, lowest byte first. -/
def leBytes : Nat → Nat → Bytes
  | 0, _ => []
  | w + 1, n => UInt8.ofNat n :: leBytes w (n / 256)

@[simp] theorem length_leBytes (w n : Nat) : (leBytes w n).length = w := by
  induction w generalizing n with
  | zero => rfl
  | succ w ih => simp [leBytes, ih]

theorem leNat_lt (b : Bytes) : leNat b < 256 ^ b.length := by
  induction b with
  | nil => simp [leNat]
  | cons x b ih =>
    have := x.toNat_lt
    simp only [leNat, List.length_cons, Nat.pow_succ]
    omega

theorem leNat_leBytes (w n : Nat) (h : n < 256 ^ w) : leNat (leBytes w n) = n := by
  induction w generalizing n with
  | zero => simp [leBytes, leNat] at *; omega
  | succ w ih =>
    rw [Nat.pow_succ] at h
    simp only [leBytes, leNat, ih (n / 256) (by omega), UInt8.toNat_ofNat']
    omega

theorem leBytes_leNat (b : Bytes) : leBytes b.length (leNat b) = b := by
  induction b with
  | nil => rfl
  | cons x b ih =>
    have hx := x.toNat_lt
    have hdiv : (x.toNat + 256 * leNat b) / 256 = leNat b := by omega
    have hmod : UInt8.ofNat (x.toNat + 256 * leNat b) = x := by
      apply UInt8.toNat_inj.mp
      simp only [UInt8.toNat_ofNat']
      omega
    simp only [List.length_cons, leBytes, leNat, hdiv, hmod, ih]

/-! ## `u32`, `i32`, `u64` and `i64` -/

def u32ToLe (v : UInt32) : Bytes := leBytes 4 v.toNat
def u32FromLe (b : Bytes) : UInt32 := UInt32.ofNat (leNat b)

def i32ToLe (v : Int32) : Bytes := u32ToLe v.toUInt32
def i32FromLe (b : Bytes) : Int32 := (u32FromLe b).toInt32

def u64ToLe (v : UInt64) : Bytes := leBytes 8 v.toNat
def u64FromLe (b : Bytes) : UInt64 := UInt64.ofNat (leNat b)

def i64ToLe (v : Int64) : Bytes := u64ToLe v.toUInt64
def i64FromLe (b : Bytes) : Int64 := (u64FromLe b).toInt64

@[simp] theorem length_u32ToLe (v : UInt32) : (u32ToLe v).length = 4 := length_leBytes 4 _
@[simp] theorem length_i32ToLe (v : Int32) : (i32ToLe v).length = 4 := length_leBytes 4 _
@[simp] theorem length_u64ToLe (v : UInt64) : (u64ToLe v).length = 8 := length_leBytes 8 _
@[simp] theorem length_i64ToLe (v : Int64) : (i64ToLe v).length = 8 := length_leBytes 8 _

theorem toNat_u32FromLe (b : Bytes) (h : b.length = 4) : (u32FromLe b).toNat = leNat b := by
  have := leNat_lt b
  rw [h] at this
  rw [u32FromLe, UInt32.toNat_ofNat', Nat.mod_eq_of_lt (by omega)]

@[simp] theorem u32FromLe_u32ToLe (v : UInt32) : u32FromLe (u32ToLe v) = v := by
  have := v.toNat_lt
  rw [u32FromLe, u32ToLe, leNat_leBytes _ _ (by omega), UInt32.ofNat_toNat]

theorem u32ToLe_inj (v w : UInt32) : u32ToLe v = u32ToLe w ↔ v = w := by
  refine ⟨fun h => ?_, congrArg u32ToLe⟩
  rw [← u32FromLe_u32ToLe v, h, u32FromLe_u32ToLe]

theorem u32ToLe_u32FromLe (b : Bytes) (h : b.length = 4) : u32ToLe (u32FromLe b) = b := by
  rw [u32ToLe, toNat_u32FromLe b h, ← h, leBytes_leNat]

@[simp] theorem i32FromLe_i32ToLe (v : Int32) : i32FromLe (i32ToLe v) = v := by
  rw [i32FromLe, i32ToLe, u32FromLe_u32ToLe, Int32.toInt32_toUInt32]

theorem i32ToLe_inj (v w : Int32) : i32ToLe v = i32ToLe w ↔ v = w := by
  constructor
  · intro h; rw [← i32FromLe_i32ToLe v, h, i32FromLe_i32ToLe]
  · rintro rfl; rfl

theorem i32ToLe_append_inj (v w : Int32) (s t : Bytes) :
    i32ToLe v ++ s = i32ToLe w ++ t ↔ v = w ∧ s = t := by
  constructor
  · intro h
    obtain ⟨hv, hst⟩ := List.append_inj h (by simp)
    exact ⟨(i32ToLe_inj v w).mp hv, hst⟩
  · rintro ⟨rfl, rfl⟩; rfl

theorem i32ToLe_i32FromLe (b : Bytes) (h : b.length = 4) : i32ToLe (i32FromLe b) = b := by
  rw [i32FromLe, i32ToLe, UInt32.toUInt32_toInt32, u32ToLe_u32FromLe b h]

@[simp] theorem u64FromLe_u64ToLe (v : UInt64) : u64FromLe (u64ToLe v) = v := by
  have := v.toNat_lt
  rw [u64FromLe, u64ToLe, leNat_leBytes _ _ (by omega), UInt64.ofNat_toNat]

theorem u64ToLe_u64FromLe (b : Bytes) (h : b.length = 8) : u64ToLe (u64FromLe b) = b := by
  have := leNat_lt b
  rw [h] at this
  rw [u64ToLe, u64FromLe, UInt64.toNat_ofNat', Nat.mod_eq_of_lt (by omega), ← h, leBytes_leNat]

@[simp] theorem i64FromLe_i64ToLe (v : Int64) : i64FromLe (i64ToLe v) = v := by
  rw [i64FromLe, i64ToLe, u64FromLe_u64ToLe, Int64.toInt64_toUInt64]

theorem i64ToLe_i64FromLe (b : Bytes) (h : b.length = 8) : i64ToLe (i64FromLe b) = b := by
  rw [i64FromLe, i64ToLe, UInt64.toUInt64_toInt64, u64ToLe_u64FromLe b h]

/-! ## Lengths: `i32` against `usize` -/

/-- `i32::try_from` on a `usize`. -/
def i32TryFrom (n : Nat) : Option Int32 := if n < 2 ^ 31 then some (Int32.ofNat n) else none

theorem i32TryFrom_eq_some (n : Nat) (v : Int32) :
    i32TryFrom n = some v ↔ n < 2 ^ 31 ∧ Int32.ofNat n = v := by
  unfold i32TryFrom
  split <;> rename_i h
  · simp only [Option.some.injEq, h, true_and]
  · simp only [reduceCtorEq, h, false_and]

theorem toInt_i32FromLe (b : Bytes) (h : b.length = 4) :
    (i32FromLe b).toInt = if leNat b < 2 ^ 31 then (leNat b : Int) else leNat b - 2 ^ 32 := by
  have := leNat_lt b
  rw [h] at this
  rw [i32FromLe, ← Int32.toInt_toBitVec, UInt32.toBitVec_toInt32, BitVec.toInt_eq_toNat_cond,
    UInt32.toNat_toBitVec, toNat_u32FromLe b h]
  split <;> split <;> omega

theorem i32ToLe_ofNat (n : Nat) (h : n < 2 ^ 31) : i32ToLe (Int32.ofNat n) = leBytes 4 n := by
  rw [i32ToLe, u32ToLe]
  congr 1
  have : (Int32.ofNat n).toUInt32 = UInt32.ofNat n := rfl
  rw [this, UInt32.toNat_ofNat', Nat.mod_eq_of_lt (by omega)]

theorem toInt_ofNat (n : Nat) (h : n < 2 ^ 31) : (Int32.ofNat n).toInt = n := by
  rw [← i32FromLe_i32ToLe (Int32.ofNat n), toInt_i32FromLe _ (by simp), i32ToLe_ofNat n h,
    leNat_leBytes _ _ (by omega), if_pos h]

theorem ofNat_of_toInt (v : Int32) (n : Nat) (h : v.toInt = n) : Int32.ofNat n = v := by
  have := v.toInt_lt
  rw [← Int32.toInt_inj, h, toInt_ofNat n (by omega)]

end MongoWire.Lib
