import MongoWire.Lib.Outcome
import MongoWire.Lib.Text

/-!
# Reading and writing protocol primitives

`mongo_common/src/io.rs`. A reader takes the cursor and returns the value with
the cursor after it. A writer takes the buffer and returns the longer one.
-/

open MongoWire.Lib MongoWire.Lib.Outcome

namespace MongoWire.Io

inductive ReadError where
  | shortInput (needed got : Nat)
  | invalid (reason : String)
  deriving DecidableEq

inductive WriteError where
  | nulInString
  deriving DecidableEq

variable {ε : Type}

/-! ## `ProtocolRead` -/

/-- A `[u8; n]`. -/
abbrev Block (n : Nat) := { b : Bytes // b.length = n }

/-- `try_into().expect(..)` from a slice to a `[u8; n]`. -/
def expectBlock (n : Nat) (b : Bytes) : Outcome ε (Block n) :=
  if h : b.length = n then .ok ⟨b, h⟩ else .panic

def readBytes (n : Nat) (r : Bytes) : Outcome ReadError (Bytes × Bytes) :=
  if r.length < n then .err (.shortInput n r.length) else .ok (r.take n, r.drop n)

def readU8 (r : Bytes) : Outcome ReadError (UInt8 × Bytes) := do
  let (b, r) ← readBytes 1 r
  return (← index b 0, r)

/-- `[b[0], b[1], ..]` as an array of `n` bytes, then `f` on it. -/
def readInt (n : Nat) {α : Type} (f : Bytes → α) (r : Bytes) : Outcome ReadError (α × Bytes) := do
  let (b, r) ← readBytes n r
  return (f (← slice b 0 n), r)

def readI32Le : Bytes → Outcome ReadError (Int32 × Bytes) := readInt 4 i32FromLe
def readU32Le : Bytes → Outcome ReadError (UInt32 × Bytes) := readInt 4 u32FromLe
def readI64Le : Bytes → Outcome ReadError (Int64 × Bytes) := readInt 8 i64FromLe

def peekI32Le (r : Bytes) : Outcome ReadError Int32 :=
  if r.length < 4 then .err (.shortInput 4 r.length) else do
    return i32FromLe (← slice r 0 4)

def readCstring (r : Bytes) : Outcome ReadError (Bytes × Bytes) :=
  match nulPos r with
  | some pos => do
    -- Skip the NUL.
    let tail ← slice (r.drop pos) 1 (r.drop pos).length
    return (r.take pos, tail)
  | none => .err (.shortInput (r.length + 1) r.length)

theorem expectBlock_eq_ok (n : Nat) (b : Bytes) (v : Block n) :
    (expectBlock n b : Outcome ε (Block n)) = .ok v ↔ b = v.val := by
  unfold expectBlock
  split
  · rename_i h
    rw [Outcome.ok.injEq]
    constructor
    · rintro rfl; rfl
    · intro hb; exact Subtype.ext hb
  · rename_i h
    simp only [reduceCtorEq, false_iff]
    rintro rfl
    exact h v.property

@[simp] theorem returns_expectBlock (n : Nat) (b : Bytes) :
    (expectBlock n b : Outcome ε (Block n)).Returns ↔ b.length = n := by
  unfold expectBlock
  split <;> simp [*]

@[simp] theorem failsWith_expectBlock (p : ε → Prop) (n : Nat) (b : Bytes) :
    (expectBlock n b : Outcome ε (Block n)).FailsWith p := by
  unfold expectBlock
  split <;> trivial

@[simp] theorem eraseErr_expectBlock (n : Nat) (b : Bytes) :
    (expectBlock n b : Outcome ε (Block n)).eraseErr = expectBlock n b := by
  unfold expectBlock
  split <;> rfl

theorem readBytes_eq_ok (n : Nat) (r b t : Bytes) :
    readBytes n r = .ok (b, t) ↔ r = b ++ t ∧ b.length = n := by
  unfold readBytes
  split <;> rename_i h
  · simp only [reduceCtorEq, false_iff, not_and]
    rintro rfl hb
    simp at h
    omega
  · simp only [ok.injEq, Prod.mk.injEq]
    constructor
    · rintro ⟨rfl, rfl⟩
      exact ⟨(List.take_append_drop n r).symm, by simp; omega⟩
    · rintro ⟨rfl, rfl⟩
      simp

@[simp] theorem returns_readBytes (n : Nat) (r : Bytes) : (readBytes n r).Returns := by
  unfold readBytes
  split <;> simp

theorem readU8_eq_ok (r : Bytes) (x : UInt8) (t : Bytes) : readU8 r = .ok (x, t) ↔ r = x :: t := by
  cases r with
  | nil => simp [readU8, readBytes]
  | cons y r => simp [readU8, readBytes, index]

@[simp] theorem returns_readU8 (r : Bytes) : (readU8 r).Returns := by
  cases r with
  | nil => simp [readU8, readBytes]
  | cons y r => simp [readU8, readBytes, index]

theorem readInt_eq_ok {α : Type} (n : Nat) (f : Bytes → α) (g : α → Bytes)
    (hlen : ∀ v, (g v).length = n) (hfg : ∀ v, f (g v) = v) (hgf : ∀ b, b.length = n → g (f b) = b)
    (r : Bytes) (v : α) (t : Bytes) : readInt n f r = .ok (v, t) ↔ r = g v ++ t := by
  simp only [readInt, bind_eq_ok, Prod.exists, readBytes_eq_ok, slice_eq_ok, pure_eq, ok.injEq,
    Prod.mk.injEq]
  constructor
  · rintro ⟨b, t', ⟨rfl, hb⟩, c, ⟨-, -, rfl⟩, rfl, rfl⟩
    simp [← hb, hgf b hb]
  · rintro rfl
    refine ⟨g v, t, ⟨rfl, hlen v⟩, g v, ⟨by omega, by simp [hlen v], ?_⟩, hfg v, rfl⟩
    simp [← hlen v]

theorem returns_readInt {α : Type} (n : Nat) (f : Bytes → α) (r : Bytes) : (readInt n f r).Returns := by
  simp only [readInt, returns_bind, returns_readBytes, true_and, Prod.forall, readBytes_eq_ok]
  rintro b t ⟨-, hb⟩
  simp [returns_slice, hb]

theorem readI32Le_eq_ok (r : Bytes) (v : Int32) (t : Bytes) :
    readI32Le r = .ok (v, t) ↔ r = i32ToLe v ++ t :=
  readInt_eq_ok 4 _ i32ToLe length_i32ToLe i32FromLe_i32ToLe i32ToLe_i32FromLe r v t

theorem readU32Le_eq_ok (r : Bytes) (v : UInt32) (t : Bytes) :
    readU32Le r = .ok (v, t) ↔ r = u32ToLe v ++ t :=
  readInt_eq_ok 4 _ u32ToLe length_u32ToLe u32FromLe_u32ToLe u32ToLe_u32FromLe r v t

theorem readI64Le_eq_ok (r : Bytes) (v : Int64) (t : Bytes) :
    readI64Le r = .ok (v, t) ↔ r = i64ToLe v ++ t :=
  readInt_eq_ok 8 _ i64ToLe length_i64ToLe i64FromLe_i64ToLe i64ToLe_i64FromLe r v t

@[simp] theorem returns_readI32Le (r : Bytes) : (readI32Le r).Returns := returns_readInt ..
@[simp] theorem returns_readU32Le (r : Bytes) : (readU32Le r).Returns := returns_readInt ..
@[simp] theorem returns_readI64Le (r : Bytes) : (readI64Le r).Returns := returns_readInt ..

theorem peekI32Le_eq_ok (r : Bytes) (v : Int32) :
    peekI32Le r = .ok v ↔ ∃ t, r = i32ToLe v ++ t := by
  unfold peekI32Le
  split <;> rename_i h
  · simp only [reduceCtorEq, false_iff, not_exists]
    rintro t rfl
    simp at h
  · simp only [bind_eq_ok, slice_eq_ok, pure_eq, ok.injEq]
    constructor
    · rintro ⟨c, ⟨-, -, rfl⟩, rfl⟩
      refine ⟨r.drop 4, ?_⟩
      rw [i32ToLe_i32FromLe _ (by simp; omega)]
      simp
    · rintro ⟨t, rfl⟩
      refine ⟨i32ToLe v, ⟨by omega, by simp, ?_⟩, by simp⟩
      rw [List.drop_zero, List.take_left' (by simp)]

@[simp] theorem returns_peekI32Le (r : Bytes) : (peekI32Le r).Returns := by
  unfold peekI32Le
  split <;> rename_i h
  · simp
  · simp only [returns_bind, returns_slice]
    exact ⟨by omega, by simp⟩

theorem readCstring_eq_ok (r s t : Bytes) :
    readCstring r = .ok (s, t) ↔ r = s ++ 0 :: t ∧ (0 : UInt8) ∉ s := by
  unfold readCstring
  constructor
  · intro h
    split at h
    · rename_i pos hpos
      obtain ⟨s', t', rfl, hs', rfl⟩ := (nulPos_eq_some _ _).mp hpos
      simp only [List.drop_left, bind_eq_ok, slice_eq_ok, pure_eq, ok.injEq, Prod.mk.injEq,
        List.take_left] at h
      obtain ⟨_, ⟨-, -, rfl⟩, rfl, rfl⟩ := h
      simp [hs']
    · cases h
  · rintro ⟨rfl, hs⟩
    simp [nulPos_append s t hs, slice]

@[simp] theorem returns_readCstring (r : Bytes) : (readCstring r).Returns := by
  unfold readCstring
  split
  · rename_i pos hpos
    obtain ⟨s, t, rfl, hs, rfl⟩ := (nulPos_eq_some _ _).mp hpos
    simp [returns_bind]
  · simp

/-! ## `ProtocolWrite` -/

def putI32Le (v : Int32) (out : Bytes) : Bytes := out ++ i32ToLe v
def putU32Le (v : UInt32) (out : Bytes) : Bytes := out ++ u32ToLe v
def putI64Le (v : Int64) (out : Bytes) : Bytes := out ++ i64ToLe v
def putU8 (v : UInt8) (out : Bytes) : Bytes := out ++ [v]
def putBytes (b out : Bytes) : Bytes := out ++ b

def putCstring (s : String) (out : Bytes) : Outcome WriteError Bytes :=
  if (utf8 s).contains 0 then .err .nulInString else .ok (putU8 0 (putBytes (utf8 s) out))

def placeholderI32 (out : Bytes) : Nat × Bytes := (out.length, putBytes [0, 0, 0, 0] out)

def putU8At (pos : Nat) (v : UInt8) (out : Bytes) : Outcome ε Bytes :=
  if pos < out.length then .ok (out.set pos v) else .panic

def putI32LeAt (pos : Nat) (v : Int32) (out : Bytes) : Outcome ε Bytes := do
  let b := i32ToLe v
  let out ← putU8At pos (← index b 0) out
  let out ← putU8At (pos + 1) (← index b 1) out
  let out ← putU8At (pos + 2) (← index b 2) out
  putU8At (pos + 3) (← index b 3) out

theorem putCstring_eq_ok (s : String) (out out' : Bytes) :
    putCstring s out = .ok out' ↔ (0 : UInt8) ∉ utf8 s ∧ out' = out ++ utf8 s ++ [0] := by
  unfold putCstring
  split <;> rename_i h
  · simp only [List.contains_iff_mem] at h
    simp [h]
  · simp only [List.contains_iff_mem] at h
    simp [h, putU8, putBytes, eq_comm]

theorem putI32LeAt_placeholder (out rest : Bytes) (v : Int32) :
    (putI32LeAt out.length v (out ++ [0, 0, 0, 0] ++ rest) : Outcome ε Bytes) =
      .ok (out ++ i32ToLe v ++ rest) := by
  have hlen := length_i32ToLe v
  rcases h : i32ToLe v with _ | ⟨b0, _ | ⟨b1, _ | ⟨b2, _ | ⟨b3, _ | ⟨b4, l⟩⟩⟩⟩⟩
  all_goals simp [h] at hlen
  simp [putI32LeAt, putU8At, index, h]

end MongoWire.Io
