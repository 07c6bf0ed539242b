import Mathlib

/-!
# What a call can do

A Rust call returns a value, returns a declared error, panics, or never ends.
`Outcome` keeps the four apart, so that "it never panics" is a statement about
the model and not an assumption of it.
-/

namespace MongoWire.Lib

inductive Outcome (ε α : Type) where
  | ok (a : α)
  | err (e : ε)
  | panic
  /-- The rounds given to a loop ran out. -/
  | hang
  deriving DecidableEq

namespace Outcome

variable {ε ε' α β σ : Type}

protected def bind : Outcome ε α → (α → Outcome ε β) → Outcome ε β
  | ok a, f => f a
  | err e, _ => err e
  | panic, _ => panic
  | hang, _ => hang

instance : Monad (Outcome ε) where
  pure := ok
  bind := Outcome.bind

instance : LawfulMonad (Outcome ε) := LawfulMonad.mk' _
  (fun x => by cases x <;> rfl)
  (fun _ _ => rfl)
  (fun x _ _ => by cases x <;> rfl)

/-- The `?` operator at a boundary: the error of the callee becomes one of the caller. -/
def mapErr (f : ε → ε') : Outcome ε α → Outcome ε' α
  | ok a => ok a
  | err e => err (f e)
  | panic => panic
  | hang => hang

/-- `ok_or`. -/
def ofOption (e : ε) : Option α → Outcome ε α
  | some a => ok a
  | none => err e

/-- `.ok()`. -/
def toOption : Outcome ε α → Outcome ε' (Option α)
  | ok a => ok (some a)
  | err _ => ok none
  | panic => panic
  | hang => hang

def isOk : Outcome ε α → Bool
  | ok _ => true
  | _ => false

/-- Every outcome but a panic or an endless loop. -/
def ofExcept : Except ε α → Outcome ε α
  | .ok a => ok a
  | .error e => err e

/-! ## Which value comes back -/

@[simp] theorem pure_eq (a : α) : (pure a : Outcome ε α) = ok a := rfl
@[simp] theorem ok_bind (a : α) (f : α → Outcome ε β) : (ok a >>= f) = f a := rfl
@[simp] theorem err_bind (e : ε) (f : α → Outcome ε β) : (err e >>= f) = err e := rfl
@[simp] theorem panic_bind (f : α → Outcome ε β) : ((panic : Outcome ε α) >>= f) = panic := rfl
@[simp] theorem hang_bind (f : α → Outcome ε β) : ((hang : Outcome ε α) >>= f) = hang := rfl

@[simp] theorem bind_ok (x : Outcome ε α) : (x >>= fun a => ok a) = x := by cases x <;> rfl

@[simp] theorem mapErr_ok (f : ε → ε') (a : α) : mapErr f (ok a) = ok a := rfl
@[simp] theorem mapErr_err (f : ε → ε') (e : ε) : (mapErr f (err e) : Outcome ε' α) = err (f e) := rfl
@[simp] theorem ofOption_some (e : ε) (a : α) : ofOption e (some a) = ok a := rfl
@[simp] theorem ofOption_none (e : ε) : (ofOption e none : Outcome ε α) = err e := rfl

theorem bind_eq_ok (x : Outcome ε α) (f : α → Outcome ε β) (b : β) :
    (x >>= f) = ok b ↔ ∃ a, x = ok a ∧ f a = ok b := by
  cases x <;> simp

@[simp] theorem mapErr_eq_ok (f : ε → ε') (x : Outcome ε α) (a : α) :
    mapErr f x = ok a ↔ x = ok a := by
  cases x <;> simp [mapErr]

@[simp] theorem ofOption_eq_ok (e : ε) (x : Option α) (a : α) :
    ofOption e x = ok a ↔ x = some a := by
  cases x <;> simp

theorem ite_err_eq_ok (c : Prop) [Decidable c] (e : ε) (x : Outcome ε α) (a : α) :
    (if c then err e else x) = ok a ↔ ¬ c ∧ x = ok a := by
  split <;> simp [*]

/-! ## Coming back at all -/

/-- The call came back, with a value or with a declared error. -/
def Returns : Outcome ε α → Prop
  | ok _ => True
  | err _ => True
  | panic => False
  | hang => False

@[simp] theorem returns_ok (a : α) : (ok a : Outcome ε α).Returns := trivial
@[simp] theorem returns_err (e : ε) : (err e : Outcome ε α).Returns := trivial
@[simp] theorem not_returns_panic : ¬ (panic : Outcome ε α).Returns := id
@[simp] theorem not_returns_hang : ¬ (hang : Outcome ε α).Returns := id

theorem Returns.exists_err {x : Outcome ε α} (h : x.Returns) (hno : ∀ a, x ≠ ok a) :
    ∃ e, x = err e := by
  rcases x with a | e | _ | _
  · exact absurd rfl (hno a)
  · exact ⟨e, rfl⟩
  all_goals exact absurd h id

theorem returns_bind (x : Outcome ε α) (f : α → Outcome ε β) :
    (x >>= f).Returns ↔ x.Returns ∧ ∀ a, x = ok a → (f a).Returns := by
  cases x <;> simp

theorem returns_ite_err (c : Prop) [Decidable c] (e : ε) (x : Outcome ε α) :
    (if c then err e else x).Returns ↔ (¬ c → x.Returns) := by
  split <;> simp [*]

@[simp] theorem returns_mapErr (f : ε → ε') (x : Outcome ε α) :
    (mapErr f x).Returns ↔ x.Returns := by
  cases x <;> simp [mapErr]

@[simp] theorem returns_ofOption (e : ε) (x : Option α) : (ofOption e x).Returns := by
  cases x <;> simp

@[simp] theorem returns_toOption (x : Outcome ε α) :
    (toOption x : Outcome ε' (Option α)).Returns ↔ x.Returns := by
  cases x <;> simp [toOption]

theorem toOption_eq_some (x : Outcome ε α) (a : α) :
    (toOption x : Outcome ε' (Option α)) = ok (some a) ↔ x = ok a := by
  cases x <;> simp [toOption]

theorem Returns.exists_toOption {x : Outcome ε α} (h : x.Returns) :
    ∃ o, (toOption x : Outcome ε' (Option α)) = ok o := by
  rcases x with a | e | _ | _
  · exact ⟨some a, rfl⟩
  · exact ⟨none, rfl⟩
  all_goals exact absurd h id

/-! ## Which error comes back -/

/-- If the call fails, the error is of the kind `p`. -/
def FailsWith (p : ε → Prop) : Outcome ε α → Prop
  | err e => p e
  | _ => True

section FailsWith

variable {p : ε → Prop}

@[simp] theorem failsWith_ok (a : α) : (ok a : Outcome ε α).FailsWith p := trivial
@[simp] theorem failsWith_err (e : ε) : (err e : Outcome ε α).FailsWith p ↔ p e := Iff.rfl

@[simp] theorem failsWith_true (x : Outcome ε α) : x.FailsWith fun _ => True := by
  cases x <;> trivial

theorem failsWith_bind (x : Outcome ε α) (f : α → Outcome ε β) :
    (x >>= f).FailsWith p ↔ x.FailsWith p ∧ ∀ a, x = ok a → (f a).FailsWith p := by
  cases x <;> simp [FailsWith]

theorem failsWith_ite (c : Prop) [Decidable c] (x y : Outcome ε α) :
    (if c then x else y).FailsWith p ↔ (c → x.FailsWith p) ∧ (¬ c → y.FailsWith p) := by
  split <;> simp [*]

@[simp] theorem failsWith_mapErr (f : ε' → ε) (x : Outcome ε' α) :
    (mapErr f x).FailsWith p ↔ x.FailsWith fun e => p (f e) := by
  cases x <;> rfl

@[simp] theorem failsWith_ofOption (e : ε) (x : Option α) :
    (ofOption e x).FailsWith p ↔ (x = none → p e) := by
  cases x <;> simp

theorem FailsWith.mono {q : ε → Prop} {x : Outcome ε α} (h : x.FailsWith p)
    (hpq : ∀ e, p e → q e) : x.FailsWith q := by
  cases x with
  | err e => exact hpq e h
  | _ => trivial

end FailsWith

/-! ## Slices, indices and unsigned subtraction -/

/-- `b[i..j]`. -/
def slice (b : List α) (i j : Nat) : Outcome ε (List α) :=
  if i ≤ j ∧ j ≤ b.length then ok ((b.drop i).take (j - i)) else panic

/-- `b[i]`. -/
def index (b : List α) (i : Nat) : Outcome ε α :=
  match b[i]? with
  | some a => ok a
  | none => panic

/-- `m - n` on unsigned numbers. -/
def usub (m n : Nat) : Outcome ε Nat :=
  if n ≤ m then ok (m - n) else panic

theorem slice_ok (b : List α) (i j : Nat) (hij : i ≤ j) (hj : j ≤ b.length) :
    (slice b i j : Outcome ε (List α)) = ok ((b.drop i).take (j - i)) := by
  rw [slice, if_pos ⟨hij, hj⟩]

theorem slice_to_end (b : List α) (i : Nat) (hi : i ≤ b.length) :
    (slice b i b.length : Outcome ε (List α)) = ok (b.drop i) := by
  rw [slice_ok b i _ hi (Nat.le_refl _), List.take_of_length_le (by simp)]

theorem slice_suffix {b r : List α} (hr : r <:+ b) (n : Nat) (hn : n ≤ r.length) :
    (slice b (b.length - r.length) (b.length - r.length + n) : Outcome ε (List α)) =
      ok (r.take n) := by
  obtain ⟨p, rfl⟩ := hr
  have hp : (p ++ r).length - r.length = p.length := by simp
  rw [hp, slice_ok _ _ _ (by omega) (by simp; omega), List.drop_left, Nat.add_sub_cancel_left]

theorem slice_suffix_to_end {b r : List α} (hr : r <:+ b) :
    (slice b (b.length - r.length) b.length : Outcome ε (List α)) = ok r := by
  have h : (slice b (b.length - r.length) (b.length - r.length + r.length) : Outcome ε (List α)) =
      ok (r.take r.length) := slice_suffix hr _ (Nat.le_refl _)
  rwa [Nat.sub_add_cancel hr.length_le, List.take_length] at h

theorem slice_eq_ok (b c : List α) (i j : Nat) :
    (slice b i j : Outcome ε (List α)) = ok c ↔
      i ≤ j ∧ j ≤ b.length ∧ c = (b.drop i).take (j - i) := by
  unfold slice
  split
  · simp [*, eq_comm]
  · rename_i h
    simp only [reduceCtorEq, false_iff]
    rintro ⟨h1, h2, -⟩
    exact h ⟨h1, h2⟩

@[simp] theorem returns_slice (b : List α) (i j : Nat) :
    (slice b i j : Outcome ε (List α)).Returns ↔ i ≤ j ∧ j ≤ b.length := by
  unfold slice
  split <;> simp [*]

@[simp] theorem failsWith_slice (p : ε → Prop) (b : List α) (i j : Nat) :
    (slice b i j : Outcome ε (List α)).FailsWith p := by
  unfold slice
  split <;> trivial

theorem index_ok (b : List α) (i : Nat) (h : i < b.length) :
    (index b i : Outcome ε α) = ok b[i] := by
  simp [index, List.getElem?_eq_getElem h]

theorem usub_ok (m n : Nat) (h : n ≤ m) : (usub m n : Outcome ε Nat) = ok (m - n) := by
  rw [usub, if_pos h]

theorem usub_eq_ok (m n k : Nat) : (usub m n : Outcome ε Nat) = ok k ↔ n ≤ m ∧ k = m - n := by
  unfold usub
  split <;> simp [*, eq_comm]

@[simp] theorem returns_usub (m n : Nat) : (usub m n : Outcome ε Nat).Returns ↔ n ≤ m := by
  unfold usub
  split <;> simp [*]

@[simp] theorem failsWith_usub (p : ε → Prop) (m n : Nat) :
    (usub m n : Outcome ε Nat).FailsWith p := by
  unfold usub
  split <;> trivial

theorem slice_append {b : List α} (t : List α) (i j : Nat) (h : j ≤ b.length) :
    (slice (b ++ t) i j : Outcome ε (List α)) = slice b i j := by
  unfold slice
  by_cases hij : i ≤ j
  · rw [if_pos ⟨hij, by simp; omega⟩, if_pos ⟨hij, h⟩, List.drop_append_of_le_length (by omega),
      List.take_append_of_le_length (by simp; omega)]
  · rw [if_neg (by omega), if_neg (by omega)]

/-- What is left between the offsets `i` and `j`. -/
def window (b : List α) (i j : Nat) : List α := (b.drop i).take (j - i)

theorem slice_window (b : List α) (i j : Nat) (hij : i ≤ j) (hj : j ≤ b.length) :
    (slice b i j : Outcome ε (List α)) = ok (window b i j) := slice_ok b i j hij hj

theorem length_window (b : List α) (i j : Nat) (hj : j ≤ b.length) :
    (window b i j).length = j - i := by
  simp [window]; omega

theorem drop_window (b : List α) (i j n : Nat) : (window b i j).drop n = window b (i + n) j := by
  rw [window, window, List.drop_take, List.drop_drop, Nat.sub_sub]

theorem take_window (b : List α) (i j n : Nat) (h : i + n ≤ j) :
    (window b i j).take n = window b i (i + n) := by
  rw [window, window, List.take_take, min_eq_left (by omega), Nat.add_sub_cancel_left]

theorem window_of_append {b s t : List α} {i j : Nat} (h : window b i j = s ++ t) :
    window b (i + s.length) j = t := by
  rw [← drop_window, h, List.drop_left]

theorem window_front {b s t : List α} {i j : Nat} (hj : j ≤ b.length) (hij : i ≤ j)
    (h : window b i j = s ++ t) : window b i (i + s.length) = s := by
  have hlen := length_window b i j hj
  rw [h, List.length_append] at hlen
  rw [← take_window b i j _ (by omega), h, List.take_left]

theorem window_append (b : List α) (i k j : Nat) (hik : i ≤ k) (hkj : k ≤ j) :
    window b i k ++ window b k j = window b i j := by
  obtain ⟨n, rfl⟩ : ∃ n, k = i + n := ⟨k - i, by omega⟩
  rw [← take_window b i j n hkj, ← drop_window, List.take_append_drop]

theorem getElem?_window (b : List α) (i j : Nat) (h : i < j) : b[i]? = (window b i j).head? := by
  rw [window, List.head?_take, if_neg (by omega), List.head?_drop]

/-! ## Failing alike -/

/-- The outcome without the reason of a failure. Two calls with the same one fail alike. -/
def eraseErr (x : Outcome ε α) : Outcome Unit α := mapErr (fun _ => ()) x

section EraseErr

@[simp] theorem eraseErr_ok (a : α) : (ok a : Outcome ε α).eraseErr = ok a := rfl
@[simp] theorem eraseErr_err (e : ε) : (err e : Outcome ε α).eraseErr = err () := rfl

@[simp] theorem eraseErr_mapErr (f : ε → ε') (x : Outcome ε α) :
    (mapErr f x).eraseErr = x.eraseErr := by
  cases x <;> rfl

@[simp] theorem eraseErr_bind (x : Outcome ε α) (f : α → Outcome ε β) :
    (x >>= f).eraseErr = x.eraseErr >>= fun a => (f a).eraseErr := by
  cases x <;> rfl

@[simp] theorem eraseErr_ite (c : Prop) [Decidable c] (x y : Outcome ε α) :
    (if c then x else y).eraseErr = if c then x.eraseErr else y.eraseErr := by
  split <;> rfl

@[simp] theorem eraseErr_ofOption (e : ε) (x : Option α) :
    (ofOption e x).eraseErr = ofOption () x := by
  cases x <;> rfl

@[simp] theorem eraseErr_usub (m n : Nat) : (usub m n : Outcome ε Nat).eraseErr = usub m n := by
  unfold usub
  split <;> rfl

theorem eraseErr_eq_ok (x : Outcome ε α) (a : α) : x.eraseErr = ok a ↔ x = ok a := mapErr_eq_ok _ x a

theorem returns_eraseErr (x : Outcome ε α) : x.eraseErr.Returns ↔ x.Returns := returns_mapErr _ x

end EraseErr

/-! ## Loops -/

/-- `while let Some(a) = next(&mut s)? { acc = body(acc, a)? }`, for at most `fuel` rounds. -/
def whileSome (next : σ → Outcome ε (Option (α × σ))) (body : β → α → Outcome ε β) :
    Nat → σ → β → Outcome ε β
  | 0, _, _ => hang
  | fuel + 1, s, acc => do
    match ← next s with
    | none => ok acc
    | some (a, s) => do
      let acc ← body acc a
      whileSome next body fuel s acc

/-- From `s`, the cursor hands out exactly `items` and then ends. -/
inductive Yields (next : σ → Outcome ε (Option (α × σ))) : σ → List α → Prop where
  | done {s : σ} : next s = ok none → Yields next s []
  | more {s s' : σ} {a : α} {items : List α} :
      next s = ok (some (a, s')) → Yields next s' items → Yields next s (a :: items)

variable {next : σ → Outcome ε (Option (α × σ))} {body : β → α → Outcome ε β}

theorem Yields.unique {s : σ} {items items' : List α} (h : Yields next s items)
    (h' : Yields next s items') : items = items' := by
  induction h generalizing items' with
  | done hnext =>
    cases h' with
    | done => rfl
    | more hnext' => rw [hnext] at hnext'; cases hnext'
  | more hnext _ ih =>
    cases h' with
    | done hnext' => rw [hnext] at hnext'; cases hnext'
    | more hnext' hrest' =>
      rw [hnext] at hnext'
      cases hnext'
      rw [ih hrest']

theorem whileSome_of_yields {s : σ} {items : List α} (h : Yields next s items) :
    ∀ (fuel : Nat) (acc : β), items.length < fuel →
      whileSome next body fuel s acc = items.foldlM body acc := by
  induction h with
  | done hnext =>
    intro fuel acc hfuel
    obtain ⟨n, rfl⟩ : ∃ n, fuel = n + 1 := ⟨fuel - 1, by simp at hfuel; omega⟩
    simp [whileSome, hnext]
  | more hnext _ ih =>
    intro fuel acc hfuel
    obtain ⟨n, rfl⟩ : ∃ n, fuel = n + 1 := ⟨fuel - 1, by simp at hfuel; omega⟩
    simp only [whileSome, hnext, ok_bind, List.foldlM_cons]
    congr 1
    funext acc
    exact ih n acc (by simpa using hfuel)

theorem yields_of_whileSome (fuel : Nat) :
    ∀ (s : σ) (acc out : β), whileSome next body fuel s acc = ok out →
      ∃ items, Yields next s items ∧ items.foldlM body acc = ok out := by
  induction fuel with
  | zero => intro s acc out h; simp [whileSome] at h
  | succ fuel ih =>
    intro s acc out h
    simp only [whileSome, bind_eq_ok] at h
    obtain ⟨o, hnext, h⟩ := h
    cases o with
    | none =>
      simp only [ok.injEq] at h
      exact ⟨[], .done hnext, by simp [h]⟩
    | some p =>
      obtain ⟨a, s'⟩ := p
      simp only [bind_eq_ok] at h
      obtain ⟨acc', hbody, h⟩ := h
      obtain ⟨items, hy, hfold⟩ := ih s' acc' out h
      exact ⟨a :: items, .more hnext hy, by simp [hbody, hfold]⟩

theorem returns_whileSome (inv : σ → Prop) (left : σ → Nat)
    (hnext : ∀ s, inv s → (next s).Returns)
    (hstep : ∀ s a s', inv s → next s = ok (some (a, s')) →
      inv s' ∧ left s' < left s ∧ ∀ acc, (body acc a).Returns) :
    ∀ (fuel : Nat) (s : σ) (acc : β), inv s → left s < fuel →
      (whileSome next body fuel s acc).Returns := by
  intro fuel
  induction fuel with
  | zero => intro s acc _ h; omega
  | succ fuel ih =>
    intro s acc hs hfuel
    simp only [whileSome, returns_bind]
    refine ⟨hnext s hs, ?_⟩
    intro o ho
    cases o with
    | none => simp
    | some p =>
      obtain ⟨a, s'⟩ := p
      obtain ⟨hs', hlt, hbody⟩ := hstep s a s' hs ho
      simp only [returns_bind]
      exact ⟨hbody acc, fun acc' _ => ih s' acc' hs' (by omega)⟩

theorem foldlM_push (f : α → Outcome ε β) (items : List α) :
    ∀ acc : List β, items.foldlM (fun acc a => do return acc ++ [← f a]) acc =
      (do return acc ++ (← items.mapM f)) := by
  induction items with
  | nil => simp
  | cons a items ih =>
    intro acc
    simp only [List.foldlM_cons, List.mapM_cons, bind_assoc, pure_bind, ih]
    simp

theorem mapM_eq_ok (f : α → Outcome ε β) (items : List α) (out : List β) :
    items.mapM f = ok out ↔ List.Forall₂ (fun a b => f a = ok b) items out := by
  induction items generalizing out with
  | nil => simp [eq_comm]
  | cons a items ih =>
    simp only [List.mapM_cons, bind_eq_ok, pure_eq, ok.injEq, List.forall₂_cons_left_iff, ih]
    constructor
    · rintro ⟨b, hb, bs, hbs, rfl⟩; exact ⟨b, bs, hb, hbs, rfl⟩
    · rintro ⟨b, bs, hb, hbs, rfl⟩; exact ⟨b, hb, bs, hbs, rfl⟩

theorem mapM_map_eq_ok (g : α → β) (items : List (Outcome ε α)) (out : List β) :
    (items.mapM fun item => do return g (← item)) = ok out ↔
      ∃ xs : List α, items = xs.map ok ∧ out = xs.map g := by
  rw [mapM_eq_ok]
  constructor
  · intro h
    induction h with
    | nil => exact ⟨[], rfl, rfl⟩
    | cons hitem _ ih =>
      obtain ⟨xs, rfl, rfl⟩ := ih
      simp only [bind_eq_ok, pure_eq, ok.injEq] at hitem
      obtain ⟨x, rfl, rfl⟩ := hitem
      exact ⟨x :: xs, rfl, rfl⟩
  · rintro ⟨xs, rfl, rfl⟩
    simp [List.forall₂_map_left_iff, List.forall₂_map_right_iff, List.forall₂_same]

theorem returns_mapM {f : α → Outcome ε β} {items : List α} (h : ∀ a ∈ items, (f a).Returns) :
    (items.mapM f).Returns := by
  induction items with
  | nil => simp
  | cons a items ih =>
    obtain ⟨ha, hitems⟩ := List.forall_mem_cons.mp h
    simp [List.mapM_cons, returns_bind, ha, ih hitems]

theorem returns_foldlM {f : β → α → Outcome ε β} (h : ∀ b a, (f b a).Returns) (items : List α)
    (b : β) : (items.foldlM f b).Returns := by
  induction items generalizing b with
  | nil => simp
  | cons a items ih =>
    rw [List.foldlM_cons, returns_bind]
    exact ⟨h b a, fun b' _ => ih b'⟩

end Outcome

end MongoWire.Lib
