import Mathlib.Data.List.Basic

/-!
# Searching a list in place

Loops over a list that is changed while they run: one takes out every element that a predicate picks,
and one changes the first of them.
-/

namespace MongoWire.Lib

variable {α β : Type} (p : α → Bool) (f : α → β)

/-- From index `i` on, remove what `p` picks; `first` is what `f` reads off the first of it. -/
def sweep (xs : List α) (i : Nat) (first : Option β) : Option β × List α :=
  if h : i < xs.length then
    if p xs[i] then sweep (xs.eraseIdx i) i (first.or (some (f xs[i])))
    else sweep xs (i + 1) first
  else (first, xs)
termination_by xs.length - i
decreasing_by
  · rw [List.length_eraseIdx_of_lt h]
    omega
  · omega

theorem sweep_eq (xs : List α) (i : Nat) (first : Option β) :
    sweep p f xs i first =
      (first.or (((xs.drop i).find? p).map f), xs.take i ++ (xs.drop i).filter (!p ·)) := by
  fun_induction sweep p f xs i first with
  | case1 xs i first h hp ih =>
    -- What followed the removed element is at its index now.
    have hlen : (xs.take i).length = i := List.length_take_of_le (Nat.le_of_lt h)
    rw [ih, List.eraseIdx_eq_take_drop_succ, List.drop_left' hlen, List.take_left' hlen,
      List.drop_eq_getElem_cons h, List.find?_cons_of_pos hp, List.filter_cons_of_neg (by simp [hp])]
    cases first <;> rfl
  | case2 xs i first h hp ih =>
    rw [ih, List.drop_eq_getElem_cons h, List.find?_cons_of_neg hp,
      List.filter_cons_of_pos (by simp [hp]), List.take_succ_eq_append_getElem h,
      List.append_assoc, List.singleton_append]
  | case3 xs i first h =>
    rw [List.drop_eq_nil_of_le (Nat.le_of_not_lt h), List.take_of_length_le (Nat.le_of_not_lt h)]
    simp

/-- Change the first element that `p` picks, if there is one. -/
def overwrite (f : α → α) : List α → Option (List α)
  | [] => none
  | x :: xs => if p x then some (f x :: xs) else (overwrite f xs).map (x :: ·)

theorem overwrite_cases (f : α → α) (xs : List α) :
    (overwrite p f xs = none ∧ ∀ x ∈ xs, p x = false) ∨
    ∃ before x after, xs = before ++ x :: after ∧ (∀ b ∈ before, p b = false) ∧ p x = true ∧
      overwrite p f xs = some (before ++ f x :: after) := by
  induction xs with
  | nil => exact .inl ⟨rfl, nofun⟩
  | cons x xs ih =>
    by_cases hx : p x = true
    · exact .inr ⟨[], x, xs, rfl, nofun, hx, if_pos hx⟩
    · rw [overwrite, if_neg hx]
      rw [Bool.not_eq_true] at hx
      rcases ih with ⟨hnone, hall⟩ | ⟨before, y, after, rfl, hbefore, hy, hsome⟩
      · exact .inl ⟨by rw [hnone]; rfl, List.forall_mem_cons.mpr ⟨hx, hall⟩⟩
      · exact .inr ⟨x :: before, y, after, rfl, List.forall_mem_cons.mpr ⟨hx, hbefore⟩, hy,
          by rw [hsome]; rfl⟩

end MongoWire.Lib
