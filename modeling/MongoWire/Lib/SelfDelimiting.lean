import Mathlib.Data.List.Basic

/-!
# Words that say where they end

No word of a self-delimiting code is a proper beginning of another, so words
written back to back can be told apart whatever follows them. A cut between
two words is then the only cut that leaves words.
-/

namespace MongoWire.Lib

variable {α β : Type} {valid : α → Prop} {word : α → List β}

structure SelfDelimiting (valid : α → Prop) (word : α → List β) : Prop where
  ne_nil : ∀ {a}, valid a → word a ≠ []
  unique : ∀ {a b s t}, valid a → valid b → word a ++ s = word b ++ t → a = b

namespace SelfDelimiting

theorem of_header {w : Nat} (hw : 0 < w) (long : ∀ a, valid a → w ≤ (word a).length)
    (header : ∀ a b, valid a → valid b → (word a).take w = (word b).take w →
      (word a).length = (word b).length)
    (inj : ∀ a b, valid a → valid b → word a = word b → a = b) : SelfDelimiting valid word where
  ne_nil := by
    intro a ha hnil
    have := long a ha
    rw [hnil, List.length_nil] at this
    omega
  unique := by
    intro a b s t ha hb h
    have hhead := congrArg (List.take w) h
    rw [List.take_append_of_le_length (long a ha), List.take_append_of_le_length (long b hb)]
      at hhead
    exact inj a b ha hb (List.append_inj h (header a b ha hb hhead)).1

theorem of_length {w : Nat} (hw : 0 < w) (length : ∀ a, (word a).length = w)
    (inj : ∀ a b, word a = word b → a = b) : SelfDelimiting (fun _ => True) word :=
  of_header hw (fun a _ => Nat.le_of_eq (length a).symm) (fun a b _ _ _ => (length a).trans (length b).symm)
    (fun a b _ _ => inj a b)

variable (h : SelfDelimiting valid word)
include h

theorem append_inj {a b : α} {s t : List β} (ha : valid a) (hb : valid b)
    (heq : word a ++ s = word b ++ t) : a = b ∧ s = t := by
  obtain rfl := h.unique ha hb heq
  exact ⟨rfl, List.append_cancel_left heq⟩

theorem flatMap_append {xs ys : List α} {r : List β} (hxs : ∀ a ∈ xs, valid a)
    (hys : ∀ a ∈ ys, valid a) (heq : ys.flatMap word ++ r = xs.flatMap word) :
    ∃ zs, xs = ys ++ zs ∧ r = zs.flatMap word := by
  induction ys generalizing xs with
  | nil => exact ⟨xs, rfl, heq⟩
  | cons y ys ih =>
    obtain ⟨hy, hys⟩ := List.forall_mem_cons.mp hys
    cases xs with
    | nil =>
      have hnil : word y = [] := by
        simp only [List.flatMap_cons, List.flatMap_nil, List.append_eq_nil_iff] at heq
        exact heq.1.1
      exact absurd hnil (h.ne_nil hy)
    | cons x xs =>
      obtain ⟨hx, hrest⟩ := List.forall_mem_cons.mp hxs
      rw [List.flatMap_cons, List.flatMap_cons, List.append_assoc] at heq
      obtain ⟨rfl, htail⟩ := h.append_inj hy hx heq
      obtain ⟨zs, rfl, rfl⟩ := ih hrest hys htail
      exact ⟨zs, rfl, rfl⟩

theorem flatMap_append_of_length {xs ys : List α} {r : List β} (hxs : ∀ a ∈ xs, valid a)
    (hys : ∀ a ∈ ys, valid a) (hlen : ys.length = xs.length)
    (heq : ys.flatMap word ++ r = xs.flatMap word) : r = [] := by
  obtain ⟨zs, rfl, rfl⟩ := h.flatMap_append hxs hys heq
  rw [List.length_append] at hlen
  rw [List.length_eq_zero_iff.mp (show zs.length = 0 by omega), List.flatMap_nil]

theorem flatMap_inj {xs ys : List α} (hxs : ∀ a ∈ xs, valid a) (hys : ∀ a ∈ ys, valid a)
    (heq : ys.flatMap word = xs.flatMap word) : ys = xs := by
  obtain ⟨zs, rfl, hnil⟩ := h.flatMap_append hxs hys (by rw [List.append_nil, heq])
  cases zs with
  | nil => rw [List.append_nil]
  | cons z zs =>
    rw [eq_comm, List.flatMap_cons, List.append_eq_nil_iff] at hnil
    exact absurd hnil.1 (h.ne_nil (hxs z (by simp)))

end SelfDelimiting

end MongoWire.Lib
