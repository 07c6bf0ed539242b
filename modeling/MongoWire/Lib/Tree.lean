import Mathlib.Data.List.Basic

/-!
# Trees of text

A tree of labelled texts, and two ways to write it: on one line, and with a line for each item.
-/

namespace MongoWire.Lib

mutual

inductive Tree where
  | leaf (text : String)
  /-- Items between two brackets. -/
  | node (l r : String) (items : Forest)

inductive Forest where
  | nil
  | cons (label : String) (tree : Tree) (rest : Forest)

end

/-! ## The two layouts -/

/-- What parts an item from the ones after it. -/
def Forest.separator : Forest → String
  | .nil => ""
  | .cons .. => ", "

mutual

def Tree.compact : Tree → String
  | .leaf text => text
  | .node l r items => l ++ items.compact ++ r

def Forest.compact : Forest → String
  | .nil => ""
  | .cons label tree rest => label ++ tree.compact ++ rest.separator ++ rest.compact

end

def pad : (level : Nat) → String
  | 0 => ""
  | level + 1 => "  " ++ pad level

mutual

/-- The brackets of a node stand at `level`, its items one level further in. -/
def Tree.indented (level : Nat) : Tree → String
  | .leaf text => text
  | .node l r items => l ++ "\n" ++ items.lines (level + 1) ++ pad level ++ r

def Forest.lines (level : Nat) : Forest → String
  | .nil => ""
  | .cons label tree rest => pad level ++ label ++ tree.indented level ++ ",\n" ++ rest.lines level

end

/-! ## What they share -/

/-- What is left of a text without blanks, line breaks and commas. -/
def ink (s : String) : List Char := s.toList.filter (· ∉ [' ', '\n', ','])

@[simp] theorem ink_append (s t : String) : ink (s ++ t) = ink s ++ ink t := by
  simp [ink]

@[simp] theorem ink_blank : ink "  " = [] := by decide

@[simp] theorem ink_newline : ink "\n" = [] := by decide

@[simp] theorem ink_comma_newline : ink ",\n" = [] := by decide

@[simp] theorem ink_pad (level : Nat) : ink (pad level) = [] := by
  induction level with
  | zero => rfl
  | succ level ih => rw [pad, ink_append, ink_blank, ih, List.append_nil]

@[simp] theorem ink_separator (items : Forest) : ink items.separator = [] := by
  cases items with
  | nil => rfl
  | cons => exact (by decide : ink ", " = [])

mutual

theorem Tree.ink_indented : ∀ (tree : Tree) (level : Nat), ink (tree.indented level) = ink tree.compact
  | .leaf _, _ => rfl
  | .node l r items, level => by
    simp [Tree.indented, Tree.compact, items.ink_lines]

theorem Forest.ink_lines : ∀ (items : Forest) (level : Nat), ink (items.lines level) = ink items.compact
  | .nil, _ => rfl
  | .cons label tree rest, level => by
    simp [Forest.lines, Forest.compact, tree.ink_indented, rest.ink_lines]

end

/-! ## Where a character comes from -/

mutual

/-- The texts of a tree: leaves, labels and brackets. -/
def Tree.texts : Tree → List String
  | .leaf text => [text]
  | .node l r items => l :: (items.texts ++ [r])

def Forest.texts : Forest → List String
  | .nil => []
  | .cons label tree rest => label :: (tree.texts ++ rest.texts)

end

section Origin

variable {c : Char} (hcomma : c ≠ ',') (hblank : c ≠ ' ')

-- The two proofs call each other, and only one of them names the hypotheses.
set_option linter.unusedSectionVars false

include hcomma hblank

theorem Forest.not_mem_separator (items : Forest) : c ∉ items.separator.toList := by
  cases items <;> simp [Forest.separator, hcomma, hblank]

mutual

theorem Tree.mem_compact : ∀ tree : Tree, c ∈ tree.compact.toList ↔ ∃ s ∈ tree.texts, c ∈ s.toList
  | .leaf _ => by simp [Tree.compact, Tree.texts]
  | .node l r items => by
    simp [Tree.compact, Tree.texts, items.mem_compact, or_and_right, exists_or]

theorem Forest.mem_compact : ∀ items : Forest, c ∈ items.compact.toList ↔ ∃ s ∈ items.texts, c ∈ s.toList
  | .nil => by simp [Forest.compact, Forest.texts]
  | .cons label tree rest => by
    simp [Forest.compact, Forest.texts, tree.mem_compact, rest.mem_compact,
      rest.not_mem_separator hcomma hblank, or_and_right, exists_or]

end

end Origin

end MongoWire.Lib
