import MongoWire.Lib.Text

/-!
# Text as characters

The `str` methods that take a message apart, over the list of characters.
-/

namespace MongoWire.Lib.Str

/-! ## Parts between separators -/

def split (sep : Char) (s : String) : List String := (s.toList.splitOn sep).map String.ofList

theorem split_of_not_mem {sep : Char} {s : String} (h : sep ∉ s.toList) : split sep s = [s] := by
  unfold split
  rw [List.splitOn_eq_singleton h, List.map_singleton, String.ofList_toList]

theorem split_append_sep {sep : Char} {a : String} (h : sep ∉ a.toList) (b : String) :
    split sep (a ++ String.singleton sep ++ b) = a :: split sep b := by
  unfold split
  have htext : (a ++ String.singleton sep ++ b).toList = a.toList ++ sep :: b.toList := by simp
  rw [htext, List.splitOn_append_cons_self_of_not_mem h, List.map_cons, String.ofList_toList]

theorem eq_of_split_eq_singleton {sep : Char} {s t : String} (h : split sep s = [t]) : s = t := by
  unfold split at h
  obtain ⟨part, hsplit, rfl⟩ := List.map_eq_singleton_iff.mp h
  have hjoin : [sep].intercalate (s.toList.splitOn sep) = s.toList := List.intercalate_splitOn sep
  rw [hsplit] at hjoin
  apply String.toList_inj.mp
  rw [String.toList_ofList, ← hjoin]
  simp

theorem splitOn_eq_cons {α : Type} [BEq α] [LawfulBEq α] {sep : α} {l part : List α}
    {parts : List (List α)} :
    l.splitOn sep = part :: parts ↔
      sep ∉ part ∧
        (l = part ∧ parts = [] ∨ ∃ rest, l = part ++ sep :: rest ∧ rest.splitOn sep = parts) := by
  constructor
  · intro h
    by_cases hmem : sep ∈ l
    · obtain ⟨before, after, rfl, hbefore⟩ := List.eq_append_cons_of_mem hmem
      rw [List.splitOn_append_cons_self_of_not_mem hbefore] at h
      cases h
      exact ⟨hbefore, .inr ⟨after, rfl, rfl⟩⟩
    · rw [List.splitOn_eq_singleton hmem] at h
      cases h
      exact ⟨hmem, .inl ⟨rfl, rfl⟩⟩
  · rintro ⟨hmem, ⟨rfl, rfl⟩ | ⟨rest, rfl, rfl⟩⟩
    · exact List.splitOn_eq_singleton hmem
    · exact List.splitOn_append_cons_self_of_not_mem hmem rest

theorem split_head?_eq_some {sep : Char} {s t : String} :
    (split sep s).head? = some t ↔
      sep ∉ t.toList ∧ (s = t ∨ ∃ rest, s = t ++ String.singleton sep ++ rest) := by
  unfold split
  rw [List.head?_map, Option.map_eq_some_iff]
  constructor
  · rintro ⟨part, hhead, rfl⟩
    obtain ⟨parts, hparts⟩ := List.head?_eq_some_iff.mp hhead
    obtain ⟨hmem, ⟨hs, -⟩ | ⟨rest, hs, -⟩⟩ := splitOn_eq_cons.mp hparts
    · exact ⟨by simpa using hmem, .inl (String.toList_inj.mp (by simp [hs]))⟩
    · exact ⟨by simpa using hmem, .inr ⟨.ofList rest, String.toList_inj.mp (by simp [hs])⟩⟩
  · rintro ⟨hmem, rfl | ⟨rest, rfl⟩⟩
    · exact ⟨s.toList, by rw [List.splitOn_eq_singleton hmem, List.head?_cons], String.ofList_toList⟩
    · have htext : (t ++ String.singleton sep ++ rest).toList = t.toList ++ sep :: rest.toList := by
        simp
      refine ⟨t.toList, ?_, String.ofList_toList⟩
      rw [htext, List.splitOn_append_cons_self_of_not_mem hmem, List.head?_cons]

/-! ## The front of a text -/

def stripPrefix (p s : String) : Option String :=
  if p.toList.isPrefixOf s.toList then some (.ofList (s.toList.drop p.toList.length)) else none

def startsWith (s p : String) : Bool := p.toList.isPrefixOf s.toList

theorem stripPrefix_eq_some (p s t : String) : stripPrefix p s = some t ↔ s = p ++ t := by
  unfold stripPrefix
  constructor
  · intro h
    split at h
    · rename_i hp
      cases h
      obtain ⟨r, hr⟩ := List.isPrefixOf_iff_prefix.mp hp
      apply String.toList_inj.mp
      rw [String.toList_append, String.toList_ofList, ← hr, List.drop_left]
    · cases h
  · rintro rfl
    rw [if_pos (List.isPrefixOf_iff_prefix.mpr ⟨t.toList, by simp⟩)]
    simp

@[simp] theorem stripPrefix_append (p t : String) : stripPrefix p (p ++ t) = some t :=
  (stripPrefix_eq_some _ _ _).mpr rfl

theorem startsWith_iff (s p : String) : startsWith s p = true ↔ ∃ t, s = p ++ t := by
  unfold startsWith
  rw [List.isPrefixOf_iff_prefix]
  constructor
  · rintro ⟨r, hr⟩
    exact ⟨.ofList r, String.toList_inj.mp (by simp [hr])⟩
  · rintro ⟨t, rfl⟩
    exact ⟨t.toList, by simp⟩

/-! ## Replacing -/

/-- `s.replace(c, rep)`. -/
def replaceChar (c : Char) (rep s : String) : String :=
  .ofList (s.toList.flatMap fun x => if x = c then rep.toList else [x])

/-- The text after `skip` characters, with the occurrences of `pat` from there replaced. -/
def replaceFrom (pat rep : List Char) : Nat → List Char → List Char
  | _, [] => []
  | skip + 1, _ :: cs => replaceFrom pat rep skip cs
  | 0, c :: cs =>
    if pat.isPrefixOf (c :: cs) then rep ++ replaceFrom pat rep (pat.length - 1) cs
    else c :: replaceFrom pat rep 0 cs

/-- `s.replace(pat, rep)` for a `pat` that is not empty. -/
def replace (pat rep s : String) : String := .ofList (replaceFrom pat.toList rep.toList 0 s.toList)

theorem toList_replaceChar (c : Char) (rep s : String) :
    (replaceChar c rep s).toList = s.toList.flatMap fun x => if x = c then rep.toList else [x] :=
  String.toList_ofList

theorem toList_replace (pat rep s : String) :
    (replace pat rep s).toList = replaceFrom pat.toList rep.toList 0 s.toList :=
  String.toList_ofList

theorem replaceFrom_flatMap {α : Type} {pat rep : List Char} {code code' : α → List Char}
    (h : ∀ a rest, replaceFrom pat rep 0 (code a ++ rest) =
      code' a ++ replaceFrom pat rep 0 rest) (l : List α) :
    replaceFrom pat rep 0 (l.flatMap code) = l.flatMap code' := by
  induction l with
  | nil => rfl
  | cons a l ih => rw [List.flatMap_cons, List.flatMap_cons, h, ih]

theorem not_mem_replaceChar {c : Char} {rep : String} (h : c ∉ rep.toList) (s : String) :
    c ∉ (replaceChar c rep s).toList := by
  unfold replaceChar
  rw [String.toList_ofList, List.mem_flatMap]
  rintro ⟨x, -, hx⟩
  split at hx
  · exact h hx
  · simp_all

/-! ## Decimal numbers -/

def dropPlus : List Char → List Char
  | '+' :: ds => ds
  | ds => ds

/-- `s.parse::<u32>()`: a `+` sign is allowed, a `-` sign is not. -/
def parseU32 (s : String) : Option UInt32 :=
  let digits := dropPlus s.toList
  if digits = [] ∨ ¬ digits.all Char.isDigit then none
  else
    let n := Nat.ofDigitChars 10 digits 0
    if n < 2 ^ 32 then some (.ofNat n) else none

theorem not_mem_toDigits {c : Char} (hc : c.isDigit = false) (n : Nat) : c ∉ Nat.toDigits 10 n := by
  intro h
  have := isDigit_toDigits n c h
  rw [hc] at this
  cases this

theorem toList_toString (n : Nat) : (toString n).toList = Nat.toDigits 10 n := by
  rw [Nat.toString_eq_ofList_toDigits, String.toList_ofList]

theorem dropPlus_toDigits (n : Nat) : dropPlus (Nat.toDigits 10 n) = Nat.toDigits 10 n := by
  unfold dropPlus
  split
  · rename_i ds h
    exact absurd (by simp [h]) (not_mem_toDigits (c := '+') (by decide) n)
  · rfl

theorem parseU32_toString (n : UInt32) : parseU32 (toString n.toNat) = some n := by
  unfold parseU32
  rw [toList_toString, dropPlus_toDigits]
  have hdigits : ¬ (Nat.toDigits 10 n.toNat = [] ∨ ¬ (Nat.toDigits 10 n.toNat).all Char.isDigit) := by
    rw [not_or, not_not]
    exact ⟨Nat.toDigits_ne_nil, List.all_eq_true.mpr (isDigit_toDigits n.toNat)⟩
  simp only [if_neg hdigits, Nat.ofDigitChars_ten_toDigits]
  rw [if_pos n.toNat_lt, UInt32.ofNat_toNat]

example : (parseU32 "4096", parseU32 "+1", parseU32 "-1", parseU32 "4294967296") =
    (some 4096, some 1, none, none) := by decide

end MongoWire.Lib.Str
