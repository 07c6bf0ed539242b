import MongoWire.Lib.Method

/-!
# Loops over a sequence

A loop runs a method once for each item and ends at the first call that does not
return. What one proves about it is proved about its turns.
-/

namespace MongoWire.Lib.Method

open Outcome

variable {ε σ ι : Type}

/-- `for i in is { body(i)?; }` -/
def forEach (body : ι → Method ε σ Unit) : List ι → Method ε σ Unit
  | [] => pure ()
  | i :: is => do
    body i
    forEach body is

/-- One turn of a loop: its item, and what it found, returned and left behind. -/
structure Turn (ε σ ι : Type) where
  item : ι
  before : σ
  result : Outcome ε Unit
  after : σ

def turns (body : ι → Method ε σ Unit) : List ι → σ → List (Turn ε σ ι)
  | [], _ => []
  | i :: is, s => ⟨i, s, (body i s).1, (body i s).2⟩ ::
      if (body i s).1.isOk then turns body is (body i s).2 else []

variable {body : ι → Method ε σ Unit}

theorem run_of_mem_turns {is : List ι} {s : σ} {t : Turn ε σ ι} (h : t ∈ turns body is s) :
    body t.item t.before = (t.result, t.after) := by
  induction is generalizing s with
  | nil => cases h
  | cons i is ih =>
    unfold turns at h
    rcases List.mem_cons.mp h with rfl | h
    · rfl
    · split at h
      · exact ih h
      · cases h

theorem isOk_of_not_last {is : List ι} {s : σ} {front back : List (Turn ε σ ι)} {t : Turn ε σ ι}
    (h : turns body is s = front ++ t :: back) (hback : back ≠ []) : t.result.isOk = true := by
  induction is generalizing s front with
  | nil => simp [turns] at h
  | cons i is ih =>
    unfold turns at h
    rcases front with _ | ⟨u, front⟩
    · obtain ⟨rfl, hrest⟩ := List.cons.inj h
      split at hrest
      · assumption
      · exact absurd hrest.symm hback
    · obtain ⟨-, hrest⟩ := List.cons.inj h
      split at hrest
      · exact ih hrest
      · simp at hrest

theorem forEach_eq (is : List ι) (s : σ) :
    forEach body is s = ((turns body is s).getLast?.elim (.ok ()) Turn.result,
      (turns body is s).getLast?.elim s Turn.after) := by
  induction is generalizing s with
  | nil => rfl
  | cons i is ih =>
    unfold forEach turns
    show Method.bind (body i) (fun _ => forEach body is) s = _
    unfold Method.bind
    obtain ⟨r, s'⟩ := body i s
    rcases r with _ | e | _ | _
    · rw [show (if (ok () : Outcome ε Unit).isOk then turns body is s' else []) =
        turns body is s' from if_pos rfl, List.getLast?_cons]
      refine (ih s').trans ?_
      rcases (turns body is s').getLast? with _ | t <;> rfl
    all_goals rfl

theorem forEach_concat {is : List ι} {s s' : σ} (h : forEach body is s = (.ok (), s')) (i : ι) :
    forEach body (is ++ [i]) s = body i s' := by
  induction is generalizing s with
  | nil =>
    cases h
    show Method.bind (body i) (fun _ => pure ()) s' = body i s'
    unfold Method.bind
    rcases body i s' with ⟨_ | _ | _ | _, _⟩
    all_goals rfl
  | cons j is ih =>
    rcases hj : body j s with ⟨_ | _ | _ | _, t⟩
    · have hrest := (bind_of_ok hj fun _ => forEach body is).symm.trans h
      exact (bind_of_ok hj fun _ => forEach body (is ++ [i])).trans (ih hrest)
    all_goals
      unfold forEach at h
      replace h : Method.bind (body j) (fun _ => forEach body is) s = _ := h
      unfold Method.bind at h
      rw [hj] at h
      cases h

theorem forEach_congr {κ : Type} {body' : κ → Method ε σ Unit} {is : List ι} {ks : List κ}
    (h : List.Forall₂ (fun i k => body i = body' k) is ks) : forEach body is = forEach body' ks := by
  induction h with
  | nil => rfl
  | cons hhead _ ih => rw [forEach, forEach, hhead, ih]

theorem log_forEach {β : Type} (log : σ → List β) (new : Turn ε σ ι → List β) {is : List ι} {s : σ}
    (h : ∀ t ∈ turns body is s, log t.after = log t.before ++ new t) :
    log (forEach body is s).2 = log s ++ (turns body is s).flatMap new := by
  induction is generalizing s with
  | nil =>
    show log s = log s ++ []
    rw [List.append_nil]
  | cons i is ih =>
    have hhead := h _ (by unfold turns; exact List.mem_cons_self)
    have htail := fun t ht => h t (by unfold turns; exact List.mem_cons_of_mem _ ht)
    unfold forEach turns
    show log (Method.bind (body i) (fun _ => forEach body is) s).2 = _
    unfold Method.bind
    rw [List.flatMap_cons, ← List.append_assoc, ← hhead]
    rcases hrun : body i s with ⟨_ | e | _ | _, s'⟩
    · rw [hrun] at htail
      exact ih htail
    all_goals exact (List.append_nil _).symm

end MongoWire.Lib.Method
