import MongoWire.Lib.Loop

/-!
# Methods that keep an invariant

However a method ends, its state may still satisfy an invariant. The rules follow the way in which
methods are put together.
-/

namespace MongoWire.Lib.Method

variable {ε σ τ ι α β : Type} {inv : σ → Prop}

/-- The invariant survives the call, also if the call fails. -/
def Preserves (inv : σ → Prop) (m : Method ε σ α) : Prop := ∀ s, inv s → inv (m s).2

theorem preserves_pure (a : α) : Preserves inv (pure a : Method ε σ α) := fun _ h => h

theorem preserves_check (x : Outcome ε α) : Preserves inv (check x : Method ε σ α) := fun _ h => h

theorem preserves_modify {f : σ → σ} (hf : ∀ s, inv s → inv (f s)) :
    Preserves inv (modify f : Method ε σ Unit) := hf

theorem preserves_modify_bind {f : σ → σ} {k : Unit → Method ε σ β} (hf : ∀ s, inv s → inv (f s))
    (hk : Preserves inv (k ())) : Preserves inv (modify f >>= k) := fun s hs => hk (f s) (hf s hs)

theorem Preserves.bind_of {m : Method ε σ α} {f : α → Method ε σ β} (hm : Preserves inv m)
    (hf : ∀ s a s', inv s' → m s = (.ok a, s') → inv (f a s').2) : Preserves inv (m >>= f) := by
  intro s hs
  have hafter := hm s hs
  show inv (Method.bind m f s).2
  unfold Method.bind
  rcases hrun : m s with ⟨a | _ | _ | _, s'⟩
  · rw [hrun] at hafter
    exact hf s a s' hafter hrun
  all_goals
    rw [hrun] at hafter
    exact hafter

theorem Preserves.bind {m : Method ε σ α} {f : α → Method ε σ β} (hm : Preserves inv m)
    (hf : ∀ a, Preserves inv (f a)) : Preserves inv (m >>= f) :=
  hm.bind_of fun _ a s' hs' _ => hf a s' hs'

theorem preserves_check_bind {x : Outcome ε α} {f : α → Method ε σ β}
    (hf : ∀ a, x = .ok a → Preserves inv (f a)) : Preserves inv (check x >>= f) := by
  refine (preserves_check x).bind_of fun s a s' hs' hrun => ?_
  exact hf a (congrArg Prod.fst hrun) s' hs'

theorem preserves_forEach {body : ι → Method ε σ Unit} {is : List ι}
    (hbody : ∀ i ∈ is, Preserves inv (body i)) : Preserves inv (forEach body is) := by
  induction is with
  | nil => exact preserves_pure ()
  | cons i is ih =>
    obtain ⟨hhead, htail⟩ := List.forall_mem_cons.mp hbody
    exact hhead.bind fun _ => ih htail

end MongoWire.Lib.Method
