import MongoWire.Lib.Outcome

/-!
# Methods of a mutable value

A method on `&mut self` returns or fails, and leaves the fields as the
statements before that point made them. So "a failed call changes nothing" is
a statement about the order of its statements, proved piece by piece.
-/

namespace MongoWire.Lib

/-- A method of a `σ`: its result, and the fields it leaves behind. -/
def Method (ε σ α : Type) : Type := σ → Outcome ε α × σ

namespace Method

open Outcome

variable {ε ε' σ τ α β ι : Type}

protected def bind (m : Method ε σ α) (f : α → Method ε σ β) : Method ε σ β := fun s =>
  match m s with
  | (.ok a, s) => f a s
  | (.err e, s) => (.err e, s)
  | (.panic, s) => (.panic, s)
  | (.hang, s) => (.hang, s)

instance : Monad (Method ε σ) where
  pure a := fun s => (.ok a, s)
  bind := Method.bind

def get : Method ε σ σ := fun s => (.ok s, s)

/-- Assign to fields of `self`. -/
def modify (f : σ → σ) : Method ε σ Unit := fun s => (.ok (), f s)

/-- A call that does not touch `self`, followed by `?`. -/
def check (x : Outcome ε α) : Method ε σ α := fun s => (x, s)

/-- Return early with `e` unless `c` holds. -/
def require (c : Prop) [Decidable c] (e : ε) : Method ε σ Unit := check (if c then .ok () else .err e)

/-- A call on a part of `self`. -/
def zoom (m : Method ε τ α) (get : σ → τ) (set : σ → τ → σ) : Method ε σ α :=
  fun s => ((m (get s)).1, set s (m (get s)).2)

/-- A call whose result is kept instead of passed on with `?`. -/
def attempt (m : Method ε σ α) : Method ε' σ (Except ε α) := fun s =>
  match m s with
  | (.ok a, s) => (.ok (.ok a), s)
  | (.err e, s) => (.ok (.error e), s)
  | (.panic, s) => (.panic, s)
  | (.hang, s) => (.hang, s)

/-! ## What a call that returned did -/

@[simp] theorem pure_eq_ok (a b : α) (s s' : σ) :
    (pure a : Method ε σ α) s = (.ok b, s') ↔ b = a ∧ s' = s := by
  show (Outcome.ok a, s) = (.ok b, s') ↔ _
  rw [Prod.mk.injEq, ok.injEq, eq_comm, eq_comm (a := s)]

theorem bind_eq_ok (m : Method ε σ α) (f : α → Method ε σ β) (s s' : σ) (b : β) :
    (m >>= f) s = (.ok b, s') ↔ ∃ a s₁, m s = (.ok a, s₁) ∧ f a s₁ = (.ok b, s') := by
  show Method.bind m f s = _ ↔ _
  unfold Method.bind
  generalize m s = r
  obtain ⟨_ | _ | _ | _, s₁⟩ := r <;> simp

/-! ## A statement at the front of a call -/

@[simp] theorem get_bind (f : σ → Method ε σ β) (s : σ) : (get >>= f) s = f s s := rfl

@[simp] theorem modify_bind (g : σ → σ) (f : Unit → Method ε σ β) (s : σ) :
    (modify g >>= f) s = f () (g s) := rfl

theorem bind_of_ok {m : Method ε σ α} {s s' : σ} {a : α} (h : m s = (.ok a, s'))
    (f : α → Method ε σ β) : (m >>= f) s = f a s' := by
  show Method.bind m f s = _
  unfold Method.bind
  rw [h]

@[simp] theorem check_ok_bind (a : α) (f : α → Method ε σ β) (s : σ) :
    (check (.ok a) >>= f) s = f a s := rfl

@[simp] theorem check_err_bind (e : ε) (f : α → Method ε σ β) (s : σ) :
    (check (.err e) >>= f) s = (.err e, s) := rfl

theorem require_bind (c : Prop) [Decidable c] (e : ε) (f : Unit → Method ε σ β) (s : σ) :
    (require c e >>= f) s = if c then f () s else (.err e, s) := by
  show Method.bind (require c e) f s = _
  unfold Method.bind require check
  by_cases h : c <;> simp [h]

theorem check_bind_eq_ok (x : Outcome ε α) (f : α → Method ε σ β) (s s' : σ) (b : β) :
    (check x >>= f) s = (.ok b, s') ↔ ∃ a, x = .ok a ∧ f a s = (.ok b, s') := by
  rw [bind_eq_ok]
  constructor
  · rintro ⟨a, _, hx, hf⟩
    obtain ⟨rfl, rfl⟩ := Prod.mk.inj hx
    exact ⟨a, rfl, hf⟩
  · rintro ⟨a, rfl, hf⟩
    exact ⟨a, s, rfl, hf⟩

theorem require_bind_eq_ok (c : Prop) [Decidable c] (e : ε) (f : Unit → Method ε σ β) (s s' : σ)
    (b : β) : (require c e >>= f) s = (.ok b, s') ↔ c ∧ f () s = (.ok b, s') := by
  rw [require_bind]
  split <;> simp [*]

theorem check_bind_cases (x : Outcome ε α) (f : α → Method ε σ β) (s : σ) :
    (∃ a, x = .ok a ∧ (check x >>= f) s = f a s) ∨
      (∀ a, x ≠ .ok a) ∧ ((check x >>= f) s).2 = s ∧ ∀ b, ((check x >>= f) s).1 ≠ .ok b := by
  rcases x with a | e | _ | _
  · exact .inl ⟨a, rfl, rfl⟩
  all_goals exact .inr ⟨nofun, rfl, nofun⟩

theorem check_bind_pure (x : Outcome ε α) (f : α → β) (s : σ) :
    (check x >>= fun a => pure (f a)) s = (x >>= fun a => .ok (f a), s) := by
  rcases x with _ | _ | _ | _ <;> rfl

/-! ## What a call that failed left behind -/

def Keeps (m : Method ε σ α) : Prop := ∀ s, (m s).2 = s

def Succeeds (m : Method ε σ α) : Prop := ∀ s, ∃ a, (m s).1 = .ok a

/-- A call that does not return a value leaves every field as it was. -/
def Atomic (m : Method ε σ α) : Prop := ∀ s, (∀ a, (m s).1 ≠ .ok a) → (m s).2 = s

theorem keeps_get : (get : Method ε σ σ).Keeps := fun _ => rfl

theorem keeps_check (x : Outcome ε α) : (check x : Method ε σ α).Keeps := fun _ => rfl

theorem keeps_require (c : Prop) [Decidable c] (e : ε) : (require c e : Method ε σ Unit).Keeps :=
  keeps_check _

theorem succeeds_pure (a : α) : (pure a : Method ε σ α).Succeeds := fun _ => ⟨a, rfl⟩

theorem Keeps.bind {m : Method ε σ α} {f : α → Method ε σ β} (hm : m.Keeps)
    (hf : ∀ a, (f a).Atomic) : (m >>= f).Atomic := by
  intro s hfail
  change ∀ b, (Method.bind m f s).1 ≠ .ok b at hfail
  show (Method.bind m f s).2 = s
  have hkeep := hm s
  unfold Method.bind at hfail ⊢
  generalize m s = r at hfail hkeep ⊢
  obtain ⟨x, s₁⟩ := r
  simp only at hkeep
  subst hkeep
  cases x with
  | ok a => exact hf a s₁ hfail
  | _ => rfl

theorem succeeds_modify_bind (f : σ → σ) {g : Unit → Method ε σ β} (hg : (g ()).Succeeds) :
    (modify f >>= g : Method ε σ β).Succeeds := fun s => hg (f s)

theorem Succeeds.atomic {m : Method ε σ α} (h : m.Succeeds) : m.Atomic := by
  intro s hfail
  obtain ⟨a, ha⟩ := h s
  exact absurd ha (hfail a)

theorem bind_pure_eq_ok (m : Method ε σ α) (f : α → β) (s s' : σ) (b : β) :
    (m >>= fun a => pure (f a)) s = (.ok b, s') ↔ ∃ a, m s = (.ok a, s') ∧ b = f a := by
  simp only [bind_eq_ok, pure_eq_ok]
  constructor
  · rintro ⟨a, _, hm, rfl, rfl⟩
    exact ⟨a, hm, rfl⟩
  · rintro ⟨a, hm, rfl⟩
    exact ⟨a, s', hm, rfl, rfl⟩

theorem Atomic.bind_pure {m : Method ε σ α} (h : m.Atomic) (f : α → β) :
    (m >>= fun a => pure (f a)).Atomic := by
  intro s hfail
  have hm : ∀ a, (m s).1 ≠ .ok a := by
    intro a ha
    have := (bind_pure_eq_ok m f s (m s).2 (f a)).mpr ⟨a, Prod.ext ha rfl, rfl⟩
    exact hfail (f a) (congrArg Prod.fst this)
  have hkeep := h s hm
  show (Method.bind m _ s).2 = s
  unfold Method.bind
  generalize m s = r at hm hkeep ⊢
  obtain ⟨_ | _ | _ | _, s₁⟩ := r
  · exact absurd rfl (hm _)
  all_goals exact hkeep

theorem Atomic.of_err {m : Method ε σ α} (h : m.Atomic) {s s' : σ} {e : ε}
    (herr : m s = (.err e, s')) : s' = s := by
  have := h s (by simp [herr])
  rwa [herr] at this

/-! ## Coming back at all -/

/-- Every call comes back, with a value or with a declared error. -/
def Returns (m : Method ε σ α) : Prop := ∀ s, (m s).1.Returns

theorem returns_get : (get : Method ε σ σ).Returns := fun _ => trivial

theorem returns_pure (a : α) : (pure a : Method ε σ α).Returns := fun _ => trivial

theorem returns_modify (f : σ → σ) : (modify f : Method ε σ Unit).Returns := fun _ => trivial

theorem returns_check {x : Outcome ε α} (h : x.Returns) : (check x : Method ε σ α).Returns :=
  fun _ => h

theorem returns_require (c : Prop) [Decidable c] (e : ε) :
    (require c e : Method ε σ Unit).Returns := by
  apply returns_check
  split <;> simp

theorem Returns.bind {m : Method ε σ α} {f : α → Method ε σ β} (hm : m.Returns)
    (hf : ∀ a, (f a).Returns) : (m >>= f).Returns := by
  intro s
  show (Method.bind m f s).1.Returns
  have hreturns := hm s
  unfold Method.bind
  generalize m s = r at hreturns ⊢
  obtain ⟨_ | _ | _ | _, s₁⟩ := r
  · exact hf _ s₁
  · trivial
  · exact hreturns
  · exact hreturns

theorem Returns.exists_err {m : Method ε σ α} (h : m.Returns) {s : σ}
    (hfail : ∀ a s', m s ≠ (.ok a, s')) : ∃ e, (m s).1 = .err e := by
  have hreturns := h s
  generalize hr : m s = r at hfail hreturns ⊢
  obtain ⟨_ | e | _ | _, s₁⟩ := r
  · exact absurd rfl (hfail _ _)
  · exact ⟨e, rfl⟩
  · exact absurd hreturns not_returns_panic
  · exact absurd hreturns not_returns_hang

/-! ## A method of a local value -/

/-- Call a method of the local `t`: the value and what became of `t`. -/
def on (m : Method ε σ α) (t : σ) : Outcome ε (α × σ) := do
  let a ← (m t).1
  return (a, (m t).2)

theorem on_eq_ok (m : Method ε σ α) (t t' : σ) (a : α) :
    m.on t = .ok (a, t') ↔ m t = (.ok a, t') := by
  unfold on
  rw [Outcome.bind_eq_ok, Prod.ext_iff]
  simp only [pure_eq, ok.injEq, Prod.mk.injEq]
  constructor
  · rintro ⟨_, ha, rfl, rfl⟩
    exact ⟨ha, rfl⟩
  · rintro ⟨ha, ht⟩
    exact ⟨a, ha, rfl, ht⟩

theorem on_bind {γ : Type} {m : Method ε σ α} {t t' : σ} {a : α} {f : α × σ → Outcome ε γ}
    (h : m t = (.ok a, t')) : (m.on t >>= f) = f (a, t') := by
  rw [(on_eq_ok m t t' a).mpr h, ok_bind]

theorem returns_on {m : Method ε σ α} (h : m.Returns) (t : σ) : (m.on t).Returns := by
  unfold on
  simpa [returns_bind] using h t

/-! ## Sequences of calls -/

/-- Make the calls one after the other: each with its result, and the fields at the end. -/
def calls (call : ι → Method ε σ α) : List ι → σ → List (ι × Outcome ε α) × σ
  | [], s => ([], s)
  | i :: is, s => ((i, (call i s).1) :: (calls call is (call i s).2).1, (calls call is (call i s).2).2)

/-- The calls that returned a value, in order. -/
def accepted : List (ι × Outcome ε α) → List (ι × α)
  | [] => []
  | (i, .ok a) :: rest => (i, a) :: accepted rest
  | _ :: rest => accepted rest

theorem calls_induction {call : ι → Method ε σ α} {P : List (ι × Outcome ε α) → σ → Prop}
    (hstep : ∀ history s i, P history s → P (history ++ [(i, (call i s).1)]) (call i s).2)
    (is : List ι) : ∀ history s, P history s →
      P (history ++ (calls call is s).1) (calls call is s).2 := by
  induction is with
  | nil => intro history s h; simpa [calls] using h
  | cons i is ih =>
    intro history s h
    have := ih _ _ (hstep history s i h)
    rwa [List.append_assoc] at this

theorem accepted_append (xs ys : List (ι × Outcome ε α)) :
    accepted (xs ++ ys) = accepted xs ++ accepted ys := by
  induction xs with
  | nil => rfl
  | cons x xs ih =>
    obtain ⟨i, _ | _ | _ | _⟩ := x <;> simp [accepted, ih]

theorem accepted_induction {call : ι → Method ε σ α} (hatomic : ∀ i, (call i).Atomic)
    {P : List (ι × α) → σ → Prop} {s : σ} (hstart : P [] s)
    (hstep : ∀ history s i a s', P history s → call i s = (.ok a, s') →
      P (history ++ [(i, a)]) s') (is : List ι) :
    P (accepted (calls call is s).1) (calls call is s).2 := by
  refine calls_induction (P := fun history s => P (accepted history) s) ?_ is [] s hstart
  intro history s i h
  rw [accepted_append]
  have hkeep := hatomic i s
  cases hcall : call i s with
  | mk x s' =>
    rw [hcall] at hkeep
    cases x with
    | ok a => exact hstep _ s i a s' h hcall
    | _ =>
      rw [hkeep (by simp)]
      simpa [accepted] using h

end Method

end MongoWire.Lib
