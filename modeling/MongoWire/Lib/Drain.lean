import MongoWire.Lib.Outcome

/-!
# Draining a buffer

A decoder takes one item off the front of a buffer or asks for more input. A
drain calls it until it asks for more or fails; a feed drains after each chunk
that arrives. If more input never changes what the decoder already made of a
buffer, the chunks do not matter.
-/

namespace MongoWire.Lib

variable {α β ε : Type}

/-- One call: the item, `none` for "more input", or an error; and the buffer that is left. -/
abbrev Decoder (α β ε : Type) := List α → Outcome ε (Option β) × List α

/-- The items of a drain, and how it ended: with the bytes left over, or with an error. -/
structure Drained (α β ε : Type) where
  items : List β
  stop : Outcome ε (List α)

namespace Drained

/-- Carry on from the bytes left over, if there was no error. -/
def andThen (r : Drained α β ε) (k : List α → Drained α β ε) : Drained α β ε :=
  match r.stop with
  | .ok rest => ⟨r.items ++ (k rest).items, (k rest).stop⟩
  | _ => r

@[simp] theorem andThen_ok (xs : List β) (rest : List α) (k : List α → Drained α β ε) :
    andThen ⟨xs, .ok rest⟩ k = ⟨xs ++ (k rest).items, (k rest).stop⟩ := rfl

theorem andThen_cons (x : β) (r : Drained α β ε) (k : List α → Drained α β ε) :
    andThen ⟨x :: r.items, r.stop⟩ k = ⟨x :: (r.andThen k).items, (r.andThen k).stop⟩ := by
  obtain ⟨xs, stop⟩ := r
  cases stop <;> rfl

theorem andThen_of_ne (xs : List β) {stop : Outcome ε (List α)} (h : ∀ rest, stop ≠ .ok rest)
    (k : List α → Drained α β ε) : andThen ⟨xs, stop⟩ k = ⟨xs, stop⟩ := by
  cases stop with
  | ok rest => exact absurd rfl (h rest)
  | _ => rfl

theorem andThen_congr {r : Drained α β ε} {k k' : List α → Drained α β ε}
    (h : ∀ rest, r.stop = .ok rest → k rest = k' rest) : r.andThen k = r.andThen k' := by
  unfold andThen
  split
  · rename_i rest hrest
    rw [h rest hrest]
  · rfl

end Drained

/-- At most `fuel` calls. -/
def drain (step : Decoder α β ε) : (fuel : Nat) → List α → Drained α β ε
  | 0, _ => ⟨[], .hang⟩
  | fuel + 1, buf =>
    match step buf with
    | (.ok none, rest) => ⟨[], .ok rest⟩
    | (.ok (some x), rest) => ⟨x :: (drain step fuel rest).items, (drain step fuel rest).stop⟩
    | (.err e, _) => ⟨[], .err e⟩
    | (.panic, _) => ⟨[], .panic⟩
    | (.hang, _) => ⟨[], .hang⟩

def drainAll (step : Decoder α β ε) (buf : List α) : Drained α β ε :=
  drain step (buf.length + 1) buf

/-- Append a chunk, drain, and so on, up to the first error. -/
def feed (step : Decoder α β ε) : List (List α) → List α → Drained α β ε
  | [], buf => ⟨[], .ok buf⟩
  | chunk :: chunks, buf => (drainAll step (buf ++ chunk)).andThen (feed step chunks)

/-! ## What every item satisfies -/

section Items

variable {step : Decoder α β ε} {p : β → Prop}

theorem forall_mem_drain (h : ∀ buf x rest, step buf = (.ok (some x), rest) → p x) (fuel : Nat) :
    ∀ buf, ∀ x ∈ (drain step fuel buf).items, p x := by
  induction fuel with
  | zero => intro buf x hx; cases hx
  | succ fuel ih =>
    intro buf x hx
    rw [drain] at hx
    split at hx
    case h_2 y rest hstep =>
      rcases List.mem_cons.mp hx with rfl | hx
      · exact h buf x rest hstep
      · exact ih rest x hx
    all_goals cases hx

theorem Drained.forall_mem_andThen {r : Drained α β ε} {k : List α → Drained α β ε}
    (hr : ∀ x ∈ r.items, p x) (hk : ∀ rest, ∀ x ∈ (k rest).items, p x) :
    ∀ x ∈ (r.andThen k).items, p x := by
  intro x hx
  unfold andThen at hx
  split at hx
  · rcases List.mem_append.mp hx with hx | hx
    · exact hr x hx
    · exact hk _ x hx
  · exact hr x hx

theorem forall_mem_feed (h : ∀ buf x rest, step buf = (.ok (some x), rest) → p x)
    (chunks : List (List α)) : ∀ buf, ∀ x ∈ (feed step chunks buf).items, p x := by
  induction chunks with
  | nil => intro buf x hx; cases hx
  | cons chunk chunks ih =>
    intro buf
    exact Drained.forall_mem_andThen (forall_mem_drain h _ _) ih

end Items

/-! ## Chunks do not matter -/

/-- More input never changes what was already decided. -/
structure Incremental (step : Decoder α β ε) : Prop where
  waits : ∀ buf, (step buf).1 = .ok none → (step buf).2 = buf
  progress : ∀ buf x, (step buf).1 = .ok (some x) → (step buf).2.length < buf.length
  stable : ∀ buf t, (step buf).1 ≠ .ok none → step (buf ++ t) = ((step buf).1, (step buf).2 ++ t)

namespace Incremental

variable {step : Decoder α β ε}

theorem drain_congr (h : Incremental step) (n : Nat) :
    ∀ m buf, buf.length < n → buf.length < m → drain step n buf = drain step m buf := by
  induction n with
  | zero => intro m buf hn; omega
  | succ n ih =>
    intro m buf hn hm
    obtain ⟨m, rfl⟩ : ∃ k, m = k + 1 := ⟨m - 1, by omega⟩
    rw [drain, drain]
    have hprogress := h.progress buf
    generalize step buf = r at hprogress ⊢
    obtain ⟨result, rest⟩ := r
    cases result with
    | ok x =>
      cases x with
      | none => rfl
      | some x =>
        have hlt : rest.length < buf.length := hprogress x rfl
        simp only
        rw [ih m rest (by omega) (by omega)]
    | _ => rfl

theorem drainAll_of_none (h : Incremental step) {buf : List α} (hstep : (step buf).1 = .ok none) :
    drainAll step buf = ⟨[], .ok buf⟩ := by
  have hrest := h.waits buf hstep
  rw [drainAll, drain, ← Prod.eta (step buf), hstep, hrest]

theorem drainAll_of_some (h : Incremental step) {buf : List α} {x : β}
    (hstep : (step buf).1 = .ok (some x)) :
    drainAll step buf =
      ⟨x :: (drainAll step (step buf).2).items, (drainAll step (step buf).2).stop⟩ := by
  have hlt := h.progress buf x hstep
  rw [drainAll, drain, ← Prod.eta (step buf), hstep]
  simp only
  rw [h.drain_congr buf.length ((step buf).2.length + 1) _ hlt (by omega), drainAll]

theorem drainAll_of_failed (h : Incremental step) {buf : List α}
    (hfail : ∀ x, (step buf).1 ≠ .ok x) :
    ∃ stop, (∀ rest, stop ≠ .ok rest) ∧ ((step buf).1.Returns → stop.Returns) ∧
      ∀ t, drainAll step (buf ++ t) = ⟨[], stop⟩ := by
  have hstable := fun t => h.stable buf t (hfail none)
  simp only [drainAll, drain, hstable]
  generalize step buf = r at hfail ⊢
  obtain ⟨result, rest⟩ := r
  cases result with
  | ok x => exact absurd rfl (hfail x)
  | err e => exact ⟨.err e, by simp, by simp, fun _ => rfl⟩
  | panic => exact ⟨.panic, by simp, id, fun _ => rfl⟩
  | hang => exact ⟨.hang, by simp, id, fun _ => rfl⟩

theorem drainInduction (h : Incremental step) {P : List α → Prop}
    (wait : ∀ buf, (step buf).1 = .ok none → P buf)
    (item : ∀ buf x, (step buf).1 = .ok (some x) → P (step buf).2 → P buf)
    (fail : ∀ buf, (∀ x, (step buf).1 ≠ .ok x) → P buf) (buf : List α) : P buf := by
  by_cases hok : ∃ x, (step buf).1 = .ok x
  · obtain ⟨_ | x, hx⟩ := hok
    · exact wait buf hx
    · have hlt := h.progress buf x hx
      exact item buf x hx (h.drainInduction wait item fail (step buf).2)
  · exact fail buf (fun x hx => hok ⟨x, hx⟩)
termination_by buf.length

/-- Draining two pieces at once is draining the first, and then what it left over together with the
second. -/
theorem drainAll_append (h : Incremental step) (t buf : List α) :
    drainAll step (buf ++ t) =
      (drainAll step buf).andThen fun rest => drainAll step (rest ++ t) := by
  induction buf using h.drainInduction with
  | wait buf hwait => rw [h.drainAll_of_none hwait, Drained.andThen_ok, List.nil_append]
  | item buf x hx ih =>
    have hstable := h.stable buf t (by simp [hx])
    have hx' : (step (buf ++ t)).1 = .ok (some x) := by rw [hstable]; exact hx
    rw [h.drainAll_of_some hx, h.drainAll_of_some hx', hstable, Drained.andThen_cons, ih]
  | fail buf hfail =>
    obtain ⟨stop, hstop, -, hdrain⟩ := h.drainAll_of_failed hfail
    have hnil := hdrain []
    rw [List.append_nil] at hnil
    rw [hdrain t, hnil, Drained.andThen_of_ne [] hstop]

theorem step_of_drainAll (h : Incremental step) (buf : List α) :
    ∀ rest, (drainAll step buf).stop = .ok rest → (step rest).1 = .ok none := by
  induction buf using h.drainInduction with
  | wait buf hwait =>
    rw [h.drainAll_of_none hwait]
    rintro _ ⟨⟩
    exact hwait
  | item buf x hx ih => rwa [h.drainAll_of_some hx]
  | fail buf hfail =>
    obtain ⟨stop, hstop, -, hdrain⟩ := h.drainAll_of_failed hfail
    rw [← List.append_nil buf, hdrain []]
    exact fun rest hrest => absurd hrest (hstop rest)

theorem drainAll_split (h : Incremental step) {R : List α → β → Prop}
    (hcut : ∀ buf x, (step buf).1 = .ok (some x) → ∃ front, buf = front ++ (step buf).2 ∧ R front x)
    (buf : List α) :
    ∃ fronts tail, buf = fronts.flatten ++ tail ∧
      List.Forall₂ R fronts (drainAll step buf).items ∧
      drainAll step tail = ⟨[], (drainAll step buf).stop⟩ := by
  induction buf using h.drainInduction with
  | wait buf hwait =>
    rw [h.drainAll_of_none hwait]
    exact ⟨[], buf, rfl, .nil, h.drainAll_of_none hwait⟩
  | item buf x hx ih =>
    obtain ⟨front, hbuf, hfront⟩ := hcut buf x hx
    obtain ⟨fronts, tail, hrest, hfronts, htail⟩ := ih
    rw [h.drainAll_of_some hx]
    refine ⟨front :: fronts, tail, ?_, .cons hfront hfronts, htail⟩
    rw [List.flatten_cons, List.append_assoc, ← hrest]
    exact hbuf
  | fail buf hfail =>
    obtain ⟨stop, -, -, hdrain⟩ := h.drainAll_of_failed hfail
    have hnil := hdrain []
    rw [List.append_nil] at hnil
    rw [hnil]
    exact ⟨[], buf, rfl, .nil, hnil⟩

theorem returns_drainAll (h : Incremental step) (hreturns : ∀ buf, (step buf).1.Returns)
    (buf : List α) : (drainAll step buf).stop.Returns := by
  induction buf using h.drainInduction with
  | wait buf hwait => rw [h.drainAll_of_none hwait]; simp
  | item buf x hx ih => rwa [h.drainAll_of_some hx]
  | fail buf hfail =>
    obtain ⟨stop, -, hstop, hdrain⟩ := h.drainAll_of_failed hfail
    rw [← List.append_nil buf, hdrain []]
    exact hstop (hreturns buf)

theorem feed_eq (h : Incremental step) (chunks : List (List α)) :
    ∀ buf, (step buf).1 = .ok none → feed step chunks buf = drainAll step (buf ++ chunks.flatten) := by
  induction chunks with
  | nil =>
    intro buf hwait
    rw [feed, List.flatten_nil, List.append_nil, h.drainAll_of_none hwait]
  | cons chunk chunks ih =>
    intro buf _
    rw [feed, List.flatten_cons, ← List.append_assoc, h.drainAll_append chunks.flatten]
    exact Drained.andThen_congr fun rest hrest => ih rest (h.step_of_drainAll _ rest hrest)

end Incremental

end MongoWire.Lib
