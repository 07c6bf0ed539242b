import MongoWire.Lib.Drain

/-!
# Reading a stream step by step

Between two calls, a reader holds the items that it took and the bytes that it did not decode yet.
Bytes may arrive and items may be taken in any order: the items are the first of the stream.
-/

namespace MongoWire.Lib

variable {α β ε : Type} {step : Decoder α β ε}

namespace Incremental

theorem drainAll_of_err (h : Incremental step) {buf : List α} {e : ε} (herr : (step buf).1 = .err e)
    (t : List α) : drainAll step (buf ++ t) = ⟨[], .err e⟩ := by
  have hstable := h.stable buf t (by rw [herr]; nofun)
  rw [drainAll, drain, hstable, herr]

theorem items_append (h : Incremental step) (bytes t : List α) :
    (drainAll step bytes).items <+: (drainAll step (bytes ++ t)).items := by
  rw [h.drainAll_append]
  rcases drainAll step bytes with ⟨items, rest | e | _ | _⟩
  · exact List.prefix_append _ _
  all_goals exact List.prefix_rfl

end Incremental

/-- The reader took `items` off `bytes` and holds `buf`: however the stream goes on, the rest of it
is read from `buf`. -/
def Residual (step : Decoder α β ε) (bytes : List α) (items : List β) (buf : List α) : Prop :=
  ∀ t, drainAll step (bytes ++ t) =
    Drained.andThen ⟨items, .ok (buf ++ t)⟩ (drainAll step)

namespace Residual

variable {bytes buf : List α} {items : List β}

theorem refl (bytes : List α) : Residual step bytes [] bytes := by
  intro t
  rw [Drained.andThen_ok, List.nil_append]

theorem arrive (h : Residual step bytes items buf) (chunk : List α) :
    Residual step (bytes ++ chunk) items (buf ++ chunk) := by
  intro t
  rw [List.append_assoc, List.append_assoc]
  exact h (chunk ++ t)

theorem drainAll_eq (h : Residual step bytes items buf) :
    drainAll step bytes =
      ⟨items ++ (drainAll step buf).items, (drainAll step buf).stop⟩ := by
  have hnil := h []
  rwa [List.append_nil, List.append_nil, Drained.andThen_ok] at hnil

theorem first_items (h : Residual step bytes items buf) : items <+: (drainAll step bytes).items := by
  rw [h.drainAll_eq]
  exact List.prefix_append _ _

variable (hstep : Incremental step)

include hstep

theorem take (h : Residual step bytes items buf) {x : β} {rest : List α}
    (hx : step buf = (.ok (some x), rest)) : Residual step bytes (items ++ [x]) rest := by
  intro t
  have hfst : (step buf).1 = .ok (some x) := by rw [hx]
  have hstable := hstep.stable buf t (by rw [hfst]; nofun)
  rw [hx] at hstable
  have hsome := hstep.drainAll_of_some (congrArg Prod.fst hstable)
  rw [hstable] at hsome
  rw [h t, Drained.andThen_ok, Drained.andThen_ok, hsome, List.append_assoc, List.singleton_append]

theorem wait (h : Residual step bytes items buf) (hwait : (step buf).1 = .ok none) :
    drainAll step bytes = ⟨items, .ok buf⟩ := by
  rw [h.drainAll_eq, hstep.drainAll_of_none hwait, List.append_nil]

theorem fail (h : Residual step bytes items buf) {e : ε} (herr : (step buf).1 = .err e)
    (t : List α) : drainAll step (bytes ++ t) = ⟨items, .err e⟩ := by
  rw [h t, Drained.andThen_ok, hstep.drainAll_of_err herr, List.append_nil]

end Residual

/-! ## Streams of encoded items -/

section Codes

variable {ι : Type} {code : ι → List α} {item : ι → β} (hstep : Incremental step)
  (hcode : ∀ i rest, step (code i ++ rest) = (.ok (some (item i)), rest))

include hstep hcode

theorem Incremental.drainAll_codes (is : List ι) (rest : List α) :
    drainAll step (is.flatMap code ++ rest) =
      Drained.andThen ⟨is.map item, .ok rest⟩ (drainAll step) := by
  induction is with
  | nil => rw [List.flatMap_nil, List.nil_append, List.map_nil, Drained.andThen_ok, List.nil_append]
  | cons i is ih =>
    have hhead := hcode i (is.flatMap code ++ rest)
    rw [List.flatMap_cons, List.append_assoc, hstep.drainAll_of_some (congrArg Prod.fst hhead),
      hhead, ih]
    rfl

theorem Incremental.step_cut {i : ι} {p t : List α} (hcut : p ++ t = code i) (ht : t ≠ []) :
    (step p).1 = .ok none := by
  by_contra hready
  have hstable := hstep.stable p t hready
  have hwhole := hcode i []
  rw [List.append_nil, ← hcut, hstable] at hwhole
  exact ht (List.append_eq_nil_iff.mp (congrArg Prod.snd hwhole)).2

/-- A stream that is cut off anywhere gives the items whose codes are whole, and waits for the rest
of the next one. -/
theorem Incremental.drainAll_cut (hnil : (step []).1 = .ok none) (is : List ι) (n : Nat) :
    ∃ k rest, (is.flatMap code).take n = (is.take k).flatMap code ++ rest ∧
      (∀ i ∈ is[k]?, rest.length < (code i).length) ∧
      drainAll step ((is.flatMap code).take n) = ⟨(is.take k).map item, .ok rest⟩ := by
  induction is generalizing n with
  | nil =>
    rw [List.flatMap_nil, List.take_nil]
    exact ⟨0, [], rfl, nofun, hstep.drainAll_of_none hnil⟩
  | cons i is ih =>
    rw [List.flatMap_cons]
    by_cases hlt : n < (code i).length
    · have hcut : (code i).take n ++ (code i).drop n = code i := List.take_append_drop _ _
      have hdrop : (code i).drop n ≠ [] := by
        rw [Ne, List.drop_eq_nil_iff]
        omega
      have hwait := hstep.step_cut hcode hcut hdrop
      rw [List.take_append_of_le_length (by omega)]
      refine ⟨0, (code i).take n, rfl, ?_, hstep.drainAll_of_none hwait⟩
      rintro _ ⟨⟩
      rwa [List.length_take_of_le (by omega)]
    · obtain ⟨m, rfl⟩ : ∃ m, n = (code i).length + m := ⟨n - (code i).length, by omega⟩
      obtain ⟨k, rest, htake, hnext, hdrain⟩ := ih m
      have hhead := hcode i ((is.flatMap code).take m)
      rw [List.take_length_add_append]
      refine ⟨k + 1, rest, ?_, hnext, ?_⟩
      · rw [htake, List.take_succ_cons, List.flatMap_cons, List.append_assoc]
      · rw [hstep.drainAll_of_some (congrArg Prod.fst hhead), hhead, hdrain]
        rfl

end Codes

end MongoWire.Lib
