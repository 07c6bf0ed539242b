import MongoWire.Bson.Access

/-!
# Looking into an encoded document

What `RawDocument` finds in the bytes of a document, without decoding them, is what the document
holds. What is decoded is no deeper than the limit.
-/

open MongoWire.Lib MongoWire.Lib.Outcome

namespace MongoWire

namespace RawBsonRef

theorem eq_ofScalar_of_toBson {v : RawBsonRef} {s : Scalar} (h : v.toBson = .ok (.ofScalar s)) :
    v = .ofScalar s := by
  cases v with
  | document d =>
    simp only [toBson, bind_eq_ok, pure_eq, ok.injEq] at h
    obtain ⟨_, -, h⟩ := h
    cases s <;> cases h
  | array a =>
    simp only [toBson, bind_eq_ok, pure_eq, ok.injEq] at h
    obtain ⟨_, -, h⟩ := h
    cases s <;> cases h
  | _ => cases s <;> cases h <;> rfl

end RawBsonRef

/-! ## The depth of what was decoded -/

theorem fieldsDepth_le_iff {k : Nat} (fs : List Field) :
    fieldsDepth fs ≤ k ↔ ∀ f ∈ fs, f.value.depth ≤ k := by
  induction fs with
  | nil => exact iff_of_true (Nat.zero_le k) (List.forall_mem_nil _)
  | cons f fs ih =>
    obtain ⟨_, _⟩ := f
    rw [List.forall_mem_cons, ← ih, fieldsDepth, Nat.max_le]

theorem valuesDepth_le_iff {k : Nat} (vs : List Bson) :
    valuesDepth vs ≤ k ↔ ∀ v ∈ vs, v.depth ≤ k := by
  induction vs with
  | nil => exact iff_of_true (Nat.zero_le k) (List.forall_mem_nil _)
  | cons v vs ih => rw [List.forall_mem_cons, ← ih, valuesDepth, Nat.max_le]

theorem Decode.depth_of_materializeAt (mode : Mode) (levels : Nat) :
    ∀ (depth : Nat) (raw : RawBsonRef) (v : Bson), depth ≤ maxNestingDepth →
      materializeAt levels mode depth raw = .ok v → depth + v.depth ≤ maxNestingDepth := by
  induction levels using Nat.strong_induction_on with
  | _ levels ih =>
    intro depth raw v hdepth h
    cases raw using RawBsonRef.casesScalar with
    | scalar s =>
      rw [materializeAt_ofScalar] at h
      cases h
      rwa [Bson.depth_ofScalar]
    | scope code scope =>
      cases h
      exact hdepth
    | document d =>
      simp only [materializeAt, materialize, bind_eq_ok, pure_eq, ok.injEq] at h
      obtain ⟨fs, h, rfl⟩ := h
      obtain ⟨n, items, rfl, hnext, -, hall⟩ := decodeFields_ok h
      have hfields : fieldsDepth fs ≤ maxNestingDepth - (depth + 1) := by
        refine (fieldsDepth_le_iff fs).mpr
          ((List.forall₂_and_left _ _).mp (hall.flip.imp fun f item hf => ⟨?_, hf⟩)).1
        obtain ⟨v, rfl, hv⟩ := hf
        have := ih n (by omega) (depth + 1) item.2 v hnext hv
        show v.depth ≤ _
        omega
      show depth + (fieldsDepth fs + 1) ≤ _
      omega
    | array a =>
      simp only [materializeAt, materialize, bind_eq_ok, pure_eq, ok.injEq] at h
      obtain ⟨vs, h, rfl⟩ := h
      obtain ⟨n, items, rfl, hnext, -, hall⟩ := decodeArray_ok h
      have hvalues : valuesDepth vs ≤ maxNestingDepth - (depth + 1) := by
        refine (valuesDepth_le_iff vs).mpr
          ((List.forall₂_and_left _ _).mp (hall.flip.imp fun v item hv => ⟨?_, hv⟩)).1
        have := ih n (by omega) (depth + 1) item.2 v hnext hv
        omega
      show depth + (valuesDepth vs + 1) ≤ _
      omega

namespace RawDocument

variable {d : Document} {raw : RawDocument}

theorem depth_of_deep (h : raw.deep = .ok d) : d.depth ≤ maxNestingDepth := by
  simp only [deep, decode, bind_eq_ok, pure_eq, ok.injEq] at h
  obtain ⟨fs, hfs, rfl⟩ := h
  have hvalue : Decode.materializeAt (maxNestingDepth + 1) .deep 0 (.document raw) =
      .ok (.document ⟨fs⟩) := by
    simp [Decode.materializeAt, Decode.materialize, hfs]
  exact (Nat.zero_add _).ge.trans (Decode.depth_of_materializeAt _ _ _ _ _ (Nat.zero_le _) hvalue)

theorem deep_of_encode (hrange : d.InRange) (hdepth : d.depth ≤ maxNestingDepth)
    (henc : d.encode = .ok raw) : raw.deep = .ok d := by
  obtain ⟨hencodable, hbytes⟩ := (Document.encode_eq_ok d raw).mp henc
  rw [deep, decode_layout hencodable hrange hbytes, Decode.upTo_ok hdepth]

section Encoded

variable (hrange : d.InRange) (hdepth : d.depth ≤ maxNestingDepth) (henc : d.encode = .ok raw)

include hrange hdepth henc

theorem get_of_encode (key : String) : ∃ found : Option RawBsonRef, raw.get key = .ok found ∧
    Option.Rel (fun v b => v.toBson = .ok b) found (d.get key) := by
  obtain ⟨items, hyields, hreads⟩ := exists_readsAs (deep_of_encode hrange hdepth henc)
  exact get_of_readsAs hyields hreads key

theorem get_scalar_of_encode {key : String} {s : Scalar} (hget : d.get key = some (.ofScalar s)) :
    raw.get key = .ok (some (.ofScalar s)) := by
  obtain ⟨found, hfound, hrel⟩ := get_of_encode hrange hdepth henc key
  rw [hget] at hrel
  cases hrel with
  | some hbson => rw [hfound, RawBsonRef.eq_ofScalar_of_toBson hbson]

end Encoded

/-! ## The command -/

section Command

variable {items : List RawElem}

theorem framed_of_command {name : String} (h : raw.command = .ok name) : Framed raw.bytes := by
  rcases raw.valid with hnil | hframed
  · rw [command, hnil] at h
    cases h
  · exact hframed

variable (hframed : Framed raw.bytes) (hyields : Yields Scanner.next (.new raw.bytes) items)

include hframed hyields

theorem length_le_of_yields {f : RawElem} (hf : f ∈ items) :
    (utf8 f.1).length + f.2.layout.length ≤ raw.bytes.length := by
  obtain ⟨-, hbytes⟩ := (Scanner.yields_new hframed items).mp hyields
  have hsub : f.layout.length ≤ (items.map RawElem.layout).flatten.length :=
    (List.sublist_flatten_of_mem (List.mem_map_of_mem hf)).length_le
  rw [RawElem.layout, length_elemLayout] at hsub
  rw [hbytes, length_frame, List.flatMap_def]
  omega

theorem exists_of_command {name : String} (hname : raw.command = .ok name) (hne : name ≠ "") :
    ∃ v rest, items = (name, v) :: rest := by
  rw [command_of_yields hframed hyields] at hname
  rcases items with _ | ⟨⟨key, v⟩, rest⟩
  · exact absurd (ok.inj hname).symm hne
  · obtain rfl := ok.inj hname
    exact ⟨v, rest, rfl⟩

theorem length_command_le {name : String} (hname : raw.command = .ok name) :
    (utf8 name).length ≤ raw.bytes.length := by
  by_cases hne : name = ""
  · rw [hne]
    exact Nat.zero_le _
  · obtain ⟨v, rest, rfl⟩ := exists_of_command hframed hyields hname hne
    exact (Nat.le_add_right _ _).trans (length_le_of_yields hframed hyields List.mem_cons_self)

theorem get_command {d : Document} (hreads : List.Forall₂ ReadsAs items d.fields)
    {name : String} (hname : raw.command = .ok name) (hne : name ≠ "") :
    ∃ v b, raw.get name = .ok (some v) ∧ d.get name = some b ∧ v.toBson = .ok b ∧
      v.layout.length ≤ raw.bytes.length := by
  obtain ⟨v, rest, rfl⟩ := exists_of_command hframed hyields hname hne
  have hlen := (Nat.le_add_left _ _).trans (length_le_of_yields hframed hyields List.mem_cons_self)
  have hget : raw.get name = .ok (some v) := by
    rw [get, (fields_eq_map_ok _ _).mpr hyields, getIn_map_ok]
    simp
  obtain ⟨found, hfound, hrel⟩ := get_of_readsAs hyields hreads name
  obtain rfl := ok.inj (hget.symm.trans hfound)
  generalize d.get name = argument at hrel ⊢
  cases hrel with
  | some hbson => exact ⟨v, _, hget, rfl, hbson, hlen⟩

end Command

end RawDocument

end MongoWire
