import MongoWire.Bson.RoundTrip

/-!
# Lazy and eager access

The same document can be read field by field, looked up by name, or decoded at
once, shallowly or deeply. All four go over the same scan.
-/

open MongoWire.Lib MongoWire.Lib.Outcome MongoWire.Io

namespace MongoWire

/-! ## Fields and lookups -/

namespace RawDocument

theorem fields_eq_map_ok (d : RawDocument) (xs : List RawElem) :
    d.fields = xs.map .ok ↔ Yields Scanner.next (.new d.bytes) xs := by
  constructor
  · exact FieldsIter.yields_of_items _ _ xs
  · intro h
    have hfuel := Decode.length_lt_of_yields h
    exact FieldsIter.items_of_yields h _ (by omega)

theorem getIn_map_ok (key : String) (xs : List RawElem) :
    getIn key (xs.map .ok) = .ok ((xs.find? fun f => f.1 = key).map Prod.snd) := by
  induction xs with
  | nil => rfl
  | cons f xs ih =>
    rw [List.map_cons, getIn, ok_bind, List.find?_cons]
    by_cases hf : f.1 = key <;> simp [hf, ih]

theorem getIn_eq_none (key : String) (items : List (Outcome BsonError RawElem)) :
    getIn key items = .ok none ↔ ∃ xs : List RawElem, items = xs.map .ok ∧ ∀ f ∈ xs, f.1 ≠ key := by
  constructor
  · intro h
    induction items with
    | nil => exact ⟨[], rfl, by simp⟩
    | cons item items ih =>
      simp only [getIn, bind_eq_ok] at h
      obtain ⟨f, rfl, h⟩ := h
      by_cases hf : f.1 = key
      · rw [if_pos hf] at h
        cases h
      · rw [if_neg hf] at h
        obtain ⟨xs, rfl, hxs⟩ := ih h
        exact ⟨f :: xs, rfl, List.forall_mem_cons.mpr ⟨hf, hxs⟩⟩
  · rintro ⟨xs, rfl, hxs⟩
    rw [getIn_map_ok, List.find?_eq_none.mpr (by simpa using hxs)]
    rfl

theorem get_eq_none (d : RawDocument) (key : String) :
    d.get key = .ok none ↔
      ∃ xs, Yields Scanner.next (.new d.bytes) xs ∧ ∀ f ∈ xs, f.1 ≠ key := by
  simp only [get, getIn_eq_none, fields_eq_map_ok]

theorem command_of_yields {d : RawDocument} (hd : Framed d.bytes) {xs : List RawElem}
    (h : Yields Scanner.next (.new d.bytes) xs) :
    d.command = .ok ((xs.head?.map Prod.fst).getD "") := by
  obtain ⟨hread, hbytes⟩ := (Scanner.yields_new hd xs).mp h
  have hlong : ¬ d.bytes.length < 4 := by
    have := hd.long
    simp only [minDocLen] at this
    omega
  have hbody : d.bytes.drop 4 = xs.flatMap RawElem.layout ++ [0] := by rw [hbytes, drop_frame]
  rw [command, if_neg hlong, hbody]
  cases xs with
  | nil => rfl
  | cons f xs =>
    obtain ⟨name, v⟩ := f
    have hnul : (0 : UInt8) ∉ utf8 name := (hread _ List.mem_cons_self).1
    have hsplit : ((name, v) :: xs).flatMap RawElem.layout ++ [0] =
        v.tag.toU8 :: (utf8 name ++ 0 :: (v.layout ++ (xs.flatMap RawElem.layout ++ [0]))) := by
      simp [RawElem.layout, elemLayout, cstrLayout]
    rw [hsplit]
    simp only [Tag.toU8_ne_zero, if_false, nulPos_append _ _ hnul, ofOption_some, ok_bind]
    rw [slice_ok _ _ _ (by omega) (by simp)]
    simp

end RawDocument

/-! ## Shallow and deep -/

namespace Decode

theorem materialize_mode {fieldsOf : Bytes → Mode → Nat → Outcome BsonError (List Field)}
    {valuesOf : Bytes → Mode → Nat → Outcome BsonError (List Bson)}
    (hfields : ∀ b depth, fieldsOf b .shallow depth = fieldsOf b .deep depth)
    (hvalues : ∀ b depth, valuesOf b .shallow depth = valuesOf b .deep depth) (v : RawBsonRef)
    (depth : Nat) :
    materialize fieldsOf valuesOf v .shallow depth = materialize fieldsOf valuesOf v .deep depth := by
  cases v with
  | document d => simp only [materialize, hfields]
  | array a => simp only [materialize, hvalues]
  | _ => rfl

theorem decode_mode (levels : Nat) :
    (∀ b depth, decodeFields levels b .shallow depth = decodeFields levels b .deep depth) ∧
      ∀ b depth, decodeArray levels b .shallow depth = decodeArray levels b .deep depth := by
  induction levels with
  | zero => exact ⟨fun _ _ => rfl, fun _ _ => rfl⟩
  | succ n ih =>
    constructor
    · intro b depth
      simp only [decodeFields, materialize_mode ih.1 ih.2]
    · intro b depth
      simp only [decodeArray, materialize_mode ih.1 ih.2]

theorem materializeAt_mode (levels depth : Nat) (v : RawBsonRef) :
    materializeAt levels .shallow depth v = materializeAt levels .deep depth v :=
  materialize_mode (decode_mode levels).1 (decode_mode levels).2 v depth

/-! ## Starting again at depth 1 -/

theorem materializeAt_restart (mode : Mode) (n : Nat) :
    ∀ (levels depth start : Nat), n ≤ levels → start ≤ depth → ∀ raw v,
      materializeAt n mode depth raw = .ok v → materializeAt levels mode start raw = .ok v := by
  -- the induction is on the levels of recursion that were left
  induction n using Nat.strong_induction_on with
  | _ n ih =>
    intro levels depth start hle hstart raw v h
    cases raw using RawBsonRef.casesScalar with
    | document d =>
      simp only [materializeAt, materialize, bind_eq_ok, pure_eq, ok.injEq] at h ⊢
      obtain ⟨fs, hfs, rfl⟩ := h
      obtain ⟨m, items, rfl, hdepth, hyields, hall⟩ := decodeFields_ok hfs
      obtain ⟨k, rfl⟩ : ∃ k, levels = k + 1 := ⟨levels - 1, by omega⟩
      refine ⟨fs, ?_, rfl⟩
      rw [decodeFields_of_yields hyields k mode (by omega), mapM_eq_ok]
      refine hall.imp ?_
      rintro f g ⟨v, rfl, hv⟩
      rw [ih m (by omega) k (depth + 1) (start + 1) (by omega) (by omega) f.2 v hv]
      rfl
    | array a =>
      simp only [materializeAt, materialize, bind_eq_ok, pure_eq, ok.injEq] at h ⊢
      obtain ⟨vs, hvs, rfl⟩ := h
      obtain ⟨m, items, rfl, hdepth, hyields, hall⟩ := decodeArray_ok hvs
      obtain ⟨k, rfl⟩ : ∃ k, levels = k + 1 := ⟨levels - 1, by omega⟩
      refine ⟨vs, ?_, rfl⟩
      rw [decodeArray_of_yields hyields k mode (by omega), mapM_eq_ok]
      refine hall.imp ?_
      intro f v hv
      exact ih m (by omega) k (depth + 1) (start + 1) (by omega) (by omega) f.2 v hv
    | scope code scope => exact h
    | scalar s => rwa [materializeAt_ofScalar] at h ⊢

end Decode

namespace RawBsonRef

open Decode

theorem toBson_eq (v : RawBsonRef) :
    v.toBson = materializeAt (maxNestingDepth + 1) .shallow 0 v := by
  cases v with
  | document d =>
    simp only [toBson, RawDocument.shallow, RawDocument.decode, materializeAt, materialize, bind_assoc,
      pure_bind]
  | array a =>
    simp only [toBson, RawArray.shallow, RawArray.decode, materializeAt, materialize, bind_assoc,
      pure_bind]
  | _ => rfl

theorem deep_eq_toBson (v : RawBsonRef) : v.deep = v.toBson := by
  cases v with
  | document d =>
    simp only [deep, toBson, RawDocument.deep, RawDocument.shallow, RawDocument.decode,
      (decode_mode _).1]
  | array a =>
    simp only [deep, toBson, RawArray.deep, RawArray.shallow, RawArray.decode, (decode_mode _).2]
  | _ => rfl

theorem toBson_of_materializeAt {n : Nat} (hn : n ≤ maxNestingDepth + 1) {mode : Mode} {depth : Nat}
    {v : RawBsonRef} {b : Bson} (h : materializeAt n mode depth v = .ok b) : v.toBson = .ok b := by
  rw [toBson_eq]
  cases mode with
  | shallow => exact materializeAt_restart .shallow n _ depth 0 hn (Nat.zero_le _) v b h
  | deep =>
    rw [materializeAt_mode]
    exact materializeAt_restart .deep n _ depth 0 hn (Nat.zero_le _) v b h

end RawBsonRef

/-! ## All ways agree -/

namespace RawDocument

theorem shallow_eq_deep (d : RawDocument) : d.shallow = d.deep := by
  simp only [shallow, deep, decode, (Decode.decode_mode _).1]

/-- One raw field and what it was decoded to. -/
def ReadsAs (item : RawElem) (field : Field) : Prop :=
  item.1 = field.name ∧ item.2.toBson = .ok field.value ∧ item.2.deep = .ok field.value

theorem exists_readsAs {raw : RawDocument} {d : Document} (h : raw.deep = .ok d) :
    ∃ items, Yields Scanner.next (.new raw.bytes) items ∧ List.Forall₂ ReadsAs items d.fields := by
  simp only [deep, decode, bind_eq_ok, pure_eq, ok.injEq] at h
  obtain ⟨fs, hfs, rfl⟩ := h
  obtain ⟨n, items, hn, -, hyields, hall⟩ := Decode.decodeFields_ok hfs
  refine ⟨items, hyields, hall.imp ?_⟩
  rintro f g ⟨v, rfl, hv⟩
  have hbson := RawBsonRef.toBson_of_materializeAt (by omega) hv
  exact ⟨rfl, hbson, by rw [RawBsonRef.deep_eq_toBson, hbson]⟩

theorem find?_readsAs {items : List RawElem} {fields : List Field}
    (h : List.Forall₂ ReadsAs items fields) (key : String) :
    Option.Rel ReadsAs (items.find? fun f => f.1 = key) (fields.find? fun f => f.name = key) := by
  induction h with
  | nil => exact .none
  | @cons item field _ _ hread _ ih =>
    rw [List.find?_cons, List.find?_cons, hread.1]
    by_cases hkey : field.name = key
    · simp only [hkey, decide_true]
      exact .some hread
    · simp only [hkey, decide_false]
      exact ih

theorem get_of_readsAs {raw : RawDocument} {d : Document} {items : List RawElem}
    (hyields : Yields Scanner.next (.new raw.bytes) items)
    (h : List.Forall₂ ReadsAs items d.fields) (key : String) :
    ∃ found : Option RawBsonRef, raw.get key = .ok found ∧
      Option.Rel (fun v b => v.toBson = .ok b) found (d.get key) := by
  refine ⟨_, by rw [get, (fields_eq_map_ok raw items).mpr hyields, getIn_map_ok], ?_⟩
  have hfind := find?_readsAs h key
  rw [Document.get]
  generalize (items.find? fun f => f.1 = key) = item at hfind ⊢
  generalize (d.fields.find? fun f => f.name = key) = field at hfind ⊢
  cases hfind with
  | none => exact .none
  | some hread => exact .some hread.2.1

theorem head?_readsAs {items : List RawElem} {fields : List Field}
    (h : List.Forall₂ ReadsAs items fields) :
    items.head?.map Prod.fst = fields.head?.map Field.name := by
  cases h with
  | nil => rfl
  | cons hread _ => simp [hread.1]

/-- **Lazy, shallow and deep access agree.** On a document that `from_bytes` accepted, both decoders
return the same, and if they return a document, then so do iteration, lookup and `command`, field by
field. -/
theorem access_agrees (b : Bytes) (raw : RawDocument) (hraw : fromBytes b = .ok raw) :
    raw.shallow = raw.deep ∧
    ∀ d, raw.deep = .ok d →
      (∃ items : List RawElem, raw.fields = items.map .ok ∧
        List.Forall₂ (fun item field => item.1 = field.name ∧ item.2.toBson = .ok field.value ∧
          item.2.deep = .ok field.value) items d.fields) ∧
      (∀ key, (d.get key = none → raw.get key = .ok none) ∧
        ∀ value, d.get key = some value → ∃ v, raw.get key = .ok (some v) ∧ v.toBson = .ok value) ∧
      raw.command = .ok (d.command.getD "") := by
  refine ⟨raw.shallow_eq_deep, ?_⟩
  intro d hd
  have hframed := ((fromBytes_eq_ok b raw).mp hraw).1
  obtain ⟨items, hyields, hall⟩ := exists_readsAs hd
  refine ⟨⟨items, (fields_eq_map_ok raw items).mpr hyields, hall⟩, ?_, ?_⟩
  · intro key
    obtain ⟨found, hget, hrel⟩ := get_of_readsAs hyields hall key
    constructor
    · intro hnone
      rw [hnone] at hrel
      cases hrel
      exact hget
    · intro value hvalue
      rw [hvalue] at hrel
      cases hrel with
      | some hbson => exact ⟨_, hget, hbson⟩
  · rw [command_of_yields hframed hyields, head?_readsAs hall]
    rfl

/-- `{"a": null, "a": [null]}`. -/
def twiceNamed : RawDocument :=
  .ofFramed [19, 0, 0, 0, 10, 97, 0, 4, 97, 0, 8, 0, 0, 0, 10, 48, 0, 0, 0] (by decide)

theorem access_agrees_twiceNamed :
    twiceNamed.shallow = twiceNamed.deep ∧
      (∃ v, twiceNamed.get "a" = .ok (some v) ∧ v.toBson = .ok .null) ∧
      twiceNamed.command = .ok "a" :=
  have h := access_agrees twiceNamed.bytes twiceNamed (by decide)
  have hfields := h.2 ⟨[⟨"a", .null⟩, ⟨"a", .array ⟨[.null]⟩⟩]⟩ rfl
  ⟨h.1, (hfields.2.1 "a").2 .null rfl, hfields.2.2⟩

end RawDocument

end MongoWire
