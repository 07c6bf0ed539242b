import MongoWire.Bson.Scan
import MongoWire.Bson.EncodeSpec

/-!
# From values to bytes and back

A value that encodes decodes to itself, unless it nests deeper than the decoder
follows.
-/

open MongoWire.Lib MongoWire.Lib.Outcome MongoWire.Io

namespace MongoWire

/-! ## Nesting depth and subtype range -/

mutual

/-- Levels of nesting, the document itself included. -/
def Document.depth : Document → Nat
  | ⟨fields⟩ => fieldsDepth fields + 1

def fieldsDepth : List Field → Nat
  | [] => 0
  | ⟨_, value⟩ :: rest => max value.depth (fieldsDepth rest)

def BsonArray.depth : BsonArray → Nat
  | ⟨values⟩ => valuesDepth values + 1

def valuesDepth : List Bson → Nat
  | [] => 0
  | value :: rest => max value.depth (valuesDepth rest)

/-- Only documents and arrays nest. The scope of code stays raw. -/
def Bson.depth : Bson → Nat
  | .document d => d.depth
  | .array a => a.depth
  | _ => 0

end

mutual

/-- Every `UserDefined` subtype inside is in its documented range. -/
def Document.InRange : Document → Prop
  | ⟨fields⟩ => FieldsInRange fields

def FieldsInRange : List Field → Prop
  | [] => True
  | ⟨_, value⟩ :: rest => value.InRange ∧ FieldsInRange rest

def BsonArray.InRange : BsonArray → Prop
  | ⟨values⟩ => ValuesInRange values

def ValuesInRange : List Bson → Prop
  | [] => True
  | value :: rest => value.InRange ∧ ValuesInRange rest

def Bson.InRange : Bson → Prop
  | .document d => d.InRange
  | .array a => a.InRange
  | .binary b => b.subtype.InRange
  | _ => True

end

theorem Bson.depth_ofScalar (s : Scalar) : (Bson.ofScalar s).depth = 0 := by
  cases s <;> rfl

theorem Bson.inRange_ofScalar (s : Scalar) : (Bson.ofScalar s).InRange ↔ s.InRange := by
  cases s <;> rfl

namespace Decode

/-! ## Decoding what the scanner yields -/

/-- `materialize` with `levels` of recursion left below it. -/
abbrev materializeAt (levels : Nat) (mode : Mode) (depth : Nat) (v : RawBsonRef) :
    Outcome BsonError Bson :=
  materialize (decodeFields levels) (decodeArray levels) v mode depth

theorem materializeAt_ofScalar (levels : Nat) (mode : Mode) (depth : Nat) (s : Scalar) :
    materializeAt levels mode depth (.ofScalar s) = .ok (.ofScalar s) := by
  cases s <;> cases mode <;> rfl

theorem length_le_flatMap_layout (items : List RawElem) :
    2 * items.length ≤ (items.flatMap RawElem.layout).length := by
  induction items with
  | nil => simp
  | cons f items ih =>
    simp only [List.length_cons, List.flatMap_cons, List.length_append, RawElem.layout,
      length_elemLayout]
    omega

theorem length_lt_of_yields {b : Bytes} {items : List RawElem}
    (h : Yields Scanner.next (.new b) items) : 2 * items.length < b.length := by
  obtain ⟨-, hleft⟩ := (Scanner.yields_iff _ (Scanner.over_new b) items).mp h
  have hlen := congrArg List.length hleft
  have := length_le_flatMap_layout items
  simp only [Scanner.left_new, List.length_drop, List.length_append, List.length_singleton] at hlen
  omega

section Yields

variable {b : Bytes} {items : List RawElem} (h : Yields Scanner.next (.new b) items)
  (levels : Nat) (mode : Mode) {depth : Nat} (hdepth : depth ≤ maxNestingDepth)

include h hdepth

theorem decodeFields_of_yields :
    decodeFields (levels + 1) b mode depth =
      items.mapM fun f => do return ⟨f.1, ← materializeAt levels mode depth f.2⟩ := by
  have hlt := length_lt_of_yields h
  have hpush := foldlM_push
    (fun f : RawElem => do return (⟨f.1, ← materializeAt levels mode depth f.2⟩ : Field)) items []
  rw [decodeFields, if_neg (by omega), whileSome_of_yields h _ _ (by omega)]
  simpa using hpush

theorem decodeArray_of_yields :
    decodeArray (levels + 1) b mode depth =
      items.mapM fun f => materializeAt levels mode depth f.2 := by
  have hlt := length_lt_of_yields h
  have hpush := foldlM_push (fun f : RawElem => materializeAt levels mode depth f.2) items []
  rw [decodeArray, if_neg (by omega), whileSome_of_yields h _ _ (by omega)]
  simpa using hpush

end Yields

theorem decodeFields_ok {levels : Nat} {b : Bytes} {mode : Mode} {depth : Nat} {fs : List Field}
    (h : decodeFields levels b mode depth = .ok fs) :
    ∃ n items, levels = n + 1 ∧ depth ≤ maxNestingDepth ∧ Yields Scanner.next (.new b) items ∧
      List.Forall₂ (fun f g => ∃ v, g = ⟨f.1, v⟩ ∧ materializeAt n mode depth f.2 = .ok v)
        items fs := by
  cases levels with
  | zero => cases h
  | succ n =>
    have hloop := h
    rw [decodeFields, ite_err_eq_ok] at hloop
    obtain ⟨hdepth, hloop⟩ := hloop
    obtain ⟨items, hyields, -⟩ := yields_of_whileSome _ _ _ _ hloop
    refine ⟨n, items, rfl, by omega, hyields, ?_⟩
    rw [decodeFields_of_yields hyields n mode (by omega), mapM_eq_ok] at h
    refine h.imp fun f g hfg => ?_
    simp only [bind_eq_ok, pure_eq, ok.injEq] at hfg
    obtain ⟨v, hv, rfl⟩ := hfg
    exact ⟨v, rfl, hv⟩

theorem decodeArray_ok {levels : Nat} {b : Bytes} {mode : Mode} {depth : Nat} {vs : List Bson}
    (h : decodeArray levels b mode depth = .ok vs) :
    ∃ n items, levels = n + 1 ∧ depth ≤ maxNestingDepth ∧ Yields Scanner.next (.new b) items ∧
      List.Forall₂ (fun f v => materializeAt n mode depth f.2 = .ok v) items vs := by
  cases levels with
  | zero => cases h
  | succ n =>
    have hloop := h
    rw [decodeArray, ite_err_eq_ok] at hloop
    obtain ⟨hdepth, hloop⟩ := hloop
    obtain ⟨items, hyields, -⟩ := yields_of_whileSome _ _ _ _ hloop
    refine ⟨n, items, rfl, by omega, hyields, ?_⟩
    rwa [decodeArray_of_yields hyields n mode (by omega), mapM_eq_ok] at h

/-! ## Decoding a layout -/

/-- The outcome of decoding `a` when the deepest level inside it is `deepest`. -/
def upTo {α : Type} (deepest : Nat) (a : α) : Outcome BsonError α :=
  if deepest ≤ maxNestingDepth then .ok a else .err (.nestedTooDeep maxNestingDepth)

theorem upTo_ok {α : Type} {n : Nat} (h : n ≤ maxNestingDepth) (a : α) : upTo n a = .ok a :=
  if_pos h

theorem upTo_err {α : Type} {n : Nat} (h : maxNestingDepth < n) (a : α) :
    upTo n a = .err (.nestedTooDeep maxNestingDepth) :=
  if_neg (by omega)

theorem upTo_map {α β : Type} (n : Nat) (a : α) (f : α → β) :
    (do return f (← upTo n a)) = upTo n (f a) := by
  unfold upTo
  split <;> rfl

theorem upTo_bind_upTo {α β γ : Type} (m n : Nat) (a : α) (b : β) (f : α → β → γ) :
    (do let x ← upTo m a; let y ← upTo n b; return f x y) = upTo (max m n) (f a b) := by
  by_cases hm : m ≤ maxNestingDepth
  · by_cases hn : n ≤ maxNestingDepth
    · rw [upTo_ok hm, upTo_ok hn, upTo_ok (by omega)]; rfl
    · rw [upTo_ok hm, upTo_err (by omega), upTo_err (by omega)]; rfl
  · rw [upTo_err (n := m) (by omega), upTo_err (n := max m n) (by omega)]; rfl

/-- The raw value behind an eager one, and what the decoder makes of it. -/
structure DecodesAs (v : Bson) (raw : RawBsonRef) : Prop where
  tag : raw.tag = v.tag
  readable : raw.Readable
  layout : raw.layout = v.layout
  decode : ∀ levels mode depth, depth ≤ maxNestingDepth → maxNestingDepth < depth + levels →
    materializeAt levels mode depth raw = upTo (depth + v.depth) v

/-- The raw fields behind a list of fields. -/
structure FieldsDecodeAs (fs : List Field) (items : List RawElem) : Prop where
  readable : ∀ f ∈ items, f.Readable
  layout : items.flatMap RawElem.layout = fieldsLayout fs
  decode : ∀ levels mode depth, depth ≤ maxNestingDepth → maxNestingDepth < depth + levels →
    (items.mapM fun f => do return (⟨f.1, ← materializeAt levels mode depth f.2⟩ : Field)) =
      upTo (depth + fieldsDepth fs) fs

/-- The raw elements behind the values of an array from index `i` on. -/
structure ValuesDecodeAs (i : Nat) (vs : List Bson) (items : List RawElem) : Prop where
  readable : ∀ f ∈ items, f.Readable
  layout : items.flatMap RawElem.layout = valuesLayout i vs
  decode : ∀ levels mode depth, depth ≤ maxNestingDepth → maxNestingDepth < depth + levels →
    (items.mapM fun f => materializeAt levels mode depth f.2) = upTo (depth + valuesDepth vs) vs

section Layout

variable {levels : Nat} (mode : Mode) {depth : Nat} (hdepth : depth ≤ maxNestingDepth + 1)
  (hlevels : maxNestingDepth + 1 < depth + levels)

include hdepth hlevels

theorem decodeFields_layout {fs : List Field} {items : List RawElem} (h : FieldsDecodeAs fs items)
    (hframed : Framed (frame (fieldsLayout fs))) :
    decodeFields levels (frame (fieldsLayout fs)) mode depth = upTo (depth + fieldsDepth fs) fs := by
  obtain ⟨n, rfl⟩ : ∃ n, levels = n + 1 := ⟨levels - 1, by omega⟩
  by_cases hlimit : depth ≤ maxNestingDepth
  · have hyields := (Scanner.yields_new hframed items).mpr ⟨h.readable, by rw [h.layout]⟩
    rw [decodeFields_of_yields hyields n mode hlimit, h.decode n mode depth hlimit (by omega)]
  · rw [decodeFields, if_pos (by omega), upTo_err (by omega)]

theorem decodeArray_layout {vs : List Bson} {items : List RawElem} (h : ValuesDecodeAs 0 vs items)
    (hframed : Framed (frame (valuesLayout 0 vs))) :
    decodeArray levels (frame (valuesLayout 0 vs)) mode depth = upTo (depth + valuesDepth vs) vs := by
  obtain ⟨n, rfl⟩ : ∃ n, levels = n + 1 := ⟨levels - 1, by omega⟩
  by_cases hlimit : depth ≤ maxNestingDepth
  · have hyields := (Scanner.yields_new hframed items).mpr ⟨h.readable, by rw [h.layout]⟩
    rw [decodeArray_of_yields hyields n mode hlimit, h.decode n mode depth hlimit (by omega)]
  · rw [decodeArray, if_pos (by omega), upTo_err (by omega)]

end Layout

theorem decodesAs_document {fs : List Field} {items : List RawElem}
    (hframed : Framed (frame (fieldsLayout fs))) (h : FieldsDecodeAs fs items) :
    DecodesAs (.document ⟨fs⟩) (.document (.ofFramed _ hframed)) where
  tag := rfl
  readable := hframed
  layout := rfl
  decode levels mode depth hdepth hlevels := by
    simp only [materializeAt, materialize, RawDocument.ofFramed, Bson.depth, Document.depth]
    rw [decodeFields_layout mode (by omega) (by omega) h hframed, upTo_map, Nat.add_right_comm,
      Nat.add_assoc]

theorem decodesAs_array {vs : List Bson} {items : List RawElem}
    (hframed : Framed (frame (valuesLayout 0 vs))) (h : ValuesDecodeAs 0 vs items) :
    DecodesAs (.array ⟨vs⟩) (.array ⟨_, .inr hframed⟩) where
  tag := rfl
  readable := hframed
  layout := rfl
  decode levels mode depth hdepth hlevels := by
    simp only [materializeAt, materialize, Bson.depth, BsonArray.depth]
    rw [decodeArray_layout mode (by omega) (by omega) h hframed, upTo_map, Nat.add_right_comm,
      Nat.add_assoc]

theorem decodesAs_scope {code : String} {scope : RawDocument} (hframed : Framed scope.bytes)
    (hlt : (scopeLayout code scope).length < 2 ^ 31) :
    DecodesAs (.javaScriptScope code scope) (.javaScriptScope code scope) where
  tag := rfl
  readable := ⟨hframed, by omega⟩
  layout := rfl
  decode levels mode depth hdepth _ := (upTo_ok hdepth _).symm

theorem decodesAs_scalar {s : Scalar} (hfits : s.Fits (2 ^ 31)) (hrange : s.InRange) :
    DecodesAs (.ofScalar s) (.ofScalar s) where
  tag := by simp [RawBsonRef.tag]
  readable := by
    simp only [RawBsonRef.Readable, RawBsonRef.elim_ofScalar]
    exact ⟨hfits.mono (by omega), hrange⟩
  layout := by simp [RawBsonRef.layout]
  decode levels mode depth hdepth _ := by
    rw [materializeAt_ofScalar, Bson.depth_ofScalar, Nat.add_zero, upTo_ok hdepth]

theorem fieldsDecodeAs_cons {name : String} {v : Bson} {fs : List Field} {raw : RawBsonRef}
    {items : List RawElem} (hname : (0 : UInt8) ∉ utf8 name) (hv : DecodesAs v raw)
    (hfs : FieldsDecodeAs fs items) : FieldsDecodeAs (⟨name, v⟩ :: fs) ((name, raw) :: items) where
  readable := List.forall_mem_cons.mpr ⟨⟨hname, hv.readable⟩, hfs.readable⟩
  layout := by
    rw [List.flatMap_cons, hfs.layout, RawElem.layout, hv.tag, hv.layout, fieldsLayout]
  decode levels mode depth hdepth hlevels := by
    rw [List.mapM_cons, hfs.decode levels mode depth hdepth hlevels,
      hv.decode levels mode depth hdepth hlevels, fieldsDepth, ← max_add_add_left,
      ← upTo_bind_upTo _ _ v fs fun v fs => ⟨name, v⟩ :: fs]
    simp

theorem valuesDecodeAs_cons {i : Nat} {v : Bson} {vs : List Bson} {raw : RawBsonRef}
    {items : List RawElem} (hv : DecodesAs v raw) (hvs : ValuesDecodeAs (i + 1) vs items) :
    ValuesDecodeAs i (v :: vs) ((toString i, raw) :: items) where
  readable := List.forall_mem_cons.mpr ⟨⟨nul_not_mem_toString i, hv.readable⟩, hvs.readable⟩
  layout := by
    rw [List.flatMap_cons, hvs.layout, RawElem.layout, hv.tag, hv.layout, valuesLayout]
  decode levels mode depth hdepth hlevels := by
    rw [List.mapM_cons, hvs.decode levels mode depth hdepth hlevels,
      hv.decode levels mode depth hdepth hlevels, valuesDepth, ← max_add_add_left,
      ← upTo_bind_upTo _ _ v vs fun v vs => v :: vs]

theorem exists_decodesAs :
    (∀ v : Bson, v.Encodable → v.InRange → ∃ raw, DecodesAs v raw) ∧
    (∀ fs, FieldsEncodable fs → FieldsInRange fs → ∃ items, FieldsDecodeAs fs items) ∧
    (∀ vs, ValuesEncodable vs → ValuesInRange vs → ∀ i, ∃ items, ValuesDecodeAs i vs items) := by
  apply Bson.induction
  case document =>
    rintro fs ih ⟨hlt, henc⟩ hrange
    obtain ⟨items, hitems⟩ := ih henc hrange
    exact ⟨_, decodesAs_document (framed_frame _ (by rw [length_frame] at hlt; omega)) hitems⟩
  case array =>
    rintro vs ih ⟨hlt, henc⟩ hrange
    obtain ⟨items, hitems⟩ := ih henc hrange 0
    exact ⟨_, decodesAs_array (framed_frame _ (by rw [length_frame] at hlt; omega)) hitems⟩
  case scope =>
    rintro code s ⟨hframed, hlt⟩ -
    exact ⟨_, decodesAs_scope hframed hlt⟩
  case scalar =>
    intro s henc hrange
    exact ⟨_, decodesAs_scalar ((Bson.encodable_ofScalar s).mp henc)
      ((Bson.inRange_ofScalar s).mp hrange)⟩
  case noFields =>
    intro _ _
    exact ⟨[], by simp, rfl, fun _ _ _ hdepth _ => (upTo_ok hdepth _).symm⟩
  case field =>
    rintro name v fs hv hfs ⟨hname, hencv, hencfs⟩ ⟨hrv, hrfs⟩
    obtain ⟨raw, hraw⟩ := hv hencv hrv
    obtain ⟨items, hitems⟩ := hfs hencfs hrfs
    exact ⟨_, fieldsDecodeAs_cons hname hraw hitems⟩
  case noValues =>
    intro _ _ i
    exact ⟨[], by simp, rfl, fun _ _ _ hdepth _ => (upTo_ok hdepth _).symm⟩
  case element =>
    rintro v vs hv hvs ⟨hencv, hencvs⟩ ⟨hrv, hrvs⟩ i
    obtain ⟨raw, hraw⟩ := hv hencv hrv
    obtain ⟨items, hitems⟩ := hvs hencvs hrvs (i + 1)
    exact ⟨_, valuesDecodeAs_cons hraw hitems⟩

end Decode

/-! ## The public decoders -/

open Decode

theorem RawDocument.decode_layout {d : Document} (henc : d.Encodable) (hrange : d.InRange)
    {raw : RawDocument} (hraw : raw.bytes = d.layout) (mode : Mode) :
    raw.decode mode = upTo d.depth d := by
  obtain ⟨fields⟩ := d
  obtain ⟨items, hitems⟩ := exists_decodesAs.2.1 fields henc.2 hrange
  rw [RawDocument.decode, hraw, Document.layout, Document.depth,
    decodeFields_layout mode (by omega) (by omega) hitems (Document.framed_layout henc), upTo_map,
    Nat.add_comm]

theorem RawArray.decode_layout {a : BsonArray} (henc : a.Encodable) (hrange : a.InRange)
    {raw : RawArray} (hraw : raw.bytes = a.layout) (mode : Mode) :
    raw.decode mode = upTo a.depth a := by
  obtain ⟨values⟩ := a
  obtain ⟨items, hitems⟩ := exists_decodesAs.2.2 values henc.2 hrange 0
  rw [RawArray.decode, hraw, BsonArray.layout, BsonArray.depth,
    decodeArray_layout mode (by omega) (by omega) hitems (BsonArray.framed_layout henc), upTo_map,
    Nat.add_comm]

/-- **Values survive the wire.** What encodes decodes to itself up to the nesting limit, and is
refused as nested too deep beyond it. -/
theorem deep_encode :
    (∀ (d : Document) (raw : RawDocument), d.InRange → d.encode = .ok raw →
      (d.depth ≤ maxNestingDepth → raw.deep = .ok d) ∧
      (maxNestingDepth < d.depth → raw.deep = .err (.nestedTooDeep maxNestingDepth))) ∧
    (∀ (a : BsonArray) (raw : RawArray), a.InRange → a.encode = .ok raw →
      (a.depth ≤ maxNestingDepth → raw.deep = .ok a) ∧
      (maxNestingDepth < a.depth → raw.deep = .err (.nestedTooDeep maxNestingDepth))) := by
  constructor
  · intro d raw hrange henc
    obtain ⟨henc, hraw⟩ := (Document.encode_eq_ok d raw).mp henc
    rw [RawDocument.deep, RawDocument.decode_layout henc hrange hraw]
    exact ⟨fun h => upTo_ok h d, fun h => upTo_err h d⟩
  · intro a raw hrange henc
    obtain ⟨henc, hraw⟩ := (BsonArray.encode_eq_ok a raw).mp henc
    rw [RawArray.deep, RawArray.decode_layout henc hrange hraw]
    exact ⟨fun h => upTo_ok h a, fun h => upTo_err h a⟩

/-- `n` documents around an array of two elements. -/
def nestedDocument : Nat → Document
  | 0 => ⟨[⟨"a", .array ⟨[.bool true, .binary ⟨.userDefined 0x80, [1, 2]⟩]⟩⟩]⟩
  | n + 1 => ⟨[⟨"d", .document (nestedDocument n)⟩]⟩

theorem deep_encode_nested :
    (∃ raw, (nestedDocument 18).encode = .ok raw ∧ raw.deep = .ok (nestedDocument 18)) ∧
    (∃ raw, (nestedDocument 19).encode = .ok raw ∧ raw.deep = .err (.nestedTooDeep 20)) ∧
    (∃ raw, (BsonArray.mk [.null]).encode = .ok raw ∧ raw.deep = .ok ⟨[.null]⟩) := by
  -- Twenty levels come back, and twenty-one are refused; an array likewise.
  refine ⟨⟨.ofFramed (nestedDocument 18).layout (by decide +kernel), by decide +kernel, ?_⟩,
    ⟨.ofFramed (nestedDocument 19).layout (by decide +kernel), by decide +kernel, ?_⟩,
    ⟨⟨(BsonArray.mk [.null]).layout, .inr (by decide +kernel)⟩, by decide, ?_⟩⟩
  · exact (deep_encode.1 (nestedDocument 18) _ (by simp [nestedDocument, Document.InRange,
      FieldsInRange, Bson.InRange, BsonArray.InRange, ValuesInRange, BinarySubtype.InRange])
      (by decide +kernel)).1 (by decide)
  · exact (deep_encode.1 (nestedDocument 19) _ (by simp [nestedDocument, Document.InRange,
      FieldsInRange, Bson.InRange, BsonArray.InRange, ValuesInRange, BinarySubtype.InRange])
      (by decide +kernel)).2 (by decide)
  · exact (deep_encode.2 ⟨[.null]⟩ _ (by simp [BsonArray.InRange, ValuesInRange, Bson.InRange])
      (by decide)).1 (by decide)

end MongoWire
