import MongoWire.Lib.SelfDelimiting
import MongoWire.Bson.RoundTrip
import MongoWire.Common.Consts

/-!
# From bytes to values and back

The decoder forgets one thing only: the names of array elements. So decoding
and encoding again gives the same bytes exactly when those names were the
indices, and gives a fixed point in any case.
-/

open MongoWire.Lib MongoWire.Lib.Outcome MongoWire.Io MongoWire.Decode

namespace MongoWire

/-! ## Canonical names -/

namespace RawBsonRef

/-- `w` is `v`, or stands among the fields of the document or array `v` at some depth. Scopes are
not entered. -/
inductive Within : RawBsonRef → RawBsonRef → Prop where
  | self (v : RawBsonRef) : Within v v
  | field {d : RawDocument} {items : List RawElem} {f : RawElem} {w : RawBsonRef} :
      Yields Scanner.next (.new d.bytes) items → f ∈ items → Within f.2 w → Within (.document d) w
  | element {a : RawArray} {items : List RawElem} {f : RawElem} {w : RawBsonRef} :
      Yields Scanner.next (.new a.bytes) items → f ∈ items → Within f.2 w → Within (.array a) w

/-- The names on the wire are `"0"`, `"1"`, `"2"`, … in order. -/
def IndexNames (items : List RawElem) : Prop :=
  items.map Prod.fst = (List.range items.length).map toString

/-- Every array within `v` names its elements by their indices. -/
def CanonicalNames (v : RawBsonRef) : Prop :=
  ∀ a items, Within v (.array a) → Yields Scanner.next (.new a.bytes) items → IndexNames items

theorem canonicalNames_document {d : RawDocument} {items : List RawElem}
    (h : Yields Scanner.next (.new d.bytes) items) :
    CanonicalNames (.document d) ↔ ∀ f ∈ items, CanonicalNames f.2 := by
  constructor
  · intro hd f hf a xs hw hxs
    exact hd a xs (.field h hf hw) hxs
  · intro hall a xs hw hxs
    cases hw with
    | field hitems hf hw =>
      cases h.unique hitems
      exact hall _ hf a xs hw hxs

theorem canonicalNames_array {a : RawArray} {items : List RawElem}
    (h : Yields Scanner.next (.new a.bytes) items) :
    CanonicalNames (.array a) ↔ IndexNames items ∧ ∀ f ∈ items, CanonicalNames f.2 := by
  constructor
  · intro ha
    exact ⟨ha a items (.self _) h, fun f hf b xs hw hxs => ha b xs (.element h hf hw) hxs⟩
  · rintro ⟨hnames, hall⟩ b xs hw hxs
    cases hw with
    | self => rw [← h.unique hxs]; exact hnames
    | element hitems hf hw =>
      cases h.unique hitems
      exact hall _ hf b xs hw hxs

theorem canonicalNames_scope (code : String) (scope : RawDocument) :
    CanonicalNames (.javaScriptScope code scope) := by
  intro a xs hw _
  cases hw

theorem canonicalNames_ofScalar (s : Scalar) : CanonicalNames (.ofScalar s) := by
  intro a xs hw _
  cases s <;> cases hw

end RawBsonRef

/-! ## Layouts determine what they are layouts of -/

theorem RawElem.selfDelimiting : SelfDelimiting RawElem.Readable RawElem.layout where
  ne_nil := by simp [RawElem.layout, elemLayout]
  unique := by
    intro f g s t hf hg h
    let sc : Scanner := .new (leBytes 4 0 ++ (f.layout ++ s))
    have hleft : sc.left = f.layout ++ s := by
      rw [Scanner.left_new, List.drop_left' (length_leBytes 4 0)]
    have hnextf := (Scanner.next_eq_some sc _ (Scanner.over_new _) f).mpr ⟨hf, rfl, s, hleft⟩
    have hnextg := (Scanner.next_eq_some sc _ (Scanner.over_new _) g).mpr
      ⟨hg, rfl, t, hleft.trans h⟩
    rw [hnextf] at hnextg
    simp only [ok.injEq, Option.some.injEq, Prod.mk.injEq] at hnextg
    exact hnextg.1

theorem frame_injective {x y : Bytes} (h : frame x = frame y) : x = y := by
  have := congrArg (List.drop 4) h
  rw [drop_frame, drop_frame] at this
  exact List.append_cancel_right this

theorem Scalar.fits_of_length {s : Scalar} (h : s.Fits (2 ^ 32)) (hlen : s.layout.length < 2 ^ 31) :
    s.Fits (2 ^ 31) := by
  cases s with
  | string v | javaScript v | symbol v =>
    simp only [layout, length_strLayout, Fits] at hlen ⊢; omega
  | dbPointer p =>
    simp only [layout, List.length_append, length_strLayout, Fits] at hlen ⊢; omega
  | binary b =>
    simp only [layout, Binary.layout, Fits, List.length_append, length_leBytes, List.length_cons,
      BinarySubtype.extra] at hlen ⊢
    split <;> simp_all <;> omega
  | regex r => exact h
  | _ => trivial

/-! ## What decoding keeps -/

/-- What holds of a value decoded from `raw` at nesting level `depth`. -/
structure Reencodes (depth : Nat) (v : Bson) (raw : RawBsonRef) : Prop where
  tag : v.tag = raw.tag
  encodable : v.Encodable
  inRange : v.InRange
  depth : depth + v.depth ≤ maxNestingDepth
  /-- Indices are at most eight digits long, and an element is at least two bytes long. -/
  length : v.layout.length ≤ 5 * raw.layout.length
  exact : v.layout = raw.layout ↔ raw.CanonicalNames

theorem Reencodes.elem_exact {depth : Nat} {v : Bson} {raw : RawBsonRef} (h : Reencodes depth v raw)
    {name wireName : String} (hname : (0 : UInt8) ∉ utf8 name)
    (hread : RawElem.Readable (wireName, raw)) (s t : Bytes) :
    elemLayout v.tag name v.layout ++ s = RawElem.layout (wireName, raw) ++ t ↔
      (wireName = name ∧ raw.CanonicalNames) ∧ s = t := by
  constructor
  · intro heq
    obtain ⟨raw', hraw'⟩ := exists_decodesAs.1 v h.encodable h.inRange
    have helem : elemLayout v.tag name v.layout = RawElem.layout (name, raw') := by
      rw [RawElem.layout, hraw'.tag, hraw'.layout]
    rw [helem] at heq
    obtain ⟨hpair, hst⟩ := RawElem.selfDelimiting.append_inj ⟨hname, hraw'.readable⟩ hread heq
    cases hpair
    exact ⟨⟨rfl, h.exact.mp hraw'.layout.symm⟩, hst⟩
  · rintro ⟨⟨rfl, hcanon⟩, rfl⟩
    rw [RawElem.layout, h.tag, h.exact.mpr hcanon]

theorem Reencodes.of_scalar {s : Scalar} {depth : Nat} (hdepth : depth ≤ maxNestingDepth)
    (hread : (RawBsonRef.ofScalar s).Readable)
    (hlen : (RawBsonRef.ofScalar s).layout.length ≤ maxMsgLen) :
    Reencodes depth (.ofScalar s) (.ofScalar s) := by
  simp only [RawBsonRef.Readable, RawBsonRef.layout, RawBsonRef.elim_ofScalar] at hread hlen
  have hlayout : (Bson.ofScalar s).layout = (RawBsonRef.ofScalar s).layout := by
    simp [RawBsonRef.layout]
  have hfits := Scalar.fits_of_length hread.1 (by simp only [maxMsgLen] at hlen; omega)
  exact {
    tag := by simp [RawBsonRef.tag]
    encodable := (Bson.encodable_ofScalar s).mpr hfits
    inRange := (Bson.inRange_ofScalar s).mpr hread.2
    depth := by rw [Bson.depth_ofScalar, Nat.add_zero]; exact hdepth
    length := by rw [hlayout]; omega
    exact := ⟨fun _ => RawBsonRef.canonicalNames_ofScalar s, fun _ => hlayout⟩ }

theorem Reencodes.of_scope {code : String} {scope : RawDocument} {depth : Nat}
    (hdepth : depth ≤ maxNestingDepth) (hread : (RawBsonRef.javaScriptScope code scope).Readable)
    (hlen : (RawBsonRef.javaScriptScope code scope).layout.length ≤ maxMsgLen) :
    Reencodes depth (.javaScriptScope code scope) (.javaScriptScope code scope) where
  tag := rfl
  encodable := ⟨hread.1, Nat.lt_of_le_of_lt hlen (by decide)⟩
  inRange := trivial
  depth := hdepth
  length := Nat.le_mul_of_pos_left _ (by omega)
  exact := ⟨fun _ => RawBsonRef.canonicalNames_scope code scope, fun _ => rfl⟩

/-! ### Lists of fields and of array elements -/

/-- What holds of a list of fields decoded from `items`. -/
structure FieldsReencode (depth : Nat) (fs : List Field) (items : List RawElem) : Prop where
  encodable : FieldsEncodable fs
  inRange : FieldsInRange fs
  depth : depth + fieldsDepth fs ≤ maxNestingDepth
  length : (fieldsLayout fs).length ≤ 5 * (items.flatMap RawElem.layout).length
  exact : fieldsLayout fs = items.flatMap RawElem.layout ↔ ∀ f ∈ items, f.2.CanonicalNames

/-- What holds of array elements decoded from `items` and renamed from index `i` on. -/
structure ValuesReencode (depth i : Nat) (vs : List Bson) (items : List RawElem) : Prop where
  encodable : ValuesEncodable vs
  inRange : ValuesInRange vs
  depth : depth + valuesDepth vs ≤ maxNestingDepth
  length : (valuesLayout i vs).length ≤ 5 * (items.flatMap RawElem.layout).length
  exact : valuesLayout i vs = items.flatMap RawElem.layout ↔
    items.map Prod.fst = (List.range' i items.length).map toString ∧
      ∀ f ∈ items, f.2.CanonicalNames

theorem FieldsReencode.nil {depth : Nat} (hdepth : depth ≤ maxNestingDepth) :
    FieldsReencode depth [] [] where
  encodable := trivial
  inRange := trivial
  depth := hdepth
  length := Nat.le_refl _
  exact := by simp [fieldsLayout]

theorem FieldsReencode.cons {depth : Nat} {v : Bson} {f : RawElem} {fs : List Field}
    {items : List RawElem} (hread : f.Readable) (hv : Reencodes depth v f.2)
    (hfs : FieldsReencode depth fs items) : FieldsReencode depth (⟨f.1, v⟩ :: fs) (f :: items) where
  encodable := ⟨hread.1, hv.encodable, hfs.encodable⟩
  inRange := ⟨hv.inRange, hfs.inRange⟩
  depth := by
    have := hv.depth
    have := hfs.depth
    rw [fieldsDepth]
    omega
  length := by
    have := hv.length
    have := hfs.length
    simp only [fieldsLayout, List.flatMap_cons, List.length_append, length_elemLayout,
      RawElem.layout] at *
    omega
  exact := by
    rw [fieldsLayout, List.flatMap_cons, hv.elem_exact hread.1 hread, hfs.exact,
      List.forall_mem_cons]
    simp

theorem ValuesReencode.nil {depth : Nat} (hdepth : depth ≤ maxNestingDepth) (i : Nat) :
    ValuesReencode depth i [] [] where
  encodable := trivial
  inRange := trivial
  depth := hdepth
  length := Nat.le_refl _
  exact := by simp [valuesLayout]

theorem ValuesReencode.cons {depth i : Nat} {v : Bson} {f : RawElem} {vs : List Bson}
    {items : List RawElem} (hi : i < 10 ^ 8) (hread : f.Readable) (hv : Reencodes depth v f.2)
    (hvs : ValuesReencode depth (i + 1) vs items) :
    ValuesReencode depth i (v :: vs) (f :: items) where
  encodable := ⟨hv.encodable, hvs.encodable⟩
  inRange := ⟨hv.inRange, hvs.inRange⟩
  depth := by
    have := hv.depth
    have := hvs.depth
    rw [valuesDepth]
    omega
  length := by
    have := hv.length
    have := hvs.length
    have := length_toString_le i 8 (by omega) hi
    simp only [valuesLayout, List.flatMap_cons, List.length_append, length_elemLayout,
      RawElem.layout] at *
    omega
  exact := by
    rw [valuesLayout, List.flatMap_cons, hv.elem_exact (nul_not_mem_toString i) hread, hvs.exact,
      List.forall_mem_cons, List.map_cons, List.length_cons, List.range'_succ, List.map_cons,
      List.cons.injEq]
    tauto

theorem fieldsReencode_of_forall₂ {depth : Nat} (hdepth : depth ≤ maxNestingDepth)
    {items : List RawElem} {fs : List Field} (hread : ∀ f ∈ items, f.Readable)
    (h : List.Forall₂ (fun f g => ∃ v, g = ⟨f.1, v⟩ ∧ Reencodes depth v f.2) items fs) :
    FieldsReencode depth fs items := by
  induction h with
  | nil => exact .nil hdepth
  | cons hf _ ih =>
    obtain ⟨v, rfl, hv⟩ := hf
    obtain ⟨hread, hrest⟩ := List.forall_mem_cons.mp hread
    exact .cons hread hv (ih hrest)

theorem valuesReencode_of_forall₂ {depth : Nat} (hdepth : depth ≤ maxNestingDepth)
    {items : List RawElem} {vs : List Bson} (hread : ∀ f ∈ items, f.Readable)
    (h : List.Forall₂ (fun f v => Reencodes depth v f.2) items vs) (i : Nat)
    (hi : i + items.length < 10 ^ 8) : ValuesReencode depth i vs items := by
  induction h generalizing i with
  | nil => exact .nil hdepth i
  | cons hv _ ih =>
    obtain ⟨hread, hrest⟩ := List.forall_mem_cons.mp hread
    rw [List.length_cons] at hi
    exact .cons (by omega) hread hv (ih hrest (i + 1) (by omega))

/-! ### Composites -/

theorem length_frame_lt {x y : Bytes} (h : x.length ≤ 5 * y.length)
    (hy : (frame y).length ≤ maxMsgLen) : (frame x).length < 2 ^ 31 := by
  simp only [length_frame, maxMsgLen] at *
  omega

theorem frame_eq_frame (x y : Bytes) : frame x = frame y ↔ x = y :=
  ⟨frame_injective, fun h => h ▸ rfl⟩

theorem Reencodes.of_document {depth : Nat} {d : RawDocument} {fs : List Field}
    {items : List RawElem} (hyields : Yields Scanner.next (.new d.bytes) items)
    (hbytes : d.bytes = frame (items.flatMap RawElem.layout)) (hlen : d.bytes.length ≤ maxMsgLen)
    (h : FieldsReencode (depth + 1) fs items) : Reencodes depth (.document ⟨fs⟩) (.document d) where
  tag := rfl
  encodable := ⟨length_frame_lt h.length (hbytes ▸ hlen), h.encodable⟩
  inRange := h.inRange
  depth := by
    have := h.depth
    simp only [Bson.depth, Document.depth]
    omega
  length := by
    have := h.length
    simp only [Bson.layout, Document.layout, RawBsonRef.layout, RawBsonRef.elim, hbytes,
      length_frame]
    omega
  exact := by
    show frame (fieldsLayout fs) = d.bytes ↔ _
    rw [hbytes, frame_eq_frame, h.exact, RawBsonRef.canonicalNames_document hyields]

theorem Reencodes.of_array {depth : Nat} {a : RawArray} {vs : List Bson} {items : List RawElem}
    (hyields : Yields Scanner.next (.new a.bytes) items)
    (hbytes : a.bytes = frame (items.flatMap RawElem.layout)) (hlen : a.bytes.length ≤ maxMsgLen)
    (h : ValuesReencode (depth + 1) 0 vs items) : Reencodes depth (.array ⟨vs⟩) (.array a) where
  tag := rfl
  encodable := ⟨length_frame_lt h.length (hbytes ▸ hlen), h.encodable⟩
  inRange := h.inRange
  depth := by
    have := h.depth
    simp only [Bson.depth, BsonArray.depth]
    omega
  length := by
    have := h.length
    simp only [Bson.layout, BsonArray.layout, RawBsonRef.layout, RawBsonRef.elim, hbytes,
      length_frame]
    omega
  exact := by
    show frame (valuesLayout 0 vs) = a.bytes ↔ _
    rw [hbytes, frame_eq_frame, h.exact, RawBsonRef.canonicalNames_array hyields,
      RawBsonRef.IndexNames, List.range_eq_range']

theorem length_layout_le_of_mem {items : List RawElem} {f : RawElem} (h : f ∈ items) :
    f.2.layout.length ≤ (frame (items.flatMap RawElem.layout)).length := by
  have hsub : f.layout.length ≤ (items.map RawElem.layout).flatten.length :=
    (List.sublist_flatten_of_mem (List.mem_map_of_mem h)).length_le
  have hle : f.2.layout.length ≤ f.layout.length := by rw [RawElem.layout, length_elemLayout]; omega
  rw [length_frame, List.flatMap_def]
  omega

theorem parts_readable {b : Bytes} {items : List RawElem}
    (hbytes : b = frame (items.flatMap RawElem.layout)) (hlen : b.length ≤ maxMsgLen)
    (hread : ∀ f ∈ items, f.Readable) :
    ∀ f ∈ items, f.2.Readable ∧ f.2.layout.length ≤ maxMsgLen := by
  intro f hf
  have := length_layout_le_of_mem hf
  rw [← hbytes] at this
  exact ⟨(hread f hf).2, by omega⟩

theorem reencodes_of_materializeAt (levels : Nat) (mode : Mode) :
    ∀ (depth : Nat) (raw : RawBsonRef) (v : Bson), depth ≤ maxNestingDepth → raw.Readable →
      raw.layout.length ≤ maxMsgLen → materializeAt levels mode depth raw = .ok v →
        Reencodes depth v raw := by
  -- the induction is on the levels of recursion left
  induction levels using Nat.strong_induction_on with
  | _ levels ih =>
    intro depth raw v hdepth hread hlen h
    cases raw using RawBsonRef.casesScalar with
    | scalar s =>
      rw [materializeAt_ofScalar] at h
      cases h
      exact .of_scalar hdepth hread hlen
    | scope code scope =>
      cases h
      exact .of_scope hdepth hread hlen
    | document d =>
      simp only [materializeAt, materialize, bind_eq_ok, pure_eq, ok.injEq] at h
      obtain ⟨fs, h, rfl⟩ := h
      obtain ⟨n, items, rfl, hdepth', hyields, hall⟩ := decodeFields_ok h
      obtain ⟨hreadAll, hbytes⟩ := (Scanner.yields_new hread items).mp hyields
      have hparts := parts_readable hbytes hlen hreadAll
      refine .of_document hyields hbytes hlen (fieldsReencode_of_forall₂ hdepth' hreadAll ?_)
      refine ((List.forall₂_and_left _ _).mpr ⟨hparts, hall⟩).imp ?_
      rintro f g ⟨⟨hf, hflen⟩, v, rfl, hv⟩
      exact ⟨v, rfl, ih n (by omega) (depth + 1) f.2 v hdepth' hf hflen hv⟩
    | array a =>
      simp only [materializeAt, materialize, bind_eq_ok, pure_eq, ok.injEq] at h
      obtain ⟨vs, h, rfl⟩ := h
      obtain ⟨n, items, rfl, hdepth', hyields, hall⟩ := decodeArray_ok h
      obtain ⟨hreadAll, hbytes⟩ := (Scanner.yields_new hread items).mp hyields
      have hparts := parts_readable hbytes hlen hreadAll
      have hcount : 0 + items.length < 10 ^ 8 := by
        have := length_lt_of_yields hyields
        have : a.bytes.length ≤ maxMsgLen := hlen
        simp only [maxMsgLen] at this
        omega
      refine .of_array hyields hbytes hlen (valuesReencode_of_forall₂ hdepth' hreadAll ?_ 0 hcount)
      refine ((List.forall₂_and_left _ _).mpr ⟨hparts, hall⟩).imp ?_
      rintro f v ⟨⟨hf, hflen⟩, hv⟩
      exact ih n (by omega) (depth + 1) f.2 v hdepth' hf hflen hv

theorem reencodes_of_deep {raw : RawDocument} (hframed : Framed raw.bytes)
    (hlen : raw.bytes.length ≤ maxMsgLen) {d : Document} (h : raw.deep = .ok d) :
    Reencodes 0 (.document d) (.document raw) := by
  refine reencodes_of_materializeAt (maxNestingDepth + 1) .deep 0 _ _ (by omega) hframed hlen ?_
  simp only [RawDocument.deep, RawDocument.decode, bind_eq_ok, pure_eq, ok.injEq] at h
  obtain ⟨fs, hfs, rfl⟩ := h
  simp [materializeAt, materialize, hfs]

/-- **Bytes settle after one pass.** What decodes encodes again, to bytes that decode to the same
value and encode to themselves, and these are the bytes on the wire exactly when every array names
its elements by their indices. -/
theorem encode_deep (b : Bytes) (hlen : b.length ≤ maxMsgLen) (raw : RawDocument)
    (hraw : RawDocument.fromBytes b = .ok raw) (d : Document) (hdeep : raw.deep = .ok d) :
    ∃ re1, d.encode = .ok re1 ∧ re1.deep = .ok d ∧
      (do let d' ← re1.deep; d'.encode) = .ok re1 ∧
      (re1.bytes = b ↔ RawBsonRef.CanonicalNames (.document raw)) := by
  obtain ⟨hframed, rfl⟩ := (RawDocument.fromBytes_eq_ok b raw).mp hraw
  have h := reencodes_of_deep hframed hlen hdeep
  have henc : d.encode = .ok (.ofFramed d.layout (Document.framed_layout h.encodable)) :=
    (Document.encode_eq_ok d _).mpr ⟨h.encodable, rfl⟩
  have hback : (RawDocument.ofFramed d.layout (Document.framed_layout h.encodable)).deep = .ok d := by
    have hdepth := h.depth
    rw [Nat.zero_add] at hdepth
    exact (RawDocument.decode_layout h.encodable h.inRange rfl .deep).trans (upTo_ok hdepth d)
  refine ⟨_, henc, hback, ?_, h.exact⟩
  rw [hback, ok_bind, henc]

/-- `{"a": [null]}` with the element named `"x"` on the wire. -/
def renamedElement : Bytes := [16, 0, 0, 0, 4, 97, 0, 8, 0, 0, 0, 10, 120, 0, 0, 0]

theorem encode_deep_renamedElement :
    ∃ re1, (Document.mk [⟨"a", .array ⟨[.null]⟩⟩]).encode = .ok re1 ∧
      re1.deep = .ok ⟨[⟨"a", .array ⟨[.null]⟩⟩]⟩ ∧
      (do let d' ← re1.deep; d'.encode) = .ok re1 ∧
      (re1.bytes = renamedElement ↔
        RawBsonRef.CanonicalNames (.document (.ofFramed renamedElement (by decide)))) :=
  encode_deep renamedElement (by decide) (.ofFramed renamedElement (by decide)) (by decide)
    ⟨[⟨"a", .array ⟨[.null]⟩⟩]⟩ rfl

end MongoWire
