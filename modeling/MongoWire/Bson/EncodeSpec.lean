import MongoWire.Bson.Layout

/-!
# The encoder writes exactly the layouts

`Encodable` says what the encoder demands of a value. On such a value it
appends the layout, whatever the buffer held before, and on any other value it
fails.
-/

open MongoWire.Lib MongoWire.Lib.Outcome MongoWire.Io

namespace MongoWire

/-! ## Scalars -/

namespace Scalar

theorem lenOrOutOfRange_eq_ok (n : Nat) (v : Int32) :
    lenOrOutOfRange n = .ok v ↔ n < 2 ^ 31 ∧ Int32.ofNat n = v := by
  rw [lenOrOutOfRange, ofOption_eq_ok, i32TryFrom_eq_some]

theorem encodeString_eq_ok (v : String) (out out' : Bytes) :
    encodeString v out = .ok out' ↔ (utf8 v).length + 1 < 2 ^ 31 ∧ out' = out ++ strLayout v := by
  simp only [encodeString, bind_eq_ok, lenOrOutOfRange_eq_ok, pure_eq, ok.injEq, putU8, putBytes,
    putI32Le]
  constructor
  · rintro ⟨_, ⟨hlt, rfl⟩, rfl⟩
    rw [i32ToLe_ofNat _ hlt]
    exact ⟨hlt, by simp [strLayout, cstrLayout]⟩
  · rintro ⟨hlt, rfl⟩
    refine ⟨_, ⟨hlt, rfl⟩, ?_⟩
    rw [i32ToLe_ofNat _ hlt]
    simp [strLayout, cstrLayout]

theorem encodeBinary_eq_ok (b : Binary) (out out' : Bytes) :
    encodeBinary b out = .ok out' ↔
      b.bytes.length + b.subtype.extra < 2 ^ 31 ∧ out' = out ++ b.layout := by
  simp only [encodeBinary, bind_eq_ok, lenOrOutOfRange_eq_ok, putU8, putBytes, putI32Le, pure_eq]
  constructor
  · rintro ⟨_, ⟨hlt, rfl⟩, h⟩
    refine ⟨hlt, ?_⟩
    rw [i32ToLe_ofNat _ hlt] at h
    split at h <;> rename_i hs
    · simp only [bind_eq_ok, lenOrOutOfRange_eq_ok, ok.injEq] at h
      obtain ⟨_, ⟨hinner, rfl⟩, rfl⟩ := h
      rw [i32ToLe_ofNat _ hinner]
      simp [Binary.layout, hs]
    · cases h
      simp [Binary.layout, hs]
  · rintro ⟨hlt, rfl⟩
    refine ⟨_, ⟨hlt, rfl⟩, ?_⟩
    rw [i32ToLe_ofNat _ hlt]
    split <;> rename_i hs
    · simp only [bind_eq_ok, lenOrOutOfRange_eq_ok, ok.injEq]
      have hinner : b.bytes.length < 2 ^ 31 := by omega
      refine ⟨_, ⟨hinner, rfl⟩, ?_⟩
      rw [i32ToLe_ofNat _ hinner]
      simp [Binary.layout, hs]
    · simp [Binary.layout, hs]

theorem encodeRegex_eq_ok (r : Regex) (out out' : Bytes) :
    encodeRegex r out = .ok out' ↔ ((0 : UInt8) ∉ utf8 r.pattern ∧ (0 : UInt8) ∉ utf8 r.options) ∧
      out' = out ++ (cstrLayout r.pattern ++ cstrLayout r.options) := by
  simp only [encodeRegex, bind_eq_ok, mapErr_eq_ok, putCstring_eq_ok, cstrLayout]
  constructor
  · rintro ⟨_, ⟨hpat, rfl⟩, hopt, rfl⟩; exact ⟨⟨hpat, hopt⟩, by simp⟩
  · rintro ⟨⟨hpat, hopt⟩, rfl⟩; exact ⟨_, ⟨hpat, rfl⟩, hopt, by simp⟩

theorem encodeValue_eq_ok (s : Scalar) (out out' : Bytes) :
    encodeValue s out = .ok out' ↔ s.Fits (2 ^ 31) ∧ out' = out ++ s.layout := by
  cases s with
  | string v | javaScript v | symbol v => exact encodeString_eq_ok v out out'
  | binary b => exact encodeBinary_eq_ok b out out'
  | regex r => exact encodeRegex_eq_ok r out out'
  | dbPointer p =>
    simp only [encodeValue, bind_eq_ok, encodeString_eq_ok, putBytes, pure_eq, ok.injEq, Fits,
      layout]
    constructor
    · rintro ⟨_, ⟨hlt, rfl⟩, rfl⟩; exact ⟨hlt, by simp⟩
    · rintro ⟨hlt, rfl⟩; exact ⟨_, ⟨hlt, rfl⟩, by simp⟩
  | _ => simp [encodeValue, Fits, layout, putBytes, putU8, putI32Le, putU32Le, putI64Le, eq_comm]

theorem encodeScalar_eq_ok (s : Scalar) (out : Bytes) (n : Nat) (out' : Bytes) :
    encodeScalar s out = .ok (n, out') ↔
      s.Fits (2 ^ 31) ∧ n = s.layout.length ∧ out' = out ++ s.layout := by
  simp only [encodeScalar, bind_eq_ok, encodeValue_eq_ok, usub_eq_ok, pure_eq, ok.injEq,
    Prod.mk.injEq]
  constructor
  · rintro ⟨_, ⟨hfits, rfl⟩, _, ⟨-, rfl⟩, rfl, rfl⟩; exact ⟨hfits, by simp, rfl⟩
  · rintro ⟨hfits, rfl, rfl⟩; exact ⟨_, ⟨hfits, rfl⟩, _, ⟨by simp, rfl⟩, by simp, rfl⟩

end Scalar

/-! ## What the encoder demands -/

mutual

def Document.Encodable : Document → Prop
  | ⟨fields⟩ => (frame (fieldsLayout fields)).length < 2 ^ 31 ∧ FieldsEncodable fields

def FieldsEncodable : List Field → Prop
  | [] => True
  | ⟨name, value⟩ :: rest => (0 : UInt8) ∉ utf8 name ∧ value.Encodable ∧ FieldsEncodable rest

def BsonArray.Encodable : BsonArray → Prop
  | ⟨values⟩ => (frame (valuesLayout 0 values)).length < 2 ^ 31 ∧ ValuesEncodable values

def ValuesEncodable : List Bson → Prop
  | [] => True
  | value :: rest => value.Encodable ∧ ValuesEncodable rest

def Bson.Encodable : Bson → Prop
  | .document d => d.Encodable
  | .array a => a.Encodable
  | .javaScriptScope code scope => Framed scope.bytes ∧ (scopeLayout code scope).length < 2 ^ 31
  | other => ∀ s, other.asScalar = some s → s.Fits (2 ^ 31)

end

theorem Bson.encodable_ofScalar (s : Scalar) :
    (Bson.ofScalar s).Encodable ↔ s.Fits (2 ^ 31) := by
  cases s <;> simp [Bson.ofScalar, Bson.Encodable, Bson.asScalar]

namespace Encode

/-! ## Length prefixes -/

theorem patchLen_eq_ok (out body out' : Bytes) :
    patchLen out.length (out ++ [0, 0, 0, 0] ++ body) = .ok out' ↔
      body.length + 4 < 2 ^ 31 ∧ out' = out ++ (leBytes 4 (body.length + 4) ++ body) := by
  have hlen : (out ++ [0, 0, 0, 0] ++ body).length - out.length = body.length + 4 := by
    simp
  rw [patchLen, usub_ok _ _ (by simp), hlen]
  simp only [ok_bind, bind_eq_ok, ofOption_eq_ok, i32TryFrom_eq_some, putI32LeAt_placeholder,
    ok.injEq]
  constructor
  · rintro ⟨_, ⟨hlt, rfl⟩, rfl⟩
    rw [i32ToLe_ofNat _ hlt]
    exact ⟨hlt, by simp⟩
  · rintro ⟨hlt, rfl⟩
    refine ⟨_, ⟨hlt, rfl⟩, ?_⟩
    rw [i32ToLe_ofNat _ hlt]
    simp

theorem patchLen_frame (out body out' : Bytes) :
    patchLen out.length (putU8 0 (out ++ [0, 0, 0, 0] ++ body)) = .ok out' ↔
      (frame body).length < 2 ^ 31 ∧ out' = out ++ frame body := by
  rw [putU8, List.append_assoc, patchLen_eq_ok, List.length_append, List.length_singleton,
    length_frame, frame]

theorem lenPlusOne_eq_some (n : Nat) (v : Int32) :
    lenPlusOne n = some v ↔ n + 1 < 2 ^ 31 ∧ Int32.ofNat (n + 1) = v := by
  unfold lenPlusOne
  by_cases h : n < 2 ^ 31
  · have hadd : Int32.ofNat n + 1 = Int32.ofNat (n + 1) := (Int32.ofNat_add n 1).symm
    simp only [i32TryFrom, h, if_true, Option.bind_eq_bind, Option.bind_some, toInt_ofNat n h, hadd]
    split <;> rename_i h'
    · simp only [Option.some.injEq, iff_and_self]; omega
    · simp only [reduceCtorEq, false_iff, not_and]; omega
  · simp only [i32TryFrom, h, if_false, Option.bind_eq_bind, Option.bind_none, reduceCtorEq,
      false_iff, not_and]
    omega

theorem encodeString_eq_ok (s : String) (out out' : Bytes) :
    encodeString s out = .ok out' ↔ (utf8 s).length + 1 < 2 ^ 31 ∧ out' = out ++ strLayout s := by
  simp only [encodeString, bind_eq_ok, ofOption_eq_ok, lenPlusOne_eq_some, pure_eq, ok.injEq, putU8,
    putBytes, putI32Le]
  constructor
  · rintro ⟨_, ⟨hlt, rfl⟩, rfl⟩
    rw [i32ToLe_ofNat _ hlt]
    exact ⟨hlt, by simp [strLayout, cstrLayout]⟩
  · rintro ⟨hlt, rfl⟩
    refine ⟨_, ⟨hlt, rfl⟩, ?_⟩
    rw [i32ToLe_ofNat _ hlt]
    simp [strLayout, cstrLayout]

theorem encodeScope_eq_ok (code : String) (scope : RawDocument) (out out' : Bytes) :
    encodeScope code scope out = .ok out' ↔
      (Framed scope.bytes ∧ (scopeLayout code scope).length < 2 ^ 31) ∧
        out' = out ++ scopeLayout code scope := by
  have hframed : ¬ scope.bytes.length < minDocLen ↔ Framed scope.bytes := by
    rcases scope.valid with h | h
    · simp only [h, List.length_nil, minDocLen, Nat.zero_lt_succ, not_true_eq_false, false_iff]
      intro hf
      simpa [minDocLen] using hf.long
    · exact ⟨fun _ => h, fun _ => Nat.not_lt.mpr h.long⟩
  have hlen : (strLayout code ++ scope.bytes).length + 4 = (scopeLayout code scope).length := by
    simp; omega
  have hlay : leBytes 4 ((strLayout code ++ scope.bytes).length + 4) ++
      (strLayout code ++ scope.bytes) = scopeLayout code scope := by
    rw [hlen, length_scopeLayout, scopeLayout]
  have hpatch : patchLen out.length
      (putBytes scope.bytes (putBytes [0, 0, 0, 0] out ++ strLayout code)) = .ok out' ↔
      (scopeLayout code scope).length < 2 ^ 31 ∧ out' = out ++ scopeLayout code scope := by
    rw [putBytes, putBytes, List.append_assoc, patchLen_eq_ok, hlay, hlen]
  simp only [encodeScope, ite_err_eq_ok, hframed, placeholderI32, bind_eq_ok, encodeString_eq_ok]
  constructor
  · rintro ⟨hf, _, ⟨-, rfl⟩, h⟩
    obtain ⟨hlt, rfl⟩ := hpatch.mp h
    exact ⟨⟨hf, hlt⟩, rfl⟩
  · rintro ⟨⟨hf, hlt⟩, hout⟩
    have hcode : (utf8 code).length + 1 < 2 ^ 31 := by simp at hlt; omega
    exact ⟨hf, _, ⟨hcode, rfl⟩, hpatch.mpr ⟨hlt, hout⟩⟩

theorem encodeOther_ofScalar (s : Scalar) (out out' : Bytes) :
    encodeOther (.ofScalar s) out = .ok out' ↔ s.Fits (2 ^ 31) ∧ out' = out ++ s.layout := by
  simp only [encodeOther, Bson.asScalar_ofScalar, ofOption_some, ok_bind, bind_eq_ok, mapErr_eq_ok,
    Prod.exists, Scalar.encodeScalar_eq_ok, pure_eq, ok.injEq]
  constructor
  · rintro ⟨_, _, ⟨hfits, -, rfl⟩, rfl⟩; exact ⟨hfits, rfl⟩
  · rintro ⟨hfits, rfl⟩; exact ⟨_, _, ⟨hfits, rfl, rfl⟩, rfl⟩

theorem encodeValue_ofScalar (s : Scalar) (out : Bytes) :
    encodeValue (.ofScalar s) out = encodeOther (.ofScalar s) out := by
  cases s <;> rfl

/-! ## Fields and composites -/

theorem encodeField_eq_ok (name : String) (tag : Tag) (enc : Bytes → Outcome BsonError Bytes)
    (valid : Prop) (value : Bytes)
    (henc : ∀ out out', enc out = .ok out' ↔ valid ∧ out' = out ++ value) (out out' : Bytes) :
    encodeField name tag enc out = .ok out' ↔
      ((0 : UInt8) ∉ utf8 name ∧ valid) ∧ out' = out ++ elemLayout tag name value := by
  simp only [encodeField, bind_eq_ok, mapErr_eq_ok, putCstring_eq_ok, putU8, henc]
  constructor
  · rintro ⟨_, ⟨hname, rfl⟩, hvalid, rfl⟩
    exact ⟨⟨hname, hvalid⟩, by simp [elemLayout, cstrLayout]⟩
  · rintro ⟨⟨hname, hvalid⟩, rfl⟩
    exact ⟨_, ⟨hname, rfl⟩, hvalid, by simp [elemLayout, cstrLayout]⟩

theorem encodeFrame_eq_ok (enc : Bytes → Outcome BsonError Bytes) (valid : Prop) (body : Bytes)
    (henc : ∀ out out', enc out = .ok out' ↔ valid ∧ out' = out ++ body) (out out' : Bytes) :
    (do patchLen (placeholderI32 out).1 (putU8 0 (← enc (placeholderI32 out).2))) = .ok out' ↔
      ((frame body).length < 2 ^ 31 ∧ valid) ∧ out' = out ++ frame body := by
  simp only [placeholderI32, putBytes, bind_eq_ok, henc]
  constructor
  · rintro ⟨_, ⟨hvalid, rfl⟩, h⟩
    obtain ⟨hlt, rfl⟩ := (patchLen_frame out body out').mp h
    exact ⟨⟨hlt, hvalid⟩, rfl⟩
  · rintro ⟨⟨hlt, hvalid⟩, rfl⟩
    exact ⟨_, ⟨hvalid, rfl⟩, (patchLen_frame out body _).mpr ⟨hlt, rfl⟩⟩

/-- All encoders at once: each succeeds exactly on encodable input, and appends the layout. -/
theorem encode_spec :
    (∀ v out out', encodeValue v out = .ok out' ↔ v.Encodable ∧ out' = out ++ v.layout) ∧
    (∀ fs out out', encodeFields fs out = .ok out' ↔
      FieldsEncodable fs ∧ out' = out ++ fieldsLayout fs) ∧
    (∀ vs i out out', encodeValues i vs out = .ok out' ↔
      ValuesEncodable vs ∧ out' = out ++ valuesLayout i vs) := by
  apply Bson.induction
  case document =>
    intro fs ih out out'
    exact encodeFrame_eq_ok _ _ _ ih out out'
  case array =>
    intro vs ih out out'
    exact encodeFrame_eq_ok _ _ _ (ih 0) out out'
  case scope =>
    intro code s out out'
    exact encodeScope_eq_ok code s out out'
  case scalar =>
    intro s out out'
    rw [encodeValue_ofScalar, encodeOther_ofScalar, Bson.encodable_ofScalar, Bson.layout_ofScalar]
  case noFields =>
    intro out out'
    simp [encodeFields, FieldsEncodable, fieldsLayout, eq_comm]
  case field =>
    intro name v fs hv hfs out out'
    simp only [encodeFields, bind_eq_ok, encodeField_eq_ok _ _ _ _ _ hv, hfs, FieldsEncodable,
      fieldsLayout]
    constructor
    · rintro ⟨_, ⟨⟨hname, hv⟩, rfl⟩, hfs, rfl⟩; exact ⟨⟨hname, hv, hfs⟩, by simp⟩
    · rintro ⟨⟨hname, hv, hfs⟩, rfl⟩; exact ⟨_, ⟨⟨hname, hv⟩, rfl⟩, hfs, by simp⟩
  case noValues =>
    intro i out out'
    simp [encodeValues, ValuesEncodable, valuesLayout, eq_comm]
  case element =>
    intro v vs hv hvs i out out'
    simp only [encodeValues, bind_eq_ok, encodeField_eq_ok _ _ _ _ _ hv, hvs, ValuesEncodable,
      valuesLayout]
    constructor
    · rintro ⟨_, ⟨⟨-, hv⟩, rfl⟩, hvs, rfl⟩; exact ⟨⟨hv, hvs⟩, by simp⟩
    · rintro ⟨⟨hv, hvs⟩, rfl⟩; exact ⟨_, ⟨⟨nul_not_mem_toString i, hv⟩, rfl⟩, hvs, by simp⟩

theorem encodeDocument_eq_ok (d : Document) (out out' : Bytes) :
    encodeDocument d out = .ok out' ↔ d.Encodable ∧ out' = out ++ d.layout :=
  encode_spec.1 (.document d) out out'

theorem encodeArray_eq_ok (a : BsonArray) (out out' : Bytes) :
    encodeArray a out = .ok out' ↔ a.Encodable ∧ out' = out ++ a.layout :=
  encode_spec.1 (.array a) out out'

end Encode

/-! ## The public encoders -/

theorem Document.framed_layout {d : Document} (h : d.Encodable) : Framed d.layout := by
  obtain ⟨fields⟩ := d
  have hlt : (frame (fieldsLayout fields)).length < 2 ^ 31 := h.1
  exact framed_frame _ (by rw [length_frame] at hlt; omega)

theorem BsonArray.framed_layout {a : BsonArray} (h : a.Encodable) : Framed a.layout := by
  obtain ⟨values⟩ := a
  have hlt : (frame (valuesLayout 0 values)).length < 2 ^ 31 := h.1
  exact framed_frame _ (by rw [length_frame] at hlt; omega)

theorem Document.encode_eq_ok (d : Document) (raw : RawDocument) :
    d.encode = .ok raw ↔ d.Encodable ∧ raw.bytes = d.layout := by
  simp only [Document.encode, bind_eq_ok, Encode.encodeDocument_eq_ok, List.nil_append,
    RawDocument.fromBytes_eq_ok]
  constructor
  · rintro ⟨_, ⟨henc, rfl⟩, -, hbytes⟩; exact ⟨henc, hbytes⟩
  · rintro ⟨henc, hbytes⟩
    exact ⟨d.layout, ⟨henc, rfl⟩, hbytes ▸ Document.framed_layout henc, hbytes⟩

theorem Document.exists_encode {d : Document} (h : d.Encodable) :
    ∃ raw, d.encode = .ok raw ∧ raw.bytes = d.layout :=
  ⟨⟨d.layout, .inr (Document.framed_layout h)⟩, (Document.encode_eq_ok _ _).mpr ⟨h, rfl⟩, rfl⟩

theorem BsonArray.encode_eq_ok (a : BsonArray) (raw : RawArray) :
    a.encode = .ok raw ↔ a.Encodable ∧ raw.bytes = a.layout := by
  simp only [BsonArray.encode, bind_eq_ok, Encode.encodeArray_eq_ok, List.nil_append,
    RawArray.fromBytes_eq_ok]
  constructor
  · rintro ⟨_, ⟨henc, rfl⟩, -, hbytes⟩; exact ⟨henc, hbytes⟩
  · rintro ⟨henc, hbytes⟩
    exact ⟨a.layout, ⟨henc, rfl⟩, hbytes ▸ BsonArray.framed_layout henc, hbytes⟩

end MongoWire
