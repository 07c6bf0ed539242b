import MongoWire.Bson.Total
import MongoWire.Bson.EncodeSpec

/-!
# Two parsers of scalars

`mongo_common` parses a scalar on its own and `wirebson` parses it as the value
of a field. Up to their errors they are the same function, so what is known of
one is known of the other.
-/

open MongoWire.Lib MongoWire.Lib.Outcome MongoWire.Io

namespace MongoWire

namespace Scalar

/-! ## Reader by reader -/

theorem usizeTryFrom_eq (v : UInt32) : usizeTryFrom v = some v.toNat := by
  have := v.toNat_lt
  exact if_pos (by omega)

theorem readU32AsUsize_eq (tag : UInt8) (r : Bytes) :
    readU32AsUsize tag r = do
      let (v, r) ← mapErr ofReadError (readU32Le r)
      return (v.toNat, r) := by
  simp only [readU32AsUsize, usizeTryFrom_eq, ofOption_some, ok_bind]

section Readers

variable (tag : UInt8) (abs : Nat) (r : Bytes)

theorem eraseErr_parseString : (parseString tag r).eraseErr = (Decode.readStr abs r).eraseErr := by
  simp [parseString, Decode.readStr, readU32AsUsize_eq]

theorem eraseErr_readCstringStr : (readCstringStr r).eraseErr = (Decode.readCstr r).eraseErr := by
  simp [readCstringStr, Decode.readCstr]

theorem eraseErr_parsePayloadLen (subtype : BinarySubtype) (len : Nat) :
    (parsePayloadLen tag subtype len r).eraseErr =
      (Decode.payloadLen subtype len abs r).eraseErr := by
  cases subtype with
  | binaryOld => simp [parsePayloadLen, Decode.payloadLen, readU32AsUsize_eq]
  | _ => rfl

theorem eraseErr_parseBinary : (parseBinary tag r).eraseErr = (Decode.readBinary abs r).eraseErr := by
  simp [parseBinary, Decode.readBinary, readU32AsUsize_eq, eraseErr_parsePayloadLen tag abs]

theorem eraseErr_parseBlock (n : Nat) : (parseBlock n r).eraseErr = (Decode.readBlock n r).eraseErr := by
  simp [parseBlock, Decode.readBlock]

theorem eraseErr_parseBool : (parseBool tag r).eraseErr = (Decode.readBool abs r).eraseErr := by
  simp [parseBool, Decode.readBool]

end Readers

end Scalar

/-! ## The two parsers -/

/-- The element types that `parse_scalar` leaves to `wirebson`. -/
def Tag.composite : Tag → Bool
  | document => true
  | array => true
  | javaScriptScope => true
  | _ => false

theorem Tag.composite_ofU8 (b : UInt8) (h3 : b ≠ 0x03) (h4 : b ≠ 0x04) (hf : b ≠ 0x0F) (t : Tag)
    (ht : ofU8 b = some t) : t.composite = false := by
  obtain rfl := (ofU8_eq_some b t).mp ht
  cases t with
  | document => exact absurd rfl h3
  | array => exact absurd rfl h4
  | javaScriptScope => exact absurd rfl hf
  | _ => rfl

namespace Scalar

theorem eraseErr_parseArm (t : Tag) (ht : t.composite = false) (r parent : Bytes) (abs : Nat) :
    (Decode.parseArm t r parent abs).eraseErr = do
      let (s, r) ← (parseArm t r).eraseErr
      return (.ofScalar s, r) := by
  cases t with
  | document | array | javaScriptScope => cases ht
  | double | objectId | decimal128 =>
    simp [parseArm, Decode.parseArm, eraseErr_parseBlock, RawBsonRef.ofScalar]
  | string | javaScript | symbol =>
    simp [parseArm, Decode.parseArm, eraseErr_parseString _ abs, RawBsonRef.ofScalar]
  | binary => simp [parseArm, Decode.parseArm, eraseErr_parseBinary _ abs, RawBsonRef.ofScalar]
  | bool => simp [parseArm, Decode.parseArm, eraseErr_parseBool _ abs, RawBsonRef.ofScalar]
  | regex => simp [parseArm, Decode.parseArm, eraseErr_readCstringStr, RawBsonRef.ofScalar]
  | dbPointer =>
    simp [parseArm, Decode.parseArm, eraseErr_parseString _ abs, eraseErr_parseBlock,
      RawBsonRef.ofScalar]
  | _ => simp [parseArm, Decode.parseArm, RawBsonRef.ofScalar]

theorem eraseErr_parseScalar (tag : UInt8) (htag : ∀ t, Tag.ofU8 tag = some t → t.composite = false)
    (input parent : Bytes) (abs : Nat) :
    (Decode.parseValue tag input parent abs).eraseErr = do
      let (s, n) ← (parseScalar tag input).eraseErr
      return (.ofScalar s, n) := by
  unfold Decode.parseValue parseScalar
  cases ht : Tag.ofU8 tag with
  | none => rfl
  | some t => simp [eraseErr_parseArm t (htag t ht)]

theorem ofScalar_injective {s t : Scalar} (h : RawBsonRef.ofScalar s = .ofScalar t) : s = t := by
  have := congrArg (RawBsonRef.elim (fun _ => none) (fun _ => none) (fun _ _ => none) some) h
  simpa using this

theorem parseScalar_iff_parseValue (tag : UInt8)
    (htag : ∀ t, Tag.ofU8 tag = some t → t.composite = false) (input parent : Bytes) (abs : Nat)
    (s : Scalar) (n : Nat) :
    parseScalar tag input = .ok (s, n) ↔
      Decode.parseValue tag input parent abs = .ok (.ofScalar s, n) := by
  rw [← eraseErr_eq_ok (Decode.parseValue ..), eraseErr_parseScalar tag htag,
    ← eraseErr_eq_ok (parseScalar ..)]
  simp only [bind_eq_ok, Prod.exists, pure_eq, ok.injEq, Prod.mk.injEq]
  constructor
  · intro h
    exact ⟨s, n, h, rfl, rfl⟩
  · rintro ⟨s', n', h, hs, rfl⟩
    rwa [ofScalar_injective hs] at h

theorem returns_parseScalar_iff (tag : UInt8)
    (htag : ∀ t, Tag.ofU8 tag = some t → t.composite = false) (input parent : Bytes) (abs : Nat) :
    (parseScalar tag input).Returns ↔ (Decode.parseValue tag input parent abs).Returns := by
  rw [← returns_eraseErr (Decode.parseValue ..), eraseErr_parseScalar tag htag, returns_bind,
    returns_eraseErr]
  simp

theorem returns_parseScalar (tag : UInt8)
    (htag : ∀ t, Tag.ofU8 tag = some t → t.composite = false) (input : Bytes) :
    (parseScalar tag input).Returns :=
  (returns_parseScalar_iff tag htag input input 0).mpr
    (Decode.returns_parseValue (List.drop_zero) (Nat.zero_le _) tag)

theorem toBson_ofScalar (s : Scalar) : (RawBsonRef.ofScalar s).toBson = .ok (.ofScalar s) := by
  -- as the body of a document of its own, the input would make `parse_value` panic too
  cases s <;> rfl

/-- **The two scalar parsers agree.** For every tag that is not a composite's and every input, both
fail, or both take the same number of bytes for the same value. -/
theorem parsers_agree (tag : UInt8) (htag : tag ∉ [0x03, 0x04, 0x0F]) (input parent : Bytes)
    (abs : Nat) :
    (∃ e e', parseScalar tag input = .err e ∧
      Decode.parseValue tag input parent abs = .err e') ∨
    ∃ s v n, parseScalar tag input = .ok (s, n) ∧
      Decode.parseValue tag input parent abs = .ok (v, n) ∧ v.toBson = .ok (.ofScalar s) := by
  simp only [List.mem_cons, List.not_mem_nil, or_false, not_or] at htag
  have hscalar := Tag.composite_ofU8 tag htag.1 htag.2.1 htag.2.2
  by_cases hok : ∃ p, parseScalar tag input = .ok p
  · obtain ⟨⟨s, n⟩, hs⟩ := hok
    have hv := (parseScalar_iff_parseValue tag hscalar input parent abs s n).mp hs
    exact .inr ⟨s, _, n, hs, hv, toBson_ofScalar s⟩
  · have hreturns := returns_parseScalar tag hscalar input
    obtain ⟨e, he⟩ := hreturns.exists_err fun p hp => hok ⟨p, hp⟩
    have hvalue := (returns_parseScalar_iff tag hscalar input parent abs).mp hreturns
    obtain ⟨e', he'⟩ := hvalue.exists_err fun p hp => by
      have herase := eraseErr_parseScalar tag hscalar input parent abs
      rw [he, hp] at herase
      cases herase
    exact .inl ⟨e, e', he, he'⟩

theorem parsers_agree_string :
    ((∃ e e', parseScalar 2 [3, 0, 0, 0, 104, 105] = .err e ∧
        Decode.parseValue 2 [3, 0, 0, 0, 104, 105] [] 7 = .err e') ∨
      ∃ s v n, parseScalar 2 [3, 0, 0, 0, 104, 105] = .ok (s, n) ∧
        Decode.parseValue 2 [3, 0, 0, 0, 104, 105] [] 7 = .ok (v, n) ∧ v.toBson = .ok (.ofScalar s)) ∧
    parseScalar 2 [3, 0, 0, 0, 104, 105, 0, 9] = .ok (.string "hi", 7) :=
  -- A string and what follows it, and a string with no end.
  ⟨parsers_agree 2 (by decide) [3, 0, 0, 0, 104, 105] [] 7, by decide +kernel⟩

/-! ## Reading back what was written -/

theorem composite_tagOf (s : Scalar) : s.tagOf.composite = false := by
  cases s <;> rfl

theorem parseScalar_tagOf (s : Scalar) (input : Bytes) (n : Nat) :
    parseScalar s.tagOf.toU8 input = .ok (s, n) ↔
      (s.Fits (2 ^ 32) ∧ s.InRange) ∧ n = s.layout.length ∧ ∃ r, input = s.layout ++ r := by
  have hscalar : ∀ t, Tag.ofU8 s.tagOf.toU8 = some t → t.composite = false := by
    intro t ht
    rw [Tag.ofU8_toU8, Option.some.injEq] at ht
    rw [← ht, composite_tagOf]
  rw [parseScalar_iff_parseValue _ hscalar input input 0, Decode.parseValue_eq_ok List.drop_zero]
  simp [RawBsonRef.tag, RawBsonRef.Readable, RawBsonRef.layout]

/-- A binary that is written under a subtype byte other than its subtype's. -/
def Misnamed (s : Scalar) : Prop :=
  ∃ b bytes, s = .binary ⟨.userDefined b, bytes⟩ ∧ b < 0x80 ∧ bytes.length < 2 ^ 31

theorem misnamed_iff (s : Scalar) : s.Misnamed ↔ s.Fits (2 ^ 31) ∧ ¬ s.InRange := by
  constructor
  · rintro ⟨b, bytes, rfl, hb, hlen⟩
    exact ⟨hlen, UInt8.not_le.mpr hb⟩
  · rintro ⟨hfits, hrange⟩
    cases s with
    | binary v =>
      obtain ⟨subtype, bytes⟩ := v
      cases subtype with
      | userDefined b => exact ⟨b, bytes, rfl, UInt8.not_le.mp hrange, hfits⟩
      | _ => exact absurd trivial hrange
    | _ => exact absurd trivial hrange

/-- **What `encode_scalar` writes reads back as what it was, or it is misnamed.** -/
theorem parseScalar_encodeScalar_iff (s : Scalar) (out rest : Bytes) :
    (∀ n e, s.encodeScalar out = .ok (n, out ++ e) →
      parseScalar s.tagOf.toU8 (e ++ rest) = .ok (s, n)) ↔ ¬ s.Misnamed := by
  simp only [encodeScalar_eq_ok, List.append_cancel_left_eq, parseScalar_tagOf, misnamed_iff,
    not_and, not_not]
  constructor
  · intro h hfits
    exact (h s.layout.length s.layout ⟨hfits, rfl, rfl⟩).1.2
  · rintro h n e ⟨hfits, rfl, rfl⟩
    exact ⟨⟨hfits.mono (by omega), h hfits⟩, rfl, rest, rfl⟩

/-- The subtype bytes 0x00 and 0x10 in a `UserDefined`. The first is read back as another value, the
second is refused. -/
theorem encodeScalar_misread :
    encodeScalar (.binary ⟨.userDefined 0x00, [7]⟩) [] = .ok (6, [1, 0, 0, 0, 0, 7]) ∧
    parseScalar 0x05 [1, 0, 0, 0, 0, 7] = .ok (.binary ⟨.generic, [7]⟩, 6) ∧
    encodeScalar (.binary ⟨.userDefined 0x10, [7]⟩) [] = .ok (6, [1, 0, 0, 0, 0x10, 7]) ∧
    parseScalar 0x05 [1, 0, 0, 0, 0x10, 7] = .err (.invalid 0x10 "reserved binary subtype") := by
  decide +kernel

end Scalar

end MongoWire
