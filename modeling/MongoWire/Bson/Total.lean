import MongoWire.Bson.Scan
import MongoWire.Bson.EncodeSpec

/-!
# Decoding and encoding come back

On any bytes, each reader of `wirebson/src/decode.rs` and `raw.rs` returns a
value or a declared error: no slice, index or subtraction is out of range, and
every loop ends because each field takes at least two bytes. The encoder only
patches lengths that it has written.
-/

open MongoWire.Lib MongoWire.Lib.Outcome MongoWire.Io

namespace MongoWire

namespace Decode

variable {rest parent : Bytes} {abs : Nat}

/-! ## One value -/

@[simp] theorem returns_readStr (abs : Nat) (r : Bytes) : (readStr abs r).Returns := by
  simp only [readStr, returns_bind, returns_mapErr, returns_readU32Le, returns_ite_err,
    returns_usub, returns_readBytes, returns_readU8, returns_ofOption, pure_eq, returns_ok, true_and,
    implies_true, and_true]
  intro a _ hlen
  omega

@[simp] theorem returns_readCstr (r : Bytes) : (readCstr r).Returns := by
  simp [readCstr, returns_bind]

@[simp] theorem returns_readBlock (n : Nat) (r : Bytes) : (readBlock n r).Returns := by
  simp only [readBlock, returns_bind, returns_mapErr, returns_readBytes, returns_expectBlock,
    mapErr_eq_ok, Prod.forall, readBytes_eq_ok, pure_eq, returns_ok, true_and, implies_true, and_true]
  rintro b t ⟨-, hb⟩
  exact hb

@[simp] theorem returns_readBool (abs : Nat) (r : Bytes) : (readBool abs r).Returns := by
  simp only [readBool, returns_bind, returns_mapErr, returns_readU8, true_and]
  intro a _
  split
  · simp
  · split <;> simp

@[simp] theorem returns_payloadLen (subtype : BinarySubtype) (len abs : Nat) (r : Bytes) :
    (payloadLen subtype len abs r).Returns := by
  unfold payloadLen
  split
  · simp only [returns_bind, returns_mapErr, returns_readU32Le, returns_ite_err, returns_ok,
      implies_true, and_true]
  · simp

@[simp] theorem returns_readBinary (abs : Nat) (r : Bytes) : (readBinary abs r).Returns := by
  simp [readBinary, returns_bind]

theorem returns_docLen (rest : Bytes) (abs : Nat) : (docLen rest abs).Returns := by
  simp only [docLen, returns_ite_err, returns_bind, returns_slice, returns_expectBlock, slice_eq_ok,
    Nat.not_lt, returns_ok, implies_true, and_true]
  intro h4
  refine ⟨⟨by omega, h4⟩, ?_⟩
  rintro _ ⟨-, -, rfl⟩
  simp; omega

theorem returns_sliceComposite (hp : parent.drop abs = rest) (habs : abs ≤ parent.length) :
    (sliceComposite rest parent abs).Returns := by
  have hlen : rest.length = parent.length - abs := by rw [← hp, List.length_drop]
  simp only [sliceComposite, returns_bind, returns_docLen, docLen_eq_ok, returns_slice,
    returns_mapErr, returns_readBytes, pure_eq, returns_ok, true_and, implies_true, and_true]
  rintro l ⟨-, -, -, hl⟩
  omega

theorem returns_parseScope (hp : parent.drop abs = rest) (habs : abs ≤ parent.length) :
    (parseScope rest parent abs).Returns := by
  have hlen : rest.length = parent.length - abs := by rw [← hp, List.length_drop]
  simp only [parseScope, returns_ite_err, returns_bind, returns_slice, returns_expectBlock,
    slice_eq_ok, returns_readStr, readStr_eq_ok, Prod.forall, returns_usub, usub_eq_ok,
    RawDocument.returns_fromBytes, returns_mapErr, returns_readBytes, pure_eq, returns_ok,
    Nat.not_lt, true_and, and_true, implies_true, and_imp]
  intro h4
  refine ⟨⟨by omega, h4⟩, ?_⟩
  rintro _ - - rfl
  refine ⟨by simp; omega, fun _ _ => ⟨⟨h4, Nat.le_refl _⟩, ?_⟩⟩
  rintro _ - - rfl code cur - hcur
  have hle : cur.length ≤ rest.length := by
    have := congrArg List.length hcur
    simp only [List.length_take, List.length_drop, List.length_append] at this
    omega
  refine ⟨hle, ?_⟩
  rintro off - rfl hroom
  refine ⟨⟨by omega, hroom⟩, ?_⟩
  rintro _ - - rfl
  refine ⟨by simp; omega, ?_⟩
  intro l _ _ hl
  omega

theorem returns_parseArm (hp : parent.drop abs = rest) (habs : abs ≤ parent.length) (tag : Tag) :
    (parseArm tag rest parent abs).Returns := by
  cases tag with
  | document => simp [parseArm, returns_bind, returns_sliceComposite hp habs]
  | array => simp [parseArm, returns_bind, returns_sliceComposite hp habs]
  | javaScriptScope => exact returns_parseScope hp habs
  | _ => simp [parseArm, returns_bind]

theorem returns_parseValue (hp : parent.drop abs = rest) (habs : abs ≤ parent.length)
    (tag : UInt8) : (parseValue tag rest parent abs).Returns := by
  unfold parseValue
  split
  · simp
  · simp only [returns_bind, returns_parseArm hp habs, Prod.forall, parseArm_eq_ok hp, returns_usub,
      pure_eq, returns_ok, true_and, implies_true, and_true]
    rintro v r ⟨-, -, rfl⟩
    simp

end Decode

/-! ## The fields of a document -/

namespace Scanner

theorem returns_next {s : Scanner} (hs : s.Over) : s.next.Returns := by
  cases hleft : s.left with
  | nil =>
    have hget : s.body[s.offset]? = none := by rw [getElem?_eq_head?, hleft]; rfl
    simp [next, hget]
  | cons tag tail =>
    by_cases h0 : tag = 0
    · have hget : s.body[s.offset]? = some 0 := by rw [getElem?_eq_head?, hleft, h0]; rfl
      simp only [next, hget, if_true, returns_ite_err, returns_ok, implies_true]
    · obtain ⟨htail, hlen⟩ := left_cons hleft
      have hparent : s.body.length = s.parent.length - 4 := by rw [hs, List.length_drop]
      rw [next_of_left hleft h0]
      simp only [returns_bind, returns_ofOption, ofOption_eq_ok, nulPos_eq_some, pure_eq, returns_ok,
        true_and, implies_true, and_true]
      rintro _ ⟨name, t, rfl, -, rfl⟩ _ _
      simp only [List.length_append, List.length_cons] at hlen
      refine Decode.returns_parseValue ?_ (by omega) tag
      rw [← htail, ← List.drop_drop, ← hs, List.drop_drop]

theorem next_progress {s s' : Scanner} {f : RawElem} (hs : s.Over)
    (h : s.next = .ok (some (f, s'))) : s'.Over ∧ s'.left.length < s.left.length := by
  obtain ⟨-, rfl, t, ht⟩ := (next_eq_some s s' hs f).mp h
  refine ⟨over_advance hs _, ?_⟩
  rw [left_advance s _ t ht, ht, List.length_append, RawElem.layout, length_elemLayout]
  omega

end Scanner

namespace FieldsIter

theorem returns_of_mem_items (fuel : Nat) :
    ∀ s : Scanner, s.Over → s.left.length + 1 < fuel →
      ∀ item ∈ items fuel ⟨s, false⟩, item.Returns := by
  induction fuel with
  | zero => intro s _ h; omega
  | succ fuel ih =>
    intro s hs hfuel
    have hreturns := Scanner.returns_next hs
    have hdone : ∀ s : Scanner, items fuel ⟨s, true⟩ = [] := by
      obtain ⟨n, rfl⟩ : ∃ n, fuel = n + 1 := ⟨fuel - 1, by omega⟩
      intro s
      simp [items, next]
    cases hnext : s.next with
    | ok o =>
      cases o with
      | none => simp [items, next, hnext]
      | some p =>
        obtain ⟨f, s'⟩ := p
        obtain ⟨hs', hlt⟩ := Scanner.next_progress hs hnext
        simpa [items, next, hnext] using ih s' hs' (by omega)
    | err e => simp [items, next, hnext, hdone]
    | panic => rw [hnext] at hreturns; exact absurd hreturns not_returns_panic
    | hang => rw [hnext] at hreturns; exact absurd hreturns not_returns_hang

end FieldsIter

/-! ## Whole documents -/

namespace Decode

theorem returns_scan {β : Type} {body : β → RawElem → Outcome BsonError β}
    (hbody : ∀ acc f, (body acc f).Returns) (b : Bytes) (acc : β) :
    (whileSome Scanner.next body (b.length + 1) (.new b) acc).Returns := by
  refine returns_whileSome Scanner.Over (fun s => s.left.length) (fun s => Scanner.returns_next) ?_
    _ _ _ (Scanner.over_new b) ?_
  · intro s f s' hs h
    obtain ⟨hs', hlt⟩ := Scanner.next_progress hs h
    exact ⟨hs', hlt, fun acc => hbody acc f⟩
  · rw [Scanner.left_new, List.length_drop]
    omega

theorem returns_decode (levels : Nat) :
    ∀ (b : Bytes) (mode : Mode) (depth : Nat), depth ≤ maxNestingDepth + 1 →
      maxNestingDepth + 1 < levels + depth →
      (decodeFields levels b mode depth).Returns ∧ (decodeArray levels b mode depth).Returns := by
  -- the nesting limit ends the recursion before the levels run out
  induction levels with
  | zero => intro _ _ _ hle hlt; omega
  | succ levels ih =>
    intro b mode depth _ hlevels
    have hvalue (hdepth : depth ≤ maxNestingDepth) (v : RawBsonRef) :
        (materialize (decodeFields levels) (decodeArray levels) v mode depth).Returns := by
      have hnext := fun b => ih b mode (depth + 1) (by omega) (by omega)
      cases v with
      | document d => simpa [materialize, returns_bind] using (hnext d.bytes).1
      | array a => simpa [materialize, returns_bind] using (hnext a.bytes).2
      | _ => cases mode <;> simp [materialize, RawBsonRef.scalarToBson]
    simp only [decodeFields, decodeArray, returns_ite_err, Nat.not_lt]
    constructor
    · intro hdepth
      refine returns_scan (fun acc f => ?_) b []
      simpa [returns_bind] using hvalue hdepth f.2
    · intro hdepth
      refine returns_scan (fun acc f => ?_) b []
      simpa [returns_bind] using hvalue hdepth f.2

end Decode

namespace RawDocument

theorem returns_of_mem_fields (d : RawDocument) : ∀ item ∈ d.fields, item.Returns := by
  refine FieldsIter.returns_of_mem_items _ _ (Scanner.over_new _) ?_
  rw [Scanner.left_new, List.length_drop]
  omega

theorem returns_getIn (key : String) (items : List (Outcome BsonError (String × RawBsonRef)))
    (h : ∀ item ∈ items, item.Returns) : (getIn key items).Returns := by
  induction items with
  | nil => simp [getIn]
  | cons item items ih =>
    obtain ⟨hitem, hitems⟩ := List.forall_mem_cons.mp h
    simp only [getIn, returns_bind]
    refine ⟨hitem, fun f _ => ?_⟩
    split
    · simp
    · exact ih hitems

theorem returns_get (d : RawDocument) (key : String) : (d.get key).Returns :=
  returns_getIn key _ d.returns_of_mem_fields

theorem returns_command (d : RawDocument) : d.command.Returns := by
  rw [command, returns_ite_err]
  intro _
  cases d.bytes.drop 4 with
  | nil => simp
  | cons tag name =>
    by_cases h0 : tag = 0
    · simp [h0]
    · simp only [h0, if_false, returns_bind, returns_ofOption, ofOption_eq_ok, nulPos_eq_some,
        returns_slice, true_and, implies_true, and_true]
      rintro _ ⟨s, t, rfl, -, rfl⟩
      simp

theorem returns_decode (d : RawDocument) (mode : Mode) : (d.decode mode).Returns := by
  simpa [decode, returns_bind] using
    (Decode.returns_decode (maxNestingDepth + 1) d.bytes mode 1 (by decide) (by decide)).1

end RawDocument

theorem RawArray.returns_decode (a : RawArray) (mode : Mode) : (a.decode mode).Returns := by
  simpa [decode, returns_bind] using
    (Decode.returns_decode (maxNestingDepth + 1) a.bytes mode 1 (by decide) (by decide)).2

/-! ## The encoder -/

@[simp] theorem returns_putCstring (s : String) (out : Bytes) : (putCstring s out).Returns := by
  unfold putCstring
  split <;> trivial

namespace Scalar

@[simp] theorem returns_encodeString (v : String) (out : Bytes) : (encodeString v out).Returns := by
  simp [encodeString, lenOrOutOfRange, returns_bind]

theorem returns_encodeBinary (b : Binary) (out : Bytes) : (encodeBinary b out).Returns := by
  simp only [encodeBinary, lenOrOutOfRange, returns_bind, returns_ofOption, true_and]
  intro _ _
  split <;> simp [returns_bind]

theorem returns_encodeValue (s : Scalar) (out : Bytes) : (encodeValue s out).Returns := by
  cases s with
  | binary b => exact returns_encodeBinary b out
  | _ => simp [encodeValue, encodeRegex, returns_bind]

theorem returns_encodeScalar (s : Scalar) (out : Bytes) : (encodeScalar s out).Returns := by
  simp only [encodeScalar, returns_bind, returns_encodeValue, encodeValue_eq_ok, returns_usub,
    pure_eq, returns_ok, implies_true, and_true, true_and]
  rintro _ ⟨-, rfl⟩
  simp

end Scalar

namespace Encode

theorem returns_patchLen (out body : Bytes) :
    (patchLen out.length (out ++ [0, 0, 0, 0] ++ body)).Returns := by
  rw [patchLen, usub_ok _ _ (by simp)]
  simp only [ok_bind, returns_bind, returns_ofOption, putI32LeAt_placeholder, returns_ok,
    implies_true, and_self]

theorem returns_encodeFrame {enc : Bytes → Outcome BsonError Bytes} {valid : Prop} {body : Bytes}
    (hreturns : ∀ out, (enc out).Returns)
    (henc : ∀ out out', enc out = .ok out' ↔ valid ∧ out' = out ++ body) (out : Bytes) :
    (do patchLen (placeholderI32 out).1 (putU8 0 (← enc (placeholderI32 out).2))).Returns := by
  rw [returns_bind]
  refine ⟨hreturns _, fun out' hok => ?_⟩
  obtain ⟨-, rfl⟩ := (henc _ _).mp hok
  rw [putU8, List.append_assoc]
  exact returns_patchLen out _

theorem returns_encodeScope (code : String) (scope : RawDocument) (out : Bytes) :
    (encodeScope code scope out).Returns := by
  rw [encodeScope, returns_ite_err]
  intro _
  rw [returns_bind]
  refine ⟨by simp [encodeString, returns_bind], fun out' hok => ?_⟩
  obtain ⟨-, rfl⟩ := (encodeString_eq_ok _ _ _).mp hok
  rw [putBytes, List.append_assoc]
  exact returns_patchLen out _

theorem returns_encodeField {name : String} {tag : Tag} {enc : Bytes → Outcome BsonError Bytes}
    (henc : ∀ out, (enc out).Returns) (out : Bytes) : (encodeField name tag enc out).Returns := by
  simp [encodeField, returns_bind, henc]

theorem returns_encode :
    (∀ v out, (encodeValue v out).Returns) ∧ (∀ fs out, (encodeFields fs out).Returns) ∧
    (∀ vs i out, (encodeValues i vs out).Returns) := by
  apply Bson.induction
  case document =>
    intro fs ih out
    exact returns_encodeFrame ih (encode_spec.2.1 fs) out
  case array =>
    intro vs ih out
    exact returns_encodeFrame (ih 0) (encode_spec.2.2 vs 0) out
  case scope =>
    intro code s out
    exact returns_encodeScope code s out
  case scalar =>
    intro s out
    rw [encodeValue_ofScalar]
    simp [encodeOther, returns_bind, Scalar.returns_encodeScalar]
  case noFields => intro out; trivial
  case field =>
    intro name v fs hv hfs out
    simp [encodeFields, returns_bind, returns_encodeField hv, hfs]
  case noValues => intro i out; trivial
  case element =>
    intro v vs hv hvs i out
    simp [encodeValues, returns_bind, returns_encodeField hv, hvs]

end Encode

theorem Document.returns_encode (d : Document) : d.encode.Returns := by
  simp only [Document.encode, returns_bind, RawDocument.returns_fromBytes, implies_true, and_true]
  exact Encode.returns_encode.1 (.document d) []

end MongoWire
