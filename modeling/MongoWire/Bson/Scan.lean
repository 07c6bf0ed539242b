import MongoWire.Bson.Layout

/-!
# The scanner reads exactly the layouts

One equivalence per reader of `decode.rs`: it returns a value and a cursor if
and only if the input was the layout of that value followed by the cursor. The
second half says that no reader panics.
-/

open MongoWire.Lib MongoWire.Lib.Outcome MongoWire.Io

namespace MongoWire.Decode

/-! ## Strings, binaries and blocks -/

theorem u32ToLe_of_toNat (v : UInt32) (n : Nat) (h : v.toNat = n) : u32ToLe v = leBytes 4 n := by
  rw [u32ToLe, h]

theorem readU32Le_leBytes (n : Nat) (h : n < 2 ^ 32) (t : Bytes) :
    ∃ v : UInt32, v.toNat = n ∧ readU32Le (leBytes 4 n ++ t) = .ok (v, t) := by
  refine ⟨UInt32.ofNat n, ?_, ?_⟩
  · rw [UInt32.toNat_ofNat', Nat.mod_eq_of_lt h]
  · rw [readU32Le_eq_ok, u32ToLe, UInt32.toNat_ofNat', Nat.mod_eq_of_lt h]

theorem readStr_eq_ok (abs : Nat) (r : Bytes) (s : String) (t : Bytes) :
    readStr abs r = .ok (s, t) ↔ (utf8 s).length + 1 < 2 ^ 32 ∧ r = strLayout s ++ t := by
  constructor
  · intro h
    simp only [readStr, bind_eq_ok, mapErr_eq_ok, Prod.exists, readU32Le_eq_ok, ite_err_eq_ok,
      usub_eq_ok, readBytes_eq_ok, readU8_eq_ok, ofOption_eq_ok, fromUtf8_eq_some, pure_eq,
      ok.injEq, Prod.mk.injEq, not_not] at h
    obtain ⟨len, _, rfl, hlen, _, ⟨-, rfl⟩, _, _, ⟨rfl, hb⟩, _, _, rfl, rfl, s', rfl, rfl,
      rfl⟩ := h
    have hlt := len.toNat_lt
    rw [u32ToLe_of_toNat len ((utf8 s').length + 1) (by omega)]
    exact ⟨by omega, by simp [strLayout, cstrLayout]⟩
  · rintro ⟨hlt, rfl⟩
    obtain ⟨len, hlen, hread⟩ := readU32Le_leBytes _ hlt (cstrLayout s ++ t)
    have hpay : readBytes (utf8 s).length (cstrLayout s ++ t) = .ok (utf8 s, 0 :: t) := by
      simp [readBytes_eq_ok, cstrLayout]
    have hnul : readU8 (0 :: t) = .ok (0, t) := by rw [readU8_eq_ok]
    rw [strLayout, List.append_assoc]
    simp [readStr, hread, hlen, usub_ok, hpay, hnul]

theorem readCstr_eq_ok (r : Bytes) (s : String) (t : Bytes) :
    readCstr r = .ok (s, t) ↔ (0 : UInt8) ∉ utf8 s ∧ r = cstrLayout s ++ t := by
  simp only [readCstr, bind_eq_ok, mapErr_eq_ok, Prod.exists, readCstring_eq_ok, ofOption_eq_ok,
    fromUtf8_eq_some, pure_eq, ok.injEq, Prod.mk.injEq]
  constructor
  · rintro ⟨_, _, ⟨rfl, hs⟩, _, rfl, rfl, rfl⟩
    exact ⟨hs, by simp [cstrLayout]⟩
  · rintro ⟨hs, rfl⟩
    exact ⟨utf8 s, t, ⟨by simp [cstrLayout], hs⟩, s, rfl, rfl, rfl⟩

theorem readBlock_eq_ok (n : Nat) (r : Bytes) (b : Block n) (t : Bytes) :
    readBlock n r = .ok (b, t) ↔ r = b.val ++ t := by
  simp only [readBlock, bind_eq_ok, mapErr_eq_ok, Prod.exists, readBytes_eq_ok, expectBlock_eq_ok,
    pure_eq, ok.injEq, Prod.mk.injEq]
  constructor
  · rintro ⟨_, _, ⟨rfl, -⟩, _, rfl, rfl, rfl⟩; rfl
  · rintro rfl; exact ⟨b.val, t, ⟨rfl, b.property⟩, b, rfl, rfl, rfl⟩

theorem readBool_eq_ok (abs : Nat) (r : Bytes) (b : Bool) (t : Bytes) :
    readBool abs r = .ok (b, t) ↔ r = (if b then 1 else 0) :: t := by
  cases r with
  | nil => simp [readBool, readU8, readBytes, mapErr]
  | cons x r =>
    have hread : readU8 (x :: r) = .ok (x, r) := by rw [readU8_eq_ok]
    simp only [readBool, hread, mapErr_ok, ok_bind]
    by_cases h0 : x = 0
    · subst h0; cases b <;> simp [eq_comm]
    · by_cases h1 : x = 1
      · subst h1; cases b <;> simp [eq_comm]
      · cases b <;> simp [h0, h1]

theorem payloadLen_eq_ok (subtype : BinarySubtype) (len abs : Nat) (r : Bytes) (n : Nat)
    (t : Bytes) (hlen : len < 2 ^ 32) :
    payloadLen subtype len abs r = .ok (n, t) ↔
      len = n + subtype.extra ∧ r = (if subtype = .binaryOld then leBytes 4 n else []) ++ t := by
  by_cases hs : subtype = .binaryOld
  · subst hs
    simp only [payloadLen, bind_eq_ok, mapErr_eq_ok, Prod.exists, readU32Le_eq_ok, ite_err_eq_ok,
      ok.injEq, Prod.mk.injEq, not_not, BinarySubtype.extra, if_true]
    constructor
    · rintro ⟨inner, _, rfl, rfl, rfl, rfl⟩
      exact ⟨rfl, rfl⟩
    · rintro ⟨rfl, rfl⟩
      have hn : (UInt32.ofNat n).toNat = n := by
        rw [UInt32.toNat_ofNat', Nat.mod_eq_of_lt (by omega)]
      exact ⟨UInt32.ofNat n, t, by rw [u32ToLe, hn], by rw [hn], hn, rfl⟩
  · have : payloadLen subtype len abs r = .ok (len, r) := by
      cases subtype <;> first | rfl | exact absurd rfl hs
    simp [this, BinarySubtype.extra, hs]

theorem readBinary_eq_ok (abs : Nat) (r : Bytes) (b : Binary) (t : Bytes) :
    readBinary abs r = .ok (b, t) ↔
      b.bytes.length + b.subtype.extra < 2 ^ 32 ∧ b.subtype.InRange ∧ r = b.layout ++ t := by
  constructor
  · intro h
    simp only [readBinary, bind_eq_ok, mapErr_eq_ok, Prod.exists, readU32Le_eq_ok, readU8_eq_ok,
      BinarySubtype.fromU8_eq_ok] at h
    obtain ⟨len, _, rfl, x, _, rfl, subtype, ⟨rfl, hrange⟩, payload, _, hpay, h⟩ := h
    have hlt := len.toNat_lt
    obtain ⟨hlen, rfl⟩ := (payloadLen_eq_ok _ _ _ _ _ _ (by omega)).mp hpay
    simp only [readBytes_eq_ok, pure_eq, ok.injEq, Prod.mk.injEq] at h
    obtain ⟨bytes, _, ⟨rfl, hb⟩, rfl, rfl⟩ := h
    refine ⟨by simp only; omega, hrange, ?_⟩
    rw [u32ToLe_of_toNat len _ hlen, Binary.layout, ← hb]
    split <;> simp
  · rintro ⟨hlt, hrange, rfl⟩
    obtain ⟨len, hlen, hread⟩ := readU32Le_leBytes _ hlt
      (b.subtype.toU8 :: ((if b.subtype = .binaryOld then leBytes 4 b.bytes.length else []) ++
        (b.bytes ++ t)))
    have hlay : b.layout ++ t = leBytes 4 (b.bytes.length + b.subtype.extra) ++
        (b.subtype.toU8 :: ((if b.subtype = .binaryOld then leBytes 4 b.bytes.length else []) ++
          (b.bytes ++ t))) := by
      rw [Binary.layout]; split <;> simp
    have hsub := (BinarySubtype.fromU8_eq_ok b.subtype.toU8 b.subtype).mpr ⟨rfl, hrange⟩
    have hpay := (payloadLen_eq_ok b.subtype len.toNat abs _ b.bytes.length (b.bytes ++ t)
      (by omega)).mpr ⟨hlen, rfl⟩
    simp only [readBinary, hlay, hread, mapErr_ok, ok_bind, (readU8_eq_ok _ _ _).mpr rfl, hsub,
      hpay, (readBytes_eq_ok b.bytes.length _ b.bytes t).mpr ⟨rfl, rfl⟩, pure_eq]

/-! ## Composites

`rest` is what is left of `parent` from `abs` on, so slicing the parent is
taking from the front of `rest`.
-/

theorem docLen_eq_ok (rest : Bytes) (abs l : Nat) :
    docLen rest abs = .ok l ↔
      4 ≤ rest.length ∧ l = leNat (rest.take 4) ∧ 5 ≤ l ∧ l ≤ rest.length := by
  unfold docLen
  rw [ite_err_eq_ok, Nat.not_lt]
  refine and_congr_right fun h4 => ?_
  have htake : (rest.take 4).length = 4 := List.length_take_of_le h4
  rw [slice_ok _ _ _ (by omega) h4]
  simp only [ok_bind, List.drop_zero, Nat.sub_zero, expectBlock, htake, dite_true, minDocLen,
    u32AsUsize_eq _ htake, ite_err_eq_ok, ok.injEq]
  constructor
  · rintro ⟨h5, hl, rfl⟩; exact ⟨rfl, by omega, by omega⟩
  · rintro ⟨rfl, h5, hl⟩; exact ⟨by omega, by omega, rfl⟩

section Composites

variable {rest parent : Bytes} {abs : Nat}

theorem sliceComposite_eq_ok (hp : parent.drop abs = rest) (child r : Bytes) :
    sliceComposite rest parent abs = .ok (child, r) ↔
      5 ≤ child.length ∧ leNat (child.take 4) = child.length ∧ rest = child ++ r := by
  have hlen : rest.length = parent.length - abs := by rw [← hp, List.length_drop]
  simp only [sliceComposite, bind_eq_ok, docLen_eq_ok, slice_eq_ok, mapErr_eq_ok, Prod.exists,
    readBytes_eq_ok, pure_eq, ok.injEq, Prod.mk.injEq, Nat.add_sub_cancel_left, hp]
  constructor
  · rintro ⟨l, ⟨h4, hl, h5, hle⟩, _, ⟨-, -, rfl⟩, b, _, ⟨rfl, rfl⟩, rfl, rfl⟩
    rw [List.take_append_of_le_length (by omega)] at hl
    simp only [List.take_left]
    exact ⟨h5, hl.symm, trivial⟩
  · rintro ⟨h5, hl, rfl⟩
    rw [List.length_append] at hlen
    refine ⟨child.length, ⟨by simp; omega, ?_, h5, by simp⟩, child, ⟨by omega, by omega, ?_⟩, child,
      r, ⟨rfl, rfl⟩, rfl, rfl⟩
    · rw [List.take_append_of_le_length (by omega), hl]
    · rw [List.take_left]

/-- What `parseScope` does behind the code, which ends at `off`. -/
def scopeTail (rest parent : Bytes) (abs total off : Nat) (code : String) :
    Outcome BsonError (RawBsonRef × Bytes) :=
  if rest.length < off + 4 then .err (.shortInput (off + 4) rest.length) else do
  let l := u32AsUsize (← expectBlock 4 (← slice rest off (off + 4))).val
  if l < minDocLen then .err (.invalidInput (abs + off) "scope length below minimum") else
  if rest.length < off + l then .err (.shortInput (off + l) rest.length) else do
  let scope ← RawDocument.fromBytes (← slice parent (abs + off) (abs + off + l))
  let actual := off + l
  if total ≠ actual then .err (.lengthMismatch total actual) else do
  let (_, r) ← mapErr mapRead (readBytes actual rest)
  return (.javaScriptScope code scope, r)

theorem parseScope_eq_scopeTail (pre cur : Bytes) (code : String) (hpre : pre.length = 4)
    (hcode : (utf8 code).length + 1 < 2 ^ 32) :
    parseScope (pre ++ (strLayout code ++ cur)) parent abs =
      scopeTail (pre ++ (strLayout code ++ cur)) parent abs (leNat pre)
        (4 + (strLayout code).length) code := by
  obtain ⟨rest, hrest⟩ : ∃ rest, rest = pre ++ (strLayout code ++ cur) := ⟨_, rfl⟩
  have hlen : rest.length = 4 + (strLayout code).length + cur.length := by
    rw [hrest, List.length_append, List.length_append, hpre, Nat.add_assoc]
  have hhead : (slice rest 0 4 : Outcome BsonError Bytes) = .ok pre := by
    rw [slice_ok _ _ _ (by omega) (by omega), hrest]; simp [← hpre]
  have htail : (slice rest 4 rest.length : Outcome BsonError Bytes) =
      .ok (strLayout code ++ cur) := by
    rw [slice_ok _ _ _ (by omega) (by omega), hrest]; simp [← hpre]
  have hread : readStr (abs + 4) (strLayout code ++ cur) = .ok (code, cur) :=
    (readStr_eq_ok ..).mpr ⟨hcode, rfl⟩
  have hsub : (usub rest.length cur.length : Outcome BsonError Nat) =
      .ok (4 + (strLayout code).length) := by
    rw [usub_ok _ _ (by omega), hlen, Nat.add_sub_cancel]
  rw [← hrest]
  unfold parseScope
  rw [if_neg (by omega)]
  simp only [hhead, ok_bind, expectBlock, hpre, dite_true, htail, hread, hsub, u32AsUsize_eq _ hpre]
  rfl

theorem scopeTail_eq_ok (hp : parent.drop abs = rest) {off : Nat} (hoff : off ≤ rest.length)
    (total : Nat) (code : String) (v : RawBsonRef) (r : Bytes) :
    scopeTail rest parent abs total off code = .ok (v, r) ↔
      ∃ scope, v = .javaScriptScope code scope ∧ Framed scope.bytes ∧
        rest.drop off = scope.bytes ++ r ∧ total = off + scope.bytes.length := by
  have hpar : rest.length = parent.length - abs := by rw [← hp, List.length_drop]
  have hcur : parent.drop (abs + off) = rest.drop off := by rw [← List.drop_drop, hp]
  simp only [scopeTail, ite_err_eq_ok, Nat.not_lt, not_not, bind_eq_ok, slice_eq_ok,
    expectBlock_eq_ok, RawDocument.fromBytes_eq_ok, mapErr_eq_ok, Prod.exists, readBytes_eq_ok,
    pure_eq, ok.injEq, Prod.mk.injEq, Nat.add_sub_cancel_left, hcur, minDocLen]
  constructor
  · rintro ⟨-, _, -, w, -, -, hl, _, ⟨-, -, rfl⟩, scope, ⟨hframed, hs⟩, rfl, b, _, ⟨hb, hblen⟩,
      rfl, rfl⟩
    have hslen : scope.bytes.length = u32AsUsize w.val := by
      rw [hs, List.length_take_of_le (by simp; omega)]
    refine ⟨scope, rfl, hframed, ?_, by rw [hslen]⟩
    have hdrop := congrArg (List.drop (off + u32AsUsize w.val)) hb
    rw [List.drop_left' hblen, ← List.drop_drop] at hdrop
    rw [hs, ← hdrop, List.take_append_drop]
  · rintro ⟨scope, rfl, hframed, hscope, rfl⟩
    have hlong : 5 ≤ scope.bytes.length := hframed.long
    have hlen : rest.length - off = scope.bytes.length + r.length := by
      rw [← List.length_drop, hscope, List.length_append]
    have hword : ((scope.bytes ++ r).take 4).length = 4 := by simp; omega
    have hl : u32AsUsize ((scope.bytes ++ r).take 4) = scope.bytes.length := by
      rw [u32AsUsize_eq _ hword, List.take_append_of_le_length (by omega), hframed.declared]
    have hrest : rest = rest.take (off + scope.bytes.length) ++ r := by
      have hr : rest.drop (off + scope.bytes.length) = r := by
        rw [← List.drop_drop, hscope, List.drop_left]
      rw [← hr, List.take_append_drop]
    rw [hscope]
    refine ⟨by omega, _, ⟨by omega, by omega, rfl⟩, ⟨_, hword⟩, rfl, ?_⟩
    rw [hl]
    exact ⟨hlong, by omega, _, ⟨by omega, by omega, rfl⟩, scope, ⟨hframed, by simp⟩, rfl, _, r,
      ⟨hrest, List.length_take_of_le (by omega)⟩, rfl, rfl⟩

theorem parseScope_append (pre cur : Bytes) (code : String) (hpre : pre.length = 4)
    (hcode : (utf8 code).length + 1 < 2 ^ 32) (hp : parent.drop abs = pre ++ (strLayout code ++ cur))
    (v : RawBsonRef) (r : Bytes) :
    parseScope (pre ++ (strLayout code ++ cur)) parent abs = .ok (v, r) ↔
      ∃ scope, v = .javaScriptScope code scope ∧ Framed scope.bytes ∧ cur = scope.bytes ++ r ∧
        leNat pre = 4 + (strLayout code).length + scope.bytes.length := by
  have hcur : (pre ++ (strLayout code ++ cur)).drop (4 + (strLayout code).length) = cur := by
    rw [← List.append_assoc, List.drop_left' (by rw [List.length_append, hpre])]
  have hoff : 4 + (strLayout code).length ≤ (pre ++ (strLayout code ++ cur)).length := by
    rw [List.length_append, List.length_append]; omega
  rw [parseScope_eq_scopeTail pre cur code hpre hcode, scopeTail_eq_ok hp hoff, hcur]

theorem parseScope_eq_ok (hp : parent.drop abs = rest) (v : RawBsonRef) (r : Bytes) :
    parseScope rest parent abs = .ok (v, r) ↔
      ∃ code scope, v = .javaScriptScope code scope ∧ Framed scope.bytes ∧
        (scopeLayout code scope).length < 2 ^ 32 ∧ rest = scopeLayout code scope ++ r := by
  constructor
  · intro h
    -- Whatever was accepted starts with four bytes and the code.
    have hshape : ∃ pre code cur, pre.length = 4 ∧ (utf8 code).length + 1 < 2 ^ 32 ∧
        rest = pre ++ (strLayout code ++ cur) := by
      simp only [parseScope, ite_err_eq_ok, bind_eq_ok, slice_eq_ok, Prod.exists, readStr_eq_ok] at h
      obtain ⟨h4, _, -, _, -, _, ⟨-, -, rfl⟩, code, cur, ⟨hcode, hcur⟩, -⟩ := h
      refine ⟨rest.take 4, code, cur, List.length_take_of_le (by omega), hcode, ?_⟩
      rw [List.take_of_length_le (by simp)] at hcur
      rw [← hcur, List.take_append_drop]
    obtain ⟨pre, code, cur, hpre, hcode, rfl⟩ := hshape
    obtain ⟨scope, rfl, hframed, rfl, htotal⟩ := (parseScope_append pre cur code hpre hcode hp v r).mp h
    have hlt := leNat_lt pre
    rw [hpre] at hlt
    refine ⟨code, scope, rfl, hframed, by simp at *; omega, ?_⟩
    rw [scopeLayout, ← htotal, ← hpre, leBytes_leNat]
    simp
  · rintro ⟨code, scope, rfl, hframed, hlt, rfl⟩
    simp only [length_scopeLayout] at hlt
    have hshape : scopeLayout code scope ++ r =
        leBytes 4 (4 + (strLayout code).length + scope.bytes.length) ++
          (strLayout code ++ (scope.bytes ++ r)) := by
      simp [scopeLayout]
    rw [hshape] at hp ⊢
    rw [parseScope_append _ _ code (length_leBytes 4 _) (by simp at hlt; omega) hp]
    exact ⟨scope, rfl, hframed, rfl, leNat_leBytes _ _ (by omega)⟩

/-! ## One value -/

theorem parseArm_sound (hp : parent.drop abs = rest) (tag : Tag) (v : RawBsonRef) (r : Bytes)
    (h : parseArm tag rest parent abs = .ok (v, r)) :
    v.tag = tag ∧ v.Readable ∧ rest = v.layout ++ r := by
  -- the arms that only wrap one reader share the last line
  cases tag with
  | document =>
    simp only [parseArm, bind_eq_ok, Prod.exists, sliceComposite_eq_ok hp,
      RawDocument.fromBytes_eq_ok, pure_eq, ok.injEq, Prod.mk.injEq] at h
    obtain ⟨_, _, ⟨-, -, rfl⟩, d, ⟨hframed, rfl⟩, rfl, rfl⟩ := h
    exact ⟨rfl, hframed, rfl⟩
  | array =>
    simp only [parseArm, bind_eq_ok, Prod.exists, sliceComposite_eq_ok hp,
      RawArray.fromBytes_eq_ok, pure_eq, ok.injEq, Prod.mk.injEq] at h
    obtain ⟨_, _, ⟨-, -, rfl⟩, a, ⟨hframed, rfl⟩, rfl, rfl⟩ := h
    exact ⟨rfl, hframed, rfl⟩
  | javaScriptScope =>
    obtain ⟨code, scope, rfl, hframed, hlt, rfl⟩ := (parseScope_eq_ok hp v r).mp h
    exact ⟨rfl, ⟨hframed, hlt⟩, rfl⟩
  | double =>
    simp only [parseArm, bind_eq_ok, Prod.exists, readBlock_eq_ok, pure_eq, ok.injEq,
      Prod.mk.injEq] at h
    obtain ⟨b, _, rfl, rfl, rfl⟩ := h
    refine ⟨rfl, ⟨trivial, trivial⟩, ?_⟩
    show _ = u64ToLe (u64FromLe b.val) ++ _
    rw [u64ToLe_u64FromLe _ b.property]
  | regex =>
    simp only [parseArm, bind_eq_ok, Prod.exists, readCstr_eq_ok, pure_eq, ok.injEq,
      Prod.mk.injEq] at h
    obtain ⟨p, _, ⟨hpat, rfl⟩, o, _, ⟨hopt, rfl⟩, rfl, rfl⟩ := h
    exact ⟨rfl, ⟨⟨hpat, hopt⟩, trivial⟩, (List.append_assoc _ _ _).symm⟩
  | dbPointer =>
    simp only [parseArm, bind_eq_ok, Prod.exists, readStr_eq_ok, readBlock_eq_ok, pure_eq, ok.injEq,
      Prod.mk.injEq] at h
    obtain ⟨ns, _, ⟨hlt, rfl⟩, id, _, rfl, rfl, rfl⟩ := h
    exact ⟨rfl, ⟨hlt, trivial⟩, (List.append_assoc _ _ _).symm⟩
  | timestamp =>
    simp only [parseArm, bind_eq_ok, mapErr_eq_ok, Prod.exists, readU32Le_eq_ok, pure_eq, ok.injEq,
      Prod.mk.injEq] at h
    obtain ⟨i, _, rfl, s, _, rfl, rfl, rfl⟩ := h
    exact ⟨rfl, ⟨trivial, trivial⟩, (List.append_assoc _ _ _).symm⟩
  | binary =>
    simp only [parseArm, bind_eq_ok, Prod.exists, readBinary_eq_ok, pure_eq, ok.injEq,
      Prod.mk.injEq] at h
    obtain ⟨b, _, ⟨hlt, hrange, rfl⟩, rfl, rfl⟩ := h
    exact ⟨rfl, ⟨hlt, hrange⟩, rfl⟩
  | string | javaScript | symbol =>
    simp only [parseArm, bind_eq_ok, Prod.exists, readStr_eq_ok, pure_eq, ok.injEq,
      Prod.mk.injEq] at h
    obtain ⟨s, _, ⟨hlt, rfl⟩, rfl, rfl⟩ := h
    exact ⟨rfl, ⟨hlt, trivial⟩, rfl⟩
  | undefined | null | minKey | maxKey =>
    simp only [parseArm, ok.injEq, Prod.mk.injEq] at h
    obtain ⟨rfl, rfl⟩ := h
    exact ⟨rfl, ⟨trivial, trivial⟩, rfl⟩
  | objectId | bool | dateTime | int32 | int64 | decimal128 =>
    simp only [parseArm, bind_eq_ok, mapErr_eq_ok, Prod.exists, readBlock_eq_ok, readBool_eq_ok,
      readI32Le_eq_ok, readI64Le_eq_ok, pure_eq, ok.injEq, Prod.mk.injEq] at h
    obtain ⟨_, _, rfl, rfl, rfl⟩ := h
    exact ⟨rfl, ⟨trivial, trivial⟩, rfl⟩

theorem parseArm_ofScalar (s : Scalar) (hfits : s.Fits (2 ^ 32)) (hrange : s.InRange)
    (r parent : Bytes) (abs : Nat) :
    parseArm s.tagOf (s.layout ++ r) parent abs = .ok (.ofScalar s, r) := by
  cases s with
  | double bits =>
    have hread := (readBlock_eq_ok 8 (u64ToLe bits ++ r) ⟨u64ToLe bits, by simp⟩ r).mpr rfl
    simp [parseArm, Scalar.tagOf, Scalar.layout, RawBsonRef.ofScalar, hread]
  | binary b =>
    have hread := (readBinary_eq_ok abs (b.layout ++ r) b r).mpr ⟨hfits, hrange, rfl⟩
    simp [parseArm, Scalar.tagOf, Scalar.layout, RawBsonRef.ofScalar, hread]
  | string v | javaScript v | symbol v =>
    have hread := (readStr_eq_ok abs (strLayout v ++ r) v r).mpr ⟨hfits, rfl⟩
    simp [parseArm, Scalar.tagOf, Scalar.layout, RawBsonRef.ofScalar, hread]
  | undefined | null | minKey | maxKey => rfl
  | objectId v | decimal128 v =>
    have hread := (readBlock_eq_ok _ (v.val ++ r) v r).mpr rfl
    simp [parseArm, Scalar.tagOf, Scalar.layout, RawBsonRef.ofScalar, hread]
  | bool v =>
    have hread := (readBool_eq_ok abs _ v r).mpr rfl
    simp [parseArm, Scalar.tagOf, Scalar.layout, RawBsonRef.ofScalar, hread]
  | dateTime v | int64 v =>
    have hread := (readI64Le_eq_ok (i64ToLe v ++ r) v r).mpr rfl
    simp [parseArm, Scalar.tagOf, Scalar.layout, RawBsonRef.ofScalar, hread]
  | int32 v =>
    have hread := (readI32Le_eq_ok (i32ToLe v ++ r) v r).mpr rfl
    simp [parseArm, Scalar.tagOf, Scalar.layout, RawBsonRef.ofScalar, hread]
  | regex v =>
    have hpat := (readCstr_eq_ok _ v.pattern (cstrLayout v.options ++ r)).mpr ⟨hfits.1, rfl⟩
    have hopt := (readCstr_eq_ok _ v.options r).mpr ⟨hfits.2, rfl⟩
    simp [parseArm, Scalar.tagOf, Scalar.layout, RawBsonRef.ofScalar, hpat, hopt]
  | dbPointer v =>
    have hns := (readStr_eq_ok abs _ v.ns (v.id.val ++ r)).mpr ⟨hfits, rfl⟩
    have hid := (readBlock_eq_ok 12 _ v.id r).mpr rfl
    simp [parseArm, Scalar.tagOf, Scalar.layout, RawBsonRef.ofScalar, hns, hid]
  | timestamp v =>
    have hinc := (readU32Le_eq_ok _ v.increment (u32ToLe v.seconds ++ r)).mpr rfl
    have hsec := (readU32Le_eq_ok _ v.seconds r).mpr rfl
    simp [parseArm, Scalar.tagOf, Scalar.layout, RawBsonRef.ofScalar, hinc, hsec]

theorem parseArm_eq_ok (hp : parent.drop abs = rest) (tag : Tag) (v : RawBsonRef) (r : Bytes) :
    parseArm tag rest parent abs = .ok (v, r) ↔
      v.tag = tag ∧ v.Readable ∧ rest = v.layout ++ r := by
  refine ⟨parseArm_sound hp tag v r, ?_⟩
  rintro ⟨rfl, hread, hrest⟩
  cases v using RawBsonRef.casesScalar with
  | document d =>
    simp only [RawBsonRef.tag, RawBsonRef.elim, parseArm, bind_eq_ok, Prod.exists,
      sliceComposite_eq_ok hp]
    exact ⟨d.bytes, r, ⟨hread.long, hread.declared, hrest⟩, d,
      RawDocument.fromBytes_bytes hread, rfl⟩
  | array a =>
    simp only [RawBsonRef.tag, RawBsonRef.elim, parseArm, bind_eq_ok, Prod.exists,
      sliceComposite_eq_ok hp]
    exact ⟨a.bytes, r, ⟨hread.long, hread.declared, hrest⟩, a,
      (RawArray.fromBytes_eq_ok _ a).mpr ⟨hread, rfl⟩, rfl⟩
  | scope code scope =>
    exact (parseScope_eq_ok hp _ r).mpr ⟨code, scope, rfl, hread.1, hread.2, hrest⟩
  | scalar s =>
    simp only [RawBsonRef.Readable, RawBsonRef.layout, RawBsonRef.tag, RawBsonRef.elim_ofScalar]
      at hread hrest ⊢
    rw [hrest]
    exact parseArm_ofScalar s hread.1 hread.2 r parent abs

theorem parseValue_eq_ok (hp : parent.drop abs = rest) (tag : UInt8) (v : RawBsonRef) (n : Nat) :
    parseValue tag rest parent abs = .ok (v, n) ↔
      tag = v.tag.toU8 ∧ v.Readable ∧ n = v.layout.length ∧ ∃ r, rest = v.layout ++ r := by
  unfold parseValue
  constructor
  · intro h
    split at h
    · cases h
    · rename_i t ht
      simp only [bind_eq_ok, Prod.exists, parseArm_eq_ok hp, usub_eq_ok, pure_eq, ok.injEq,
        Prod.mk.injEq] at h
      obtain ⟨v, r, ⟨rfl, hread, rfl⟩, _, ⟨-, rfl⟩, rfl, rfl⟩ := h
      exact ⟨(Tag.ofU8_eq_some _ _).mp ht, hread, by simp, r, rfl⟩
  · rintro ⟨rfl, hread, rfl, r, hrest⟩
    have harm := (parseArm_eq_ok hp v.tag v r).mpr ⟨rfl, hread, hrest⟩
    have hsub : (usub rest.length r.length : Outcome BsonError Nat) = .ok v.layout.length := by
      rw [hrest, usub_ok _ _ (by simp)]; simp
    simp [harm, hsub]

end Composites

end MongoWire.Decode

/-! ## The fields of a document -/

namespace MongoWire.Scanner

/-- What is left to scan. -/
def left (s : Scanner) : Bytes := s.body.drop s.offset

/-- The body is the parent after its length prefix. -/
def Over (s : Scanner) : Prop := s.body = s.parent.drop 4

def advance (s : Scanner) (n : Nat) : Scanner := { s with offset := s.offset + n }

theorem over_advance {s : Scanner} (h : s.Over) (n : Nat) : (s.advance n).Over := h

theorem over_new (b : Bytes) : (new b).Over := rfl

theorem left_new (b : Bytes) : (new b).left = b.drop 4 := rfl

theorem getElem?_eq_head? (s : Scanner) : s.body[s.offset]? = s.left.head? := by
  rw [left, List.head?_drop]

theorem left_cons {s : Scanner} {tag : UInt8} {tail : Bytes} (h : s.left = tag :: tail) :
    s.body.drop (s.offset + 1) = tail ∧ s.body.length = s.offset + 1 + tail.length := by
  have hlen := congrArg List.length h
  simp only [left, List.length_drop, List.length_cons] at hlen
  refine ⟨?_, by omega⟩
  rw [← List.drop_drop, show s.body.drop s.offset = tag :: tail from h, List.drop_one, List.tail_cons]

theorem next_of_left {s : Scanner} {tag : UInt8} {tail : Bytes} (h : s.left = tag :: tail)
    (h0 : tag ≠ 0) :
    s.next = do
      let rel ← ofOption (.shortInput (s.body.length + 1) s.body.length) (nulPos tail)
      let name ← ofOption .utf8 (fromUtf8 (tail.take rel))
      let voff := s.offset + 1 + (rel + 1)
      let (value, consumed) ← Decode.parseValue tag (tail.drop (rel + 1)) s.parent (4 + voff)
      return some ((name, value), { s with offset := voff + consumed }) := by
  obtain ⟨htail, hlen⟩ := left_cons h
  have hget : s.body[s.offset]? = some tag := by rw [getElem?_eq_head?, h]; rfl
  unfold next
  rw [hget]
  simp only [h0, if_false, slice_to_end s.body (s.offset + 1) (by omega), htail, ok_bind]
  cases hnul : nulPos tail with
  | none => rfl
  | some rel =>
    obtain ⟨name, t, rfl, -, rfl⟩ := (nulPos_eq_some _ _).mp hnul
    simp only [List.length_append, List.length_cons] at hlen
    simp only [ofOption_some, ok_bind]
    rw [slice_ok _ _ _ (by omega) (by omega), slice_to_end _ _ (by omega), htail,
      Nat.add_sub_cancel_left, ← List.drop_drop, htail]
    rfl

theorem next_eq_none (s : Scanner) : s.next = .ok none ↔ s.left = [0] := by
  cases h : s.left with
  | nil =>
    have hget : s.body[s.offset]? = none := by rw [getElem?_eq_head?, h]; rfl
    simp [next, hget]
  | cons tag tail =>
    obtain ⟨-, hlen⟩ := left_cons h
    by_cases h0 : tag = 0
    · have hget : s.body[s.offset]? = some 0 := by rw [getElem?_eq_head?, h, h0]; rfl
      simp only [next, hget, if_true, ite_err_eq_ok, not_not, and_true, h0, List.cons.injEq,
        true_and]
      rw [← List.length_eq_zero_iff]
      omega
    · rw [next_of_left h h0]
      simp [bind_eq_ok, h0]

/-- `next` hands out a field if and only if that field's layout comes next. -/
theorem next_eq_some (s s' : Scanner) (hs : s.Over) (f : RawElem) :
    s.next = .ok (some (f, s')) ↔
      f.Readable ∧ s' = s.advance f.layout.length ∧ ∃ t, s.left = f.layout ++ t := by
  obtain ⟨name, v⟩ := f
  constructor
  · intro h
    cases hleft : s.left with
    | nil =>
      have hget : s.body[s.offset]? = none := by rw [getElem?_eq_head?, hleft]; rfl
      simp [next, hget] at h
    | cons tag tail =>
      obtain ⟨htail, -⟩ := left_cons hleft
      have h0 : tag ≠ 0 := by
        rintro rfl
        have hget : s.body[s.offset]? = some 0 := by rw [getElem?_eq_head?, hleft]; rfl
        simp only [next, hget, if_true, ite_err_eq_ok] at h
        cases h.2
      rw [next_of_left hleft h0] at h
      simp only [bind_eq_ok, ofOption_eq_ok, nulPos_eq_some, fromUtf8_eq_some] at h
      obtain ⟨_, ⟨_, rest, rfl, hnul, rfl⟩, name', hname, ⟨v', n⟩, hvalue, h⟩ := h
      rw [List.take_left] at hname
      subst hname
      have hp : s.parent.drop (4 + (s.offset + 1 + ((utf8 name').length + 1))) = rest := by
        rw [← List.drop_drop, ← hs, ← List.drop_drop, htail, ← List.drop_drop, List.drop_left]; rfl
      rw [← List.drop_drop, List.drop_left, List.drop_one, List.tail_cons,
        Decode.parseValue_eq_ok hp] at hvalue
      obtain ⟨rfl, hread, rfl, t, rfl⟩ := hvalue
      simp only [pure_eq, ok.injEq, Option.some.injEq, Prod.mk.injEq] at h
      obtain ⟨⟨rfl, rfl⟩, rfl⟩ := h
      refine ⟨⟨hnul, hread⟩, ?_, t, by simp [RawElem.layout, elemLayout, cstrLayout]⟩
      simp [RawElem.layout, advance]
      omega
  · rintro ⟨⟨hnul, hread⟩, rfl, t, hleft⟩
    have hshape : s.left = v.tag.toU8 :: (utf8 name ++ 0 :: (v.layout ++ t)) := by
      rw [hleft]; simp [RawElem.layout, elemLayout, cstrLayout]
    obtain ⟨htail, -⟩ := left_cons hshape
    have hp : s.parent.drop (4 + (s.offset + 1 + ((utf8 name).length + 1))) = v.layout ++ t := by
      rw [← List.drop_drop, ← hs, ← List.drop_drop, htail, ← List.drop_drop, List.drop_left]; rfl
    have hvalue := (Decode.parseValue_eq_ok hp v.tag.toU8 v v.layout.length).mpr
      ⟨rfl, hread, rfl, t, rfl⟩
    have hdrop : (utf8 name ++ 0 :: (v.layout ++ t)).drop ((utf8 name).length + 1) =
        v.layout ++ t := by
      rw [← List.drop_drop, List.drop_left]; rfl
    rw [next_of_left hshape (Tag.toU8_ne_zero _), nulPos_append _ _ hnul]
    simp only [ofOption_some, ok_bind, List.take_left, fromUtf8_utf8, hdrop, hvalue, pure_eq,
      ok.injEq, Option.some.injEq, Prod.mk.injEq, true_and, advance, mk.injEq]
    simp [RawElem.layout]
    omega

theorem left_advance (s : Scanner) (b t : Bytes) (h : s.left = b ++ t) :
    (s.advance b.length).left = t := by
  show s.body.drop (s.offset + b.length) = t
  rw [← List.drop_drop, show s.body.drop s.offset = b ++ t from h, List.drop_left]

theorem yields_iff (s : Scanner) (hs : s.Over) (items : List RawElem) :
    Yields next s items ↔
      (∀ f ∈ items, f.Readable) ∧ s.left = items.flatMap RawElem.layout ++ [0] := by
  induction items generalizing s with
  | nil =>
    rw [List.flatMap_nil, List.nil_append, ← next_eq_none]
    constructor
    · rintro ⟨hnext⟩; exact ⟨by simp, hnext⟩
    · rintro ⟨-, hnext⟩; exact .done hnext
  | cons f items ih =>
    rw [List.forall_mem_cons, List.flatMap_cons, List.append_assoc]
    constructor
    · intro h
      cases h with
      | more hnext hrest =>
        obtain ⟨hf, rfl, t, hleft⟩ := (next_eq_some s _ hs f).mp hnext
        obtain ⟨hall, htail⟩ := (ih _ (over_advance hs _)).mp hrest
        rw [left_advance s _ _ hleft] at htail
        exact ⟨⟨hf, hall⟩, by rw [hleft, htail]⟩
    · rintro ⟨⟨hf, hall⟩, hleft⟩
      refine .more ((next_eq_some s _ hs f).mpr ⟨hf, rfl, _, hleft⟩) ?_
      exact (ih _ (over_advance hs _)).mpr ⟨hall, left_advance s _ _ hleft⟩

theorem yields_new {b : Bytes} (hb : Framed b) (items : List RawElem) :
    Yields next (new b) items ↔
      (∀ f ∈ items, f.Readable) ∧ b = frame (items.flatMap RawElem.layout) := by
  rw [yields_iff _ (over_new b), left_new]
  refine and_congr_right fun _ => ?_
  obtain ⟨body, rfl, -⟩ := hb.eq_frame
  rw [drop_frame]
  constructor
  · intro h; rw [List.append_cancel_right h]
  · intro h; rw [← drop_frame, h, drop_frame]

end MongoWire.Scanner

/-! ## Lazy access -/

namespace MongoWire.FieldsIter

theorem items_of_yields {s : Scanner} {xs : List RawElem} (h : Yields Scanner.next s xs) :
    ∀ fuel, xs.length < fuel → items fuel ⟨s, false⟩ = xs.map .ok := by
  induction h with
  | done hnext =>
    intro fuel hfuel
    obtain ⟨n, rfl⟩ : ∃ n, fuel = n + 1 := ⟨fuel - 1, by simp at hfuel; omega⟩
    simp [items, FieldsIter.next, hnext]
  | more hnext _ ih =>
    intro fuel hfuel
    obtain ⟨n, rfl⟩ : ∃ n, fuel = n + 1 := ⟨fuel - 1, by simp at hfuel; omega⟩
    simp [items, FieldsIter.next, hnext, ih n (by simpa using hfuel)]

theorem yields_of_items (fuel : Nat) :
    ∀ (s : Scanner) (xs : List RawElem), items fuel ⟨s, false⟩ = xs.map .ok →
      Yields Scanner.next s xs := by
  induction fuel with
  | zero =>
    intro s xs h
    cases xs <;> simp [items] at h
  | succ fuel ih =>
    intro s xs h
    rw [items, FieldsIter.next] at h
    cases hnext : s.next with
    | ok o =>
      cases o with
      | none =>
        simp only [hnext, Bool.false_eq_true, if_false] at h
        rw [List.map_eq_nil_iff.mp h.symm]
        exact .done hnext
      | some p =>
        obtain ⟨f, s'⟩ := p
        simp only [hnext, Bool.false_eq_true, if_false] at h
        obtain ⟨x, xs, rfl, hx, hxs⟩ := List.map_eq_cons_iff.mp h.symm
        cases hx
        exact .more hnext (ih s' xs hxs.symm)
    | err e => cases xs <;> simp [hnext] at h
    | panic => cases xs <;> simp [hnext] at h
    | hang => cases xs <;> simp [hnext] at h

end MongoWire.FieldsIter
