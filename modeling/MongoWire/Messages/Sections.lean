import MongoWire.Messages.OpMsg
import MongoWire.Bson.Access

/-!
# The sections of `OP_MSG`

What the bytes of a section are, and that the section loop of `parse_body`
accepts exactly these bytes. `stop` is the end of the sections, in front of a
checksum if there is one.
-/

open MongoWire.Lib MongoWire.Lib.Outcome MongoWire.Io

namespace MongoWire

/-! ## Documents back to back -/

/-- A complete document whose length is an `i32`. -/
def DocFits (d : RawDocument) : Prop := Framed d.bytes ∧ d.bytes.length < 2 ^ 31

def documentsLayout (ds : List RawDocument) : Bytes := ds.flatMap RawDocument.bytes

@[simp] theorem length_documentsLayout (ds : List RawDocument) :
    (documentsLayout ds).length = documentsLen ds := by
  simp [documentsLayout, documentsLen, List.length_flatMap]

theorem putDocuments_eq (ds : List RawDocument) (out : Bytes) :
    putDocuments ds out = out ++ documentsLayout ds := by
  induction ds generalizing out with
  | nil => simp [putDocuments, documentsLayout]
  | cons d ds ih => simp [putDocuments, ih, putBytes, documentsLayout]

theorem length_mul_le_documentsLen (ds : List RawDocument) (h : ∀ d ∈ ds, DocFits d) :
    ds.length * minDocLen ≤ documentsLen ds := by
  induction ds with
  | nil => simp
  | cons d ds ih =>
    obtain ⟨hd, hds⟩ := List.forall_mem_cons.mp h
    have hlong := hd.1.long
    have := ih hds
    simp only [documentsLen, List.map_cons, List.sum_cons, List.length_cons, minDocLen] at *
    omega

theorem length_le_documentsLen (ds : List RawDocument) (h : ∀ d ∈ ds, DocFits d) :
    ds.length ≤ documentsLen ds :=
  Nat.le_trans (Nat.le_mul_of_pos_right _ (by decide)) (length_mul_le_documentsLen ds h)

theorem length_le_documentsLen_of_mem {d : RawDocument} {ds : List RawDocument} (h : d ∈ ds) :
    d.bytes.length ≤ documentsLen ds :=
  List.le_sum_of_mem (List.mem_map_of_mem (f := fun d : RawDocument => d.bytes.length) h)

theorem i32FromLe_take {d : RawDocument} (h : DocFits d) (t : Bytes) :
    (i32FromLe ((d.bytes ++ t).take 4)).toInt = d.bytes.length := by
  have hlong : 5 ≤ d.bytes.length := h.1.long
  have hlt := h.2
  rw [List.take_append_of_le_length (by omega), toInt_i32FromLe _ (by simp; omega), h.1.declared,
    if_pos hlt]

/-! ## Sequences -/

/-- One kind-1 section without its kind byte: size, identifier, documents. -/
def sequenceLayout (seq : DocumentSequence) : Bytes :=
  u32ToLe (.ofNat (Sections.sequenceLen seq)) ++
    (cstrLayout seq.identifier ++ documentsLayout seq.documents)

@[simp] theorem length_sequenceLayout (seq : DocumentSequence) :
    (sequenceLayout seq).length = Sections.sequenceLen seq := by
  simp [sequenceLayout, Sections.sequenceLen]; omega

/-- What the parser demands of a sequence on its own. -/
structure SequenceFits (seq : DocumentSequence) : Prop where
  /-- At least five bytes follow the size field. -/
  long : 9 ≤ Sections.sequenceLen seq
  short : Sections.sequenceLen seq < 2 ^ 32
  nul : (0 : UInt8) ∉ utf8 seq.identifier
  documents : ∀ d ∈ seq.documents, DocFits d

namespace OpMsg

variable {body : Bytes} {offset stop : Nat}

/-! ## Taking documents -/

theorem takeDocument_eq_ok (hstop : stop ≤ body.length) (doc : RawDocument) (next : Nat) :
    takeDocument body offset stop = .ok (doc, next) ↔
      DocFits doc ∧ next = offset + doc.bytes.length ∧
        ∃ t, window body offset stop = doc.bytes ++ t := by
  have hlen := length_window body offset stop hstop
  constructor
  · intro h
    simp only [takeDocument, ite_err_eq_ok, Nat.not_lt] at h
    obtain ⟨hoff, h4, h⟩ := h
    rw [slice_window body offset (offset + 4) (by omega) (by omega),
      ← take_window body offset stop 4 (by omega)] at h
    simp only [ok_bind, bind_eq_ok, expectBlock_eq_ok, ite_err_eq_ok, not_or, Int.not_lt,
      Nat.not_lt, mapErr_eq_ok, RawDocument.fromBytes_eq_ok, slice_eq_ok, pure_eq, ok.injEq,
      Prod.mk.injEq] at h
    obtain ⟨b, -, ⟨h5, hle⟩, _, ⟨-, hend, rfl⟩, d, ⟨hframed, hbytes⟩, rfl, rfl⟩ := h
    obtain ⟨len, hlen'⟩ : ∃ len, len = i32AsUsize (i32FromLe b.val) := ⟨_, rfl⟩
    have hpos := i32AsUsize_of_nonneg _ (Int.le_trans (by decide) h5)
    have hlt := (i32FromLe b.val).toInt_lt
    rw [← hlen'] at hle hend hbytes hpos ⊢
    have hbytes : d.bytes = (window body offset stop).take len := by
      rw [take_window _ _ _ _ (by omega), hbytes, window]
    have hdlen : d.bytes.length = len := by rw [hbytes, List.length_take_of_le (by omega)]
    refine ⟨⟨hframed, by omega⟩, by rw [hdlen], (window body offset stop).drop len, ?_⟩
    rw [hbytes, List.take_append_drop]
  · rintro ⟨hfits, rfl, t, ht⟩
    have hlong : 5 ≤ doc.bytes.length := hfits.1.long
    rw [ht, List.length_append] at hlen
    have hint := i32FromLe_take hfits t
    have hsize : i32AsUsize (i32FromLe ((doc.bytes ++ t).take 4)) = doc.bytes.length :=
      i32AsUsize_of_toInt hint
    have hfrom := RawDocument.fromBytes_bytes hfits.1
    have htake4 : ((doc.bytes ++ t).take 4).length = 4 := by simp; omega
    rw [takeDocument, if_neg (by omega)]
    simp only
    rw [if_neg (by omega), slice_window body offset (offset + 4) (by omega) (by omega),
      ← take_window body offset stop 4 (by omega), ht]
    simp only [ok_bind, expectBlock, htake4, dite_true, hint, hsize, minDocLen]
    rw [if_neg (by omega), slice_window _ _ _ (by omega) (by omega),
      ← take_window body offset stop _ (by omega), ht, List.take_left]
    simp [hfrom]

theorem takeDocuments_sound {secEnd : Nat} (hend : secEnd ≤ body.length) (fuel : Nat) :
    ∀ (offset : Nat) (acc docs : List RawDocument) (next : Nat), offset ≤ secEnd →
      takeDocuments body secEnd fuel (secEnd - offset) offset acc = .ok (docs, next) →
      ∃ ds, docs = acc ++ ds ∧ next = secEnd ∧ (∀ d ∈ ds, DocFits d) ∧
        window body offset secEnd = documentsLayout ds := by
  induction fuel with
  | zero => intro _ _ _ _ _ h; cases h
  | succ fuel ih =>
    intro offset acc docs next hoff h
    rw [takeDocuments] at h
    split at h
    · cases h
      refine ⟨[], by simp, by omega, by simp, List.length_eq_zero_iff.mp ?_⟩
      rw [length_window _ _ _ hend]
      omega
    · simp only [bind_eq_ok, Prod.exists, takeDocument_eq_ok hend, usub_eq_ok] at h
      obtain ⟨d, _, ⟨hfits, rfl, t, ht⟩, _, ⟨-, rfl⟩, _, ⟨-, rfl⟩, h⟩ := h
      have hlen := length_window body offset secEnd hend
      rw [ht, List.length_append] at hlen
      have hrest : secEnd - offset - (offset + d.bytes.length - offset) =
          secEnd - (offset + d.bytes.length) := by omega
      rw [hrest] at h
      obtain ⟨ds, rfl, rfl, hds, hlay⟩ := ih _ _ _ _ (by omega) h
      refine ⟨d :: ds, by simp, rfl, List.forall_mem_cons.mpr ⟨hfits, hds⟩, ?_⟩
      rw [window_of_append ht] at hlay
      rw [ht, hlay]
      rfl

theorem takeDocuments_complete {secEnd : Nat} (hend : secEnd ≤ body.length)
    (ds : List RawDocument) (hds : ∀ d ∈ ds, DocFits d) :
    ∀ (fuel offset : Nat) (acc : List RawDocument), ds.length < fuel → offset ≤ secEnd →
      window body offset secEnd = documentsLayout ds →
      takeDocuments body secEnd fuel (secEnd - offset) offset acc = .ok (acc ++ ds, secEnd) := by
  induction ds with
  | nil =>
    intro fuel offset acc hfuel hoff hlay
    obtain ⟨n, rfl⟩ : ∃ n, fuel = n + 1 := ⟨fuel - 1, by simp at hfuel; omega⟩
    have hlen := length_window body offset secEnd hend
    rw [hlay] at hlen
    simp only [documentsLayout, List.flatMap_nil, List.length_nil] at hlen
    rw [takeDocuments, if_pos hlen.symm, List.append_nil, show offset = secEnd by omega]
  | cons d ds ih =>
    intro fuel offset acc hfuel hoff hlay
    obtain ⟨n, rfl⟩ : ∃ n, fuel = n + 1 := ⟨fuel - 1, by simp at hfuel; omega⟩
    obtain ⟨hd, hds⟩ := List.forall_mem_cons.mp hds
    have hsplit : window body offset secEnd = d.bytes ++ documentsLayout ds := hlay
    have hlen := length_window body offset secEnd hend
    rw [hsplit, List.length_append] at hlen
    have hlong : 5 ≤ d.bytes.length := hd.1.long
    have htake := (takeDocument_eq_ok hend d _).mpr ⟨hd, rfl, _, hsplit⟩
    have hrest : secEnd - offset - (offset + d.bytes.length - offset) =
        secEnd - (offset + d.bytes.length) := by omega
    rw [takeDocuments, if_neg (by omega), htake]
    simp only [ok_bind, usub_ok _ _ (show offset ≤ offset + d.bytes.length by omega),
      usub_ok _ _ (show offset + d.bytes.length - offset ≤ secEnd - offset by omega), hrest]
    rw [ih hds n _ _ (by simp at hfuel; omega) (by omega) (window_of_append hsplit)]
    simp

/-! ## Taking a sequence -/

theorem u32At_eq_ok (i : Nat) (w : UInt32) :
    u32At body i = .ok w ↔ i + 4 ≤ body.length ∧ window body i (i + 4) = u32ToLe w := by
  simp only [u32At, bind_eq_ok, slice_eq_ok, expectBlock_eq_ok, pure_eq, ok.injEq]
  constructor
  · rintro ⟨_, ⟨-, hle, rfl⟩, b, hb, rfl⟩
    refine ⟨hle, ?_⟩
    rw [u32ToLe_u32FromLe _ b.property, ← hb, window]
  · rintro ⟨hle, hw⟩
    exact ⟨_, ⟨by omega, hle, rfl⟩, ⟨u32ToLe w, by simp⟩, hw, by simp⟩

theorem takePayload_eq_ok {secEnd : Nat} (hoff : offset ≤ secEnd) (hend : secEnd ≤ body.length)
    (seq : DocumentSequence) (next : Nat) :
    takePayload body offset secEnd = .ok (seq, next) ↔
      ((0 : UInt8) ∉ utf8 seq.identifier ∧ ∀ d ∈ seq.documents, DocFits d) ∧ next = secEnd ∧
        window body offset secEnd = cstrLayout seq.identifier ++ documentsLayout seq.documents := by
  have hlen := length_window body offset secEnd hend
  rw [takePayload, slice_window body offset secEnd hoff hend]
  constructor
  · intro h
    simp only [ok_bind, bind_eq_ok (ofOption _ _), ofOption_eq_ok, nulPos_eq_some] at h
    obtain ⟨_, ⟨name, t, hwin, hnul, rfl⟩, h⟩ := h
    rw [hwin, List.length_append, List.length_cons] at hlen
    have hname : window body offset (offset + name.length) = name := by
      rw [← take_window _ _ secEnd _ (by omega), hwin, List.take_left]
    have htail : window body (offset + (name.length + 1)) secEnd = t := by
      rw [show name.length + 1 = (name ++ [0]).length by simp]
      exact window_of_append (by rw [hwin]; simp)
    rw [slice_window _ _ _ (by omega) (by omega), hname] at h
    simp only [ok_bind, bind_eq_ok, ofOption_eq_ok, fromUtf8_eq_some, Prod.exists, pure_eq, ok.injEq,
      Prod.mk.injEq, usub_eq_ok] at h
    obtain ⟨ident, rfl, _, ⟨hle, rfl⟩, docs, _, hdocs, rfl, rfl⟩ := h
    obtain ⟨ds, rfl, rfl, hds, hlay⟩ := takeDocuments_sound hend _ _ _ _ _ hle hdocs
    refine ⟨⟨hnul, hds⟩, rfl, ?_⟩
    rw [hwin, ← htail, hlay]
    simp [cstrLayout]
  · rintro ⟨⟨hnul, hds⟩, rfl, hwin⟩
    have hwin' : window body offset next =
        utf8 seq.identifier ++ 0 :: documentsLayout seq.documents := by
      rw [hwin]; simp [cstrLayout]
    have hfuel := length_le_documentsLen _ hds
    rw [hwin'] at hlen
    simp only [List.length_append, List.length_cons, length_documentsLayout] at hlen
    have hname : window body offset (offset + (utf8 seq.identifier).length) =
        utf8 seq.identifier := by
      rw [← take_window _ _ next _ (by omega), hwin', List.take_left]
    have htail : window body (offset + ((utf8 seq.identifier).length + 1)) next =
        documentsLayout seq.documents := by
      rw [← length_cstrLayout]
      exact window_of_append hwin
    have hdocs := takeDocuments_complete hend _ hds (body.length + 1) _ [] (by omega) (by omega)
      htail
    rw [hwin', ok_bind, nulPos_append _ _ hnul]
    simp only [ok_bind, ofOption_some, slice_window body offset _ (show offset ≤ offset +
      (utf8 seq.identifier).length by omega) (by omega), hname, fromUtf8_utf8,
      usub_ok _ _ (show offset + ((utf8 seq.identifier).length + 1) ≤ next by omega), hdocs]
    simp

theorem takeSequence_eq_ok (hstop : stop ≤ body.length) (seq : DocumentSequence) (next : Nat) :
    takeSequence body offset stop = .ok (seq, next) ↔
      SequenceFits seq ∧ next = offset + Sections.sequenceLen seq ∧
        ∃ t, window body offset stop = sequenceLayout seq ++ t := by
  have hlen := length_window body offset stop hstop
  constructor
  · intro h
    simp only [takeSequence, ite_err_eq_ok, Nat.not_lt, bind_eq_ok, u32At_eq_ok, usub_eq_ok,
      Int.not_lt] at h
    obtain ⟨hoff, hroom, w, ⟨-, hw⟩, h5, _, ⟨-, rfl⟩, _, ⟨-, rfl⟩, hsize, h⟩ := h
    obtain ⟨n, hn⟩ : ∃ n : Nat, (w.toNat : Int) - 4 = n := ⟨w.toNat - 4, by omega⟩
    rw [hn] at h h5 hsize
    rw [Int.toNat_natCast, takePayload_eq_ok (by omega) (by omega)] at h
    obtain ⟨⟨hnul, hds⟩, rfl, hwin⟩ := h
    have hn' := length_window body (offset + 4) (offset + 4 + n) (by omega)
    simp only [hwin, List.length_append, length_cstrLayout, length_documentsLayout,
      Nat.add_sub_cancel_left] at hn'
    have hsize : w.toNat = Sections.sequenceLen seq := by rw [Sections.sequenceLen]; omega
    have hlt := w.toNat_lt
    refine ⟨⟨by omega, by omega, hnul, hds⟩, by omega, window body (offset + 4 + n) stop, ?_⟩
    rw [sequenceLayout, ← hsize, UInt32.ofNat_toNat, ← hw, ← hwin,
      window_append _ _ _ _ (by omega) (by omega), window_append _ _ _ _ (by omega) (by omega)]
  · rintro ⟨hfits, rfl, t, ht⟩
    have hsize : (UInt32.ofNat (Sections.sequenceLen seq)).toNat = Sections.sequenceLen seq := by
      rw [UInt32.toNat_ofNat', Nat.mod_eq_of_lt hfits.short]
    have hlong := hfits.long
    rw [ht, List.length_append, length_sequenceLayout] at hlen
    rw [sequenceLayout, List.append_assoc] at ht
    have hword : u32At body offset = .ok (.ofNat (Sections.sequenceLen seq)) := by
      rw [u32At_eq_ok, ← take_window body offset stop 4 (by omega), ht]
      exact ⟨by omega, List.take_left' (length_u32ToLe _)⟩
    have hpay : window body (offset + 4) (offset + Sections.sequenceLen seq) =
        cstrLayout seq.identifier ++ documentsLayout seq.documents := by
      obtain ⟨n, hn⟩ : ∃ n, Sections.sequenceLen seq = 4 + n :=
        ⟨Sections.sequenceLen seq - 4, by omega⟩
      have htail : window body (offset + 4) stop = _ := window_of_append ht
      rw [hn, ← Nat.add_assoc, ← take_window _ _ stop _ (by omega), htail]
      exact List.take_left' (by simp [Sections.sequenceLen] at hn ⊢; omega)
    have hpayload : takePayload body (offset + 4) (offset + Sections.sequenceLen seq) = .ok (seq, _) :=
      (takePayload_eq_ok (by omega) (by omega) seq _).mpr
        ⟨⟨hfits.nul, hfits.documents⟩, rfl, hpay⟩
    have hend : offset + 4 + ((Sections.sequenceLen seq : Int) - 4).toNat =
        offset + Sections.sequenceLen seq := by omega
    rw [takeSequence, if_neg (by omega)]
    simp only
    rw [if_neg (by omega), hword]
    simp only [ok_bind, hsize, usub_ok _ _ (show offset ≤ stop by omega),
      usub_ok _ _ (show 4 ≤ stop - offset by omega), hend, hpayload]
    rw [if_neg (by omega), if_neg (by omega)]

/-! ## The section loop -/

def sequencesLayout (seqs : List DocumentSequence) : Bytes :=
  seqs.flatMap fun seq => 1 :: sequenceLayout seq

namespace Cursor

/-- The sections that a cursor has seen. -/
def layout (c : Cursor) : Bytes :=
  (c.bodyDoc.elim [] fun d => 0 :: d.bytes) ++ sequencesLayout c.sequences

/-- The bytes between the flags and the cursor are the sections seen so far. -/
structure Reads (body : Bytes) (stop : Nat) (c : Cursor) : Prop where
  low : 4 ≤ c.offset
  high : c.offset ≤ stop
  bytes : window body 4 c.offset = c.layout
  doc : ∀ d ∈ c.bodyDoc, DocFits d
  sequences : ∀ seq ∈ c.sequences, SequenceFits seq

theorem reads_start (h : 4 ≤ stop) : Reads body stop ⟨4, none, []⟩ :=
  ⟨Nat.le_refl _, h, by simp [window, layout, sequencesLayout], by simp, by simp⟩

theorem Reads.advance {c c' : Cursor} {x t : Bytes} (h : c.Reads body stop)
    (hstop : stop ≤ body.length) (hx : window body c.offset stop = x ++ t)
    (hoff : c'.offset = c.offset + x.length) (hlay : c'.layout = c.layout ++ x)
    (hdoc : ∀ d ∈ c'.bodyDoc, DocFits d) (hseq : ∀ seq ∈ c'.sequences, SequenceFits seq) :
    c'.Reads body stop := by
  have hlen := length_window body c.offset stop hstop
  rw [hx, List.length_append] at hlen
  have hlow := h.low
  have hhigh := h.high
  refine ⟨by omega, by omega, ?_, hdoc, hseq⟩
  rw [hoff, hlay, ← window_append body 4 c.offset _ hlow (by omega), h.bytes,
    window_front hstop hhigh hx]

end Cursor

theorem window_kind {c : Cursor} (hc : c.offset < stop) {kind : UInt8}
    (hkind : body[c.offset]? = some kind) :
    window body c.offset stop = kind :: window body (c.offset + 1) stop := by
  rw [getElem?_window body c.offset stop hc] at hkind
  rw [← drop_window]
  cases h : window body c.offset stop with
  | nil => rw [h] at hkind; cases hkind
  | cons x xs => rw [h] at hkind; cases hkind; rfl

theorem takeSection_sound (hstop : stop ≤ body.length) {c c' : Cursor} (hc : c.Reads body stop)
    (hlt : c.offset < stop) (h : takeSection body stop c = .ok c') :
    c'.Reads body stop ∧ c.offset < c'.offset := by
  unfold takeSection at h
  split at h
  · cases h
  · rename_i kind hkind
    have hwin := window_kind hlt hkind
    by_cases h0 : kind = 0
    · subst h0
      simp only [if_true, ite_err_eq_ok, bind_eq_ok, Prod.exists, takeDocument_eq_ok hstop, pure_eq,
        ok.injEq, Bool.not_eq_true, Option.isSome_eq_false_iff, Option.isNone_iff_eq_none,
        not_not] at h
      obtain ⟨hnone, hnil, d, _, ⟨hd, rfl, t, ht⟩, rfl⟩ := h
      refine ⟨hc.advance hstop (hwin.trans (by rw [ht]; rfl) : _ = (0 :: d.bytes) ++ t) ?_ ?_ ?_ ?_,
        by simp only; omega⟩
      · simp; omega
      · simp [Cursor.layout, hnone, hnil, sequencesLayout]
      · simpa using hd
      · exact hc.sequences
    · by_cases h1 : kind = 1
      · subst h1
        simp only [h0, if_false, if_true, bind_eq_ok, Prod.exists, takeSequence_eq_ok hstop,
          pure_eq, ok.injEq] at h
        obtain ⟨seq, _, ⟨hfits, rfl, t, ht⟩, rfl⟩ := h
        refine ⟨hc.advance hstop
          (hwin.trans (by rw [ht]; rfl) : _ = (1 :: sequenceLayout seq) ++ t) ?_ ?_ hc.doc ?_,
          by simp only; omega⟩
        · simp; omega
        · simp [Cursor.layout, sequencesLayout]
        · intro s hs
          rw [List.mem_append, List.mem_singleton] at hs
          rcases hs with hs | rfl
          · exact hc.sequences s hs
          · exact hfits
      · simp [h0, h1] at h

theorem takeSections_sound (hstop : stop ≤ body.length) (fuel : Nat) :
    ∀ c c', c.Reads body stop → c.offset < stop → takeSections body stop fuel c = .ok c' →
      c'.Reads body stop ∧ c'.offset = stop := by
  induction fuel with
  | zero => intro _ _ _ _ h; cases h
  | succ fuel ih =>
    intro c c' hc hlt h
    simp only [takeSections, bind_eq_ok] at h
    obtain ⟨c₁, h₁, h⟩ := h
    obtain ⟨hc₁, -⟩ := takeSection_sound hstop hc hlt h₁
    split at h <;> rename_i hend
    · cases h
      exact ⟨hc₁, hend⟩
    · have := hc₁.high
      exact ih c₁ c' hc₁ (by omega) h

theorem takeSection_body (hstop : stop ≤ body.length) {d : RawDocument} (hd : DocFits d)
    {t : Bytes} (ht : window body 4 stop = 0 :: d.bytes ++ t) :
    takeSection body stop ⟨4, none, []⟩ = .ok ⟨4 + (d.bytes.length + 1), some d, []⟩ := by
  have hlen := length_window body 4 stop hstop
  rw [ht] at hlen
  simp only [List.length_append, List.length_cons] at hlen
  have hkind : body[4]? = some 0 := by rw [getElem?_window body 4 stop (by omega), ht]; rfl
  have htail : window body (4 + 1) stop = d.bytes ++ t :=
    window_of_append (s := [0]) (by rw [ht]; rfl)
  have hdoc := (takeDocument_eq_ok hstop d _).mpr ⟨hd, rfl, t, htail⟩
  simp only [takeSection, hkind, if_true, Option.isSome_none, Bool.false_eq_true, if_false, ne_eq,
    not_true_eq_false, hdoc, ok_bind, pure_eq, ok.injEq, Cursor.mk.injEq, and_true]
  omega

theorem takeSection_sequence (hstop : stop ≤ body.length) (c : Cursor) {seq : DocumentSequence}
    (hfits : SequenceFits seq) {t : Bytes}
    (ht : window body c.offset stop = 1 :: sequenceLayout seq ++ t) :
    takeSection body stop c =
      .ok { c with offset := c.offset + (1 + Sections.sequenceLen seq),
                   sequences := c.sequences ++ [seq] } := by
  have hlen := length_window body c.offset stop hstop
  rw [ht] at hlen
  simp only [List.length_append, List.length_cons] at hlen
  have hkind : body[c.offset]? = some 1 := by
    rw [getElem?_window body c.offset stop (by omega), ht]; rfl
  have htail : window body (c.offset + 1) stop = sequenceLayout seq ++ t :=
    window_of_append (s := [1]) (by rw [ht]; rfl)
  have hseq := (takeSequence_eq_ok hstop seq _).mpr ⟨hfits, rfl, t, htail⟩
  have h10 : ¬ (1 : UInt8) = 0 := by decide
  simp only [takeSection, hkind, h10, if_true, if_false, hseq, ok_bind, pure_eq, ok.injEq,
    Cursor.mk.injEq, and_true]
  omega

theorem takeSections_complete (hstop : stop ≤ body.length) (seqs : List DocumentSequence)
    (hfits : ∀ seq ∈ seqs, SequenceFits seq) :
    ∀ (fuel : Nat) (c : Cursor), seqs ≠ [] → seqs.length ≤ fuel → c.offset ≤ stop →
      window body c.offset stop = sequencesLayout seqs →
      takeSections body stop fuel c =
        .ok { c with offset := stop, sequences := c.sequences ++ seqs } := by
  induction seqs with
  | nil => intro _ _ h; exact absurd rfl h
  | cons seq seqs ih =>
    intro fuel c _ hfuel hc hwin
    obtain ⟨n, rfl⟩ : ∃ n, fuel = n + 1 := ⟨fuel - 1, by simp at hfuel; omega⟩
    obtain ⟨hseq, hseqs⟩ := List.forall_mem_cons.mp hfits
    have hsplit : window body c.offset stop = 1 :: sequenceLayout seq ++ sequencesLayout seqs := hwin
    have hlen := length_window body c.offset stop hstop
    rw [hsplit, List.length_append, List.length_cons, length_sequenceLayout] at hlen
    have htail : window body (c.offset + (1 + Sections.sequenceLen seq)) stop =
        sequencesLayout seqs := by
      have := window_of_append hsplit
      rwa [List.length_cons, length_sequenceLayout, Nat.add_comm _ 1] at this
    rw [takeSections, takeSection_sequence hstop c hseq hsplit, ok_bind]
    by_cases hnil : seqs = []
    · subst hnil
      rw [if_pos (by simp [sequencesLayout] at hlen; simp; omega)]
      simp [sequencesLayout] at hlen
      simp
      omega
    · have hpos : 0 < (sequencesLayout seqs).length := by
        obtain ⟨s, rest, rfl⟩ := List.exists_cons_of_ne_nil hnil
        simp [sequencesLayout]
      rw [if_neg (by simp; omega), ih hseqs n _ hnil (by simp at hfuel; omega) (by simp; omega) htail]
      simp

end OpMsg

/-! ## The rules on identifiers -/

namespace Sections

theorem checkIdentifiers_eq_ok (names : List Bytes) (seqs : List DocumentSequence) :
    checkIdentifiers names seqs = .ok () ↔
      ∀ seq ∈ seqs, seq.identifier ≠ "" ∧ (0 : UInt8) ∉ utf8 seq.identifier ∧
        utf8 seq.identifier ∉ names := by
  induction seqs with
  | nil => simp [checkIdentifiers]
  | cons seq seqs ih =>
    rw [checkIdentifiers, ite_err_eq_ok, ite_err_eq_ok, ite_err_eq_ok, ih, List.forall_mem_cons]
    simp only [List.contains_iff_mem]
    tauto

theorem bodyFields_eq_ok (body : RawDocument) (names : List Bytes) :
    bodyFields body = .ok names ↔
      ∃ xs, Yields Scanner.next (.new body.bytes) xs ∧ names = xs.map fun f => utf8 f.1 := by
  have hmap := mapM_map_eq_ok (fun f : RawElem => utf8 f.1) body.fields names
  simp only [RawDocument.fields_eq_map_ok] at hmap
  exact hmap

/-- What `Sections::new` demands: named sequences, and names that the body does not use. -/
structure Valid (s : Sections) : Prop where
  identifier : ∀ seq ∈ s.sequences, seq.identifier ≠ "" ∧ (0 : UInt8) ∉ utf8 seq.identifier
  fresh : s.sequences ≠ [] → ∃ xs, Yields Scanner.next (.new s.body.bytes) xs ∧
    ∀ seq ∈ s.sequences, ∀ f ∈ xs, seq.identifier ≠ f.1

theorem new_eq_ok (body : RawDocument) (seqs : List DocumentSequence) (s : Sections) :
    new body seqs = .ok s ↔ s = ⟨body, seqs⟩ ∧ s.Valid := by
  have hfresh : ∀ (xs : List RawElem) (seq : DocumentSequence),
      utf8 seq.identifier ∉ xs.map (fun f => utf8 f.1) ↔ ∀ f ∈ xs, seq.identifier ≠ f.1 := by
    intro xs seq
    simp only [List.mem_map, not_exists, not_and]
    exact forall₂_congr fun f _ => not_congr ⟨fun h => (utf8_injective h).symm, fun h => h ▸ rfl⟩
  by_cases hnil : seqs = []
  · subst hnil
    simp only [new, if_true, ok.injEq]
    constructor
    · rintro rfl; exact ⟨rfl, by simp, by simp⟩
    · rintro ⟨rfl, -⟩; rfl
  · simp only [new, hnil, if_false, bind_eq_ok, mapErr_eq_ok, bodyFields_eq_ok,
      pure_eq, ok.injEq]
    constructor
    · rintro ⟨_, ⟨xs, hxs, rfl⟩, _, hall, rfl⟩
      rw [checkIdentifiers_eq_ok] at hall
      exact ⟨rfl, fun seq hseq => ⟨(hall seq hseq).1, (hall seq hseq).2.1⟩,
        fun _ => ⟨xs, hxs, fun seq hseq => (hfresh xs seq).mp (hall seq hseq).2.2⟩⟩
    · rintro ⟨rfl, hvalid⟩
      obtain ⟨xs, hxs, hall⟩ := hvalid.fresh hnil
      refine ⟨_, ⟨xs, hxs, rfl⟩, (), (checkIdentifiers_eq_ok _ _).mpr ?_, rfl⟩
      intro seq hseq
      exact ⟨(hvalid.identifier seq hseq).1, (hvalid.identifier seq hseq).2,
        (hfresh xs seq).mpr (hall seq hseq)⟩

/-- **One scan or one lookup per sequence.** Collecting the names of the body up front accepts the
same sequences as looking each identifier up, malformed bodies included. -/
theorem new_iff_get (body : RawDocument) (seqs : List DocumentSequence) :
    (∃ s, new body seqs = .ok s) ↔
      ∀ seq ∈ seqs, seq.identifier ≠ "" ∧ (0 : UInt8) ∉ utf8 seq.identifier ∧
        body.get seq.identifier = .ok none := by
  simp only [new_eq_ok, RawDocument.get_eq_none]
  constructor
  · rintro ⟨s, rfl, hvalid⟩ seq hseq
    obtain ⟨xs, hxs, hfresh⟩ := hvalid.fresh (List.ne_nil_of_mem hseq)
    refine ⟨(hvalid.identifier seq hseq).1, (hvalid.identifier seq hseq).2, xs, hxs, ?_⟩
    intro f hf
    exact (hfresh seq hseq f hf).symm
  · intro h
    refine ⟨⟨body, seqs⟩, rfl, fun seq hseq => ⟨(h seq hseq).1, (h seq hseq).2.1⟩, ?_⟩
    intro hne
    -- All lookups scan the same body, so they went through the same names.
    obtain ⟨first, hfirst⟩ := List.exists_mem_of_ne_nil seqs hne
    obtain ⟨-, -, xs, hxs, -⟩ := h first hfirst
    refine ⟨xs, hxs, fun seq hseq f hf => ?_⟩
    obtain ⟨-, -, ys, hys, hfresh⟩ := h seq hseq
    rw [hxs.unique hys] at hf
    exact (hfresh f hf).symm

end Sections

end MongoWire
