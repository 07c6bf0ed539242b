import MongoWire.Lib.SelfDelimiting
import MongoWire.Messages.Total

/-!
# Cut bodies

A body that lost bytes at its end parses only when the cut falls between two
of its parts, and then as what stands before the cut. Every part is a word of
a self-delimiting code.
-/

open MongoWire.Lib MongoWire.Lib.Outcome

namespace MongoWire

/-! ## The parts of a body -/

theorem selfDelimiting_i32 : SelfDelimiting (fun _ => True) i32ToLe :=
  .of_length (by decide) length_i32ToLe fun a b => (i32ToLe_inj a b).mp

theorem selfDelimiting_i64 : SelfDelimiting (fun _ => True) i64ToLe :=
  .of_length (by decide) length_i64ToLe fun a b h => by
    rw [← i64FromLe_i64ToLe a, h, i64FromLe_i64ToLe]

theorem selfDelimiting_u32 : SelfDelimiting (fun _ => True) u32ToLe :=
  .of_length (by decide) length_u32ToLe fun a b => (u32ToLe_inj a b).mp

theorem selfDelimiting_cstr : SelfDelimiting (fun s => (0 : UInt8) ∉ utf8 s) cstrLayout where
  ne_nil := by simp [cstrLayout]
  unique := by
    intro a b s t ha hb h
    simp only [cstrLayout, List.append_assoc, List.singleton_append] at h
    have hpos := nulPos_append _ s ha
    rw [h, nulPos_append _ t hb, Option.some.injEq] at hpos
    exact utf8_injective (List.append_inj h hpos.symm).1

theorem selfDelimiting_document : SelfDelimiting DocFits RawDocument.bytes := by
  apply SelfDelimiting.of_header (w := 4) (by decide)
  · intro d hd
    exact Nat.le_trans (by decide) hd.1.long
  · intro d d' hd hd' h
    rw [← hd.1.declared, ← hd'.1.declared, h]
  · intro d d' _ _ h
    exact RawDocument.ext_bytes h

theorem selfDelimiting_sequence : SelfDelimiting SequenceFits fun seq => 1 :: sequenceLayout seq := by
  apply SelfDelimiting.of_header (w := 5) (by decide)
  · intro seq hseq
    have := hseq.long
    rw [List.length_cons, length_sequenceLayout]
    omega
  · intro seq seq' hseq hseq' h
    have hword : ∀ s, (1 :: sequenceLayout s).take 5 =
        1 :: u32ToLe (.ofNat (Sections.sequenceLen s)) := by
      intro s
      rw [List.take_succ_cons, sequenceLayout, List.take_left' (length_u32ToLe _)]
    rw [hword, hword, List.cons_inj_right, u32ToLe_inj, ← UInt32.toNat_inj, UInt32.toNat_ofNat',
      UInt32.toNat_ofNat', Nat.mod_eq_of_lt hseq.short, Nat.mod_eq_of_lt hseq'.short] at h
    rw [List.length_cons, List.length_cons, length_sequenceLayout, length_sequenceLayout, h]
  · intro seq seq' hseq hseq' h
    rw [List.cons_inj_right, sequenceLayout, sequenceLayout] at h
    obtain ⟨-, h⟩ := selfDelimiting_u32.append_inj trivial trivial h
    obtain ⟨hid, h⟩ := selfDelimiting_cstr.append_inj hseq.nul hseq'.nul h
    have hdocs := selfDelimiting_document.flatMap_inj hseq'.documents hseq.documents h
    cases seq; cases seq'
    simp_all

theorem exists_cut {b p : Bytes} {n : Nat} (hn : n < b.length) (hcut : b.take n = p) :
    p.length = n ∧ ∃ rest, rest ≠ [] ∧ p ++ rest = b := by
  subst hcut
  refine ⟨List.length_take_of_le (Nat.le_of_lt hn), b.drop n, ?_, List.take_append_drop n b⟩
  rw [Ne, List.drop_eq_nil_iff]
  omega

/-! ## Each body -/

theorem OpReply.truncated {b : Bytes} {n : Nat} (hn : n < b.length) {r : OpReply}
    (h : parseBody b = .ok r) : ∃ e, parseBody (b.take n) = .err e := by
  apply (returns_parseBody _).exists_err
  intro r' h'
  obtain ⟨raw, -, hr, hb⟩ := (parseBody_eq_ok _ _).mp h
  obtain ⟨raw', -, hr', hcut⟩ := (parseBody_eq_ok _ _).mp h'
  obtain ⟨-, rest, hrest, heq⟩ := exists_cut hn hcut
  rw [hb, tail, tail] at heq
  simp only [List.append_assoc] at heq
  obtain ⟨-, heq⟩ := selfDelimiting_i32.append_inj trivial trivial heq
  obtain ⟨-, heq⟩ := selfDelimiting_i64.append_inj trivial trivial heq
  obtain ⟨-, heq⟩ := selfDelimiting_i32.append_inj trivial trivial heq
  obtain ⟨hcount, heq⟩ := selfDelimiting_i32.append_inj trivial trivial heq
  -- The count fields agree, so the cut body has as many documents as the whole one.
  rw [ofNat_of_toInt _ _ hr'.count, ofNat_of_toInt _ _ hr.count] at hcount
  have hlen : r'.documents.length = r.documents.length := by
    have hcount' := hr'.count
    rw [hcount, hr.count] at hcount'
    omega
  exact hrest
    (selfDelimiting_document.flatMap_append_of_length hr.documents hr'.documents hlen heq)

theorem selector_cut {s s' : Option RawDocument} {rest : Bytes} (hs : ∀ d ∈ s, DocFits d)
    (hs' : ∀ d ∈ s', DocFits d) (hrest : rest ≠ [])
    (heq : s'.elim [] RawDocument.bytes ++ rest = s.elim [] RawDocument.bytes) :
    s' = none ∧ ∃ d, s = some d ∧ rest = d.bytes := by
  have hlist : ∀ o : Option RawDocument, o.elim [] RawDocument.bytes =
      o.toList.flatMap RawDocument.bytes := by
    intro o
    cases o <;> simp
  rw [hlist, hlist] at heq
  obtain ⟨zs, hzs, rfl⟩ := selfDelimiting_document.flatMap_append (by simpa using hs)
    (by simpa using hs') heq
  have hne : zs ≠ [] := by
    rintro rfl
    exact hrest rfl
  obtain ⟨z, zs, rfl⟩ := List.exists_cons_of_ne_nil hne
  cases s <;> cases s' <;> simp_all

theorem OpQuery.truncated {b : Bytes} {n : Nat} (hn : n < b.length) {q : OpQuery}
    (h : parseBody b = .ok q) (q' : OpQuery) :
    parseBody (b.take n) = .ok q' ↔ ∃ d, q.returnFieldsSelector = some d ∧
      n + d.bytes.length = b.length ∧ q' = { q with returnFieldsSelector := none } := by
  obtain ⟨raw, hflags, hq, hb⟩ := (parseBody_eq_ok _ _).mp h
  rw [parseBody_eq_ok]
  constructor
  · rintro ⟨raw', hflags', hq', hcut⟩
    obtain ⟨hlen, rest, hrest, hwhole⟩ := exists_cut hn hcut
    have heq := hwhole
    rw [hb, tail, tail] at heq
    simp only [List.append_assoc] at heq
    obtain ⟨hraw, heq⟩ := selfDelimiting_i32.append_inj trivial trivial heq
    obtain ⟨hname, heq⟩ := selfDelimiting_cstr.append_inj hq'.nul hq.nul heq
    obtain ⟨hskip, heq⟩ := selfDelimiting_i32.append_inj trivial trivial heq
    obtain ⟨hreturn, heq⟩ := selfDelimiting_i32.append_inj trivial trivial heq
    obtain ⟨hquery, heq⟩ := selfDelimiting_document.append_inj hq'.query hq.query heq
    obtain ⟨hnone, d, hd, rfl⟩ := selector_cut hq.selector hq'.selector hrest heq
    refine ⟨d, hd, by rw [← hwhole, List.length_append, hlen], ?_⟩
    rw [hflags, ← hraw, ← hflags', ← hname, ← hskip, ← hreturn, ← hquery, ← hnone]
  · rintro ⟨d, hd, hlen, rfl⟩
    refine ⟨raw, hflags, ⟨hq.name, hq.nul, hq.query, by simp⟩, ?_⟩
    have hsplit : b = i32ToLe raw ++ tail { q with returnFieldsSelector := none } ++ d.bytes := by
      rw [hb]
      simp [tail, selectorLayout, hd]
    have hsum := congrArg List.length hsplit
    rw [List.length_append] at hsum
    rw [hsplit]
    exact List.take_left' (by omega)

/-- The sections up to the `k`-th sequence. -/
def Sections.upTo (s : Sections) (k : Nat) : Sections := ⟨s.body, s.sequences.take k⟩

theorem Sections.Valid.upTo {s : Sections} (h : s.Valid) (k : Nat) : (s.upTo k).Valid := by
  refine ⟨fun seq hseq => h.identifier seq (List.mem_of_mem_take hseq), ?_⟩
  intro hne
  have hsome : s.sequences ≠ [] := by
    intro hnil
    exact hne (by rw [Sections.upTo, hnil, List.take_nil])
  obtain ⟨xs, hxs, hfresh⟩ := h.fresh hsome
  exact ⟨xs, hxs, fun seq hseq => hfresh seq (List.mem_of_mem_take hseq)⟩

namespace OpMsg

theorem ParsedFrom.upTo {w : UInt32} {m : OpMsg} (h : m.ParsedFrom w) (k : Nat) :
    ParsedFrom w { m with sections := m.sections.upTo k } :=
  ⟨h.required, h.flags, h.checksum, h.body,
    fun seq hseq => h.sequences seq (List.mem_of_mem_take hseq), h.valid.upTo k⟩

theorem ParsedFrom.trailer_eq_nil {w : UInt32} {m : OpMsg} (h : m.ParsedFrom w)
    (hw : w &&& MsgFlag.checksumPresent = 0) : m.checksum = none ∧ m.trailer = [] := by
  have hnone : m.checksum = none := by
    rw [← Option.not_isSome_iff_eq_none, h.checksum, not_not]
    exact hw
  exact ⟨hnone, by rw [trailer, hnone, Option.elim_none]⟩

theorem sectionsLayout_upTo (s : Sections) (k : Nat) :
    sectionsLayout s = sectionsLayout (s.upTo k) ++ sequencesLayout (s.sequences.drop k) := by
  simp only [sectionsLayout, Sections.upTo, sequencesLayout, List.append_assoc]
  rw [← List.flatMap_append, List.take_append_drop]

theorem truncated {b : Bytes} {n : Nat} (hn : n < b.length) {m : OpMsg} (h : parseBody b = .ok m)
    (hflag : m.flags.contains .checksumPresent = false) (m' : OpMsg) :
    parseBody (b.take n) = .ok m' ↔
      ∃ k, n = 4 + (m.sections.upTo k).size ∧ m' = { m with sections := m.sections.upTo k } := by
  obtain ⟨w, hm, hb⟩ := (parseBody_eq_ok _ _).mp h
  have hw : w &&& MsgFlag.checksumPresent = 0 := by
    rw [hm.flags, ← Bool.not_eq_true, MsgFlags.contains_fromBitsTruncate, not_not] at hflag
    exact hflag
  obtain ⟨hnone, htrailer⟩ := hm.trailer_eq_nil hw
  rw [layoutWith, tail, htrailer, List.append_nil] at hb
  rw [parseBody_eq_ok]
  constructor
  · rintro ⟨w', hm', hcut⟩
    obtain ⟨hlen, rest, -, heq⟩ := exists_cut hn hcut
    rw [hb, layoutWith, List.append_assoc] at heq
    obtain ⟨hword, heq⟩ := selfDelimiting_u32.append_inj trivial trivial heq
    obtain ⟨hnone', htrailer'⟩ := hm'.trailer_eq_nil (by rw [hword, hw])
    rw [tail, htrailer', List.append_nil, sectionsLayout, sectionsLayout] at heq
    simp only [List.cons_append, List.append_assoc, List.cons_inj_right] at heq
    obtain ⟨hbody, heq⟩ := selfDelimiting_document.append_inj hm'.body hm.body heq
    obtain ⟨left, hseqs, -⟩ := selfDelimiting_sequence.flatMap_append hm.sequences hm'.sequences heq
    have hupTo : m.sections.upTo m'.sections.sequences.length = m'.sections := by
      rw [Sections.upTo, hseqs, List.take_left, ← hbody]
    refine ⟨m'.sections.sequences.length, ?_, ?_⟩
    · rw [hupTo, size_eq, ← hlen, length_layoutWith, htrailer', List.length_nil, Nat.add_zero]
    · rw [hupTo, hnone, hm.flags, ← hword, ← hm'.flags, ← hnone']
  · rintro ⟨k, rfl, rfl⟩
    refine ⟨w, hm.upTo k, ?_⟩
    rw [hb, sectionsLayout_upTo m.sections k, ← List.append_assoc, size_eq]
    rw [List.take_left' (by simp)]
    simp [layoutWith, tail, (hm.upTo k).trailer_eq_nil hw]

end OpMsg

/-- **A cut body is never mistaken for a longer one.** A cut reply fails; a cut query parses only
without the whole of its selector; a cut message without checksum parses only at the end of a
section. -/
theorem truncated_bodies (b : Bytes) (n : Nat) (hn : n < b.length) :
    (∀ r, OpReply.parseBody b = .ok r → ∃ e, OpReply.parseBody (b.take n) = .err e) ∧
    (∀ q, OpQuery.parseBody b = .ok q → ∀ q', OpQuery.parseBody (b.take n) = .ok q' ↔
      ∃ d, q.returnFieldsSelector = some d ∧ n + d.bytes.length = b.length ∧
        q' = { q with returnFieldsSelector := none }) ∧
    (∀ m, OpMsg.parseBody b = .ok m → m.flags.contains .checksumPresent = false → ∀ m',
      OpMsg.parseBody (b.take n) = .ok m' ↔
        ∃ k, n = 4 + (m.sections.upTo k).size ∧ m' = { m with sections := m.sections.upTo k }) :=
  ⟨fun _ => OpReply.truncated hn, fun _ => OpQuery.truncated hn, fun _ => OpMsg.truncated hn⟩

/-- A reply of one empty document. -/
def replyBody : Bytes := [8, 0, 0, 0, 1, 0, 0, 0, 0, 0, 0, 0, 0, 0, 0, 0, 1, 0, 0, 0, 5, 0, 0, 0, 0]

/-- A query with an empty document and an empty selector. -/
def queryBody : Bytes :=
  [4, 0, 0, 0, 97, 46, 98, 0, 0, 0, 0, 0, 1, 0, 0, 0, 5, 0, 0, 0, 0, 5, 0, 0, 0, 0]

/-- An empty document and a sequence of no documents. -/
def sequenceBody : Bytes := [0, 0, 0, 0, 0, 5, 0, 0, 0, 0, 1, 9, 0, 0, 0, 100, 111, 99, 115, 0]

theorem truncated_bodies_emptyDocuments :
    (∃ e, OpReply.parseBody (replyBody.take 24) = .err e) ∧
    OpQuery.parseBody (queryBody.take 21) =
      .ok ⟨⟨4⟩, "a.b", 0, 1, OpMsg.emptyDocument, none⟩ ∧
    OpMsg.parseBody (sequenceBody.take 10) = .ok ⟨⟨0⟩, ⟨OpMsg.emptyDocument, []⟩, none⟩ :=
  -- The reply without its last byte, the query in front of its selector, and the message in front of
  -- its sequence.
  ⟨(truncated_bodies replyBody 24 (by decide)).1 ⟨⟨8⟩, 1, 0, 1, [OpMsg.emptyDocument]⟩
      (by decide),
    ((truncated_bodies queryBody 21 (by decide)).2.1
      ⟨⟨4⟩, "a.b", 0, 1, OpMsg.emptyDocument, some OpMsg.emptyDocument⟩ (by decide) _).mpr
      ⟨OpMsg.emptyDocument, rfl, by decide, rfl⟩,
    ((truncated_bodies sequenceBody 10 (by decide)).2.2
      ⟨⟨0⟩, ⟨OpMsg.emptyDocument, [⟨"docs", []⟩]⟩, none⟩ (by decide +kernel) (by decide) _).mpr
      ⟨0, by decide, rfl⟩⟩

end MongoWire
