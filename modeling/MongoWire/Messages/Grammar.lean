import MongoWire.Messages.Sections

/-!
# The grammar of `OP_MSG`

`parse_body` accepts exactly the bodies of the grammar, and what the
constructor builds is among them up to one exception.
-/

open MongoWire.Lib MongoWire.Lib.Outcome MongoWire.Io

namespace MongoWire

/-! ## Flags -/

namespace MsgFlags

theorem and_one (w : UInt32) : w &&& 1 = 0 ∨ w &&& 1 = 1 := by
  have h : (w &&& 1).toNat = w.toNat % 2 := by rw [UInt32.toNat_and]; exact Nat.and_one_is_mod _
  rcases Nat.mod_two_eq_zero_or_one w.toNat with h0 | h1
  · exact .inl (UInt32.toNat_inj.mp (by rw [h, h0]; rfl))
  · exact .inr (UInt32.toNat_inj.mp (by rw [h, h1]; rfl))

theorem contains_checksumPresent (f : MsgFlags) :
    f.contains checksumPresent = true ↔ f.bits &&& MsgFlag.checksumPresent ≠ 0 := by
  simp only [contains, checksumPresent, MsgFlag.checksumPresent]
  rcases and_one f.bits with h | h <;> simp [h]

theorem contains_fromBitsTruncate (w : UInt32) :
    (fromBitsTruncate w).contains checksumPresent = true ↔ w &&& MsgFlag.checksumPresent ≠ 0 := by
  rw [contains_checksumPresent, fromBitsTruncate, UInt32.and_assoc,
    show all &&& MsgFlag.checksumPresent = MsgFlag.checksumPresent by decide]

theorem parse_eq_ok (w : UInt32) (f : MsgFlags) :
    parse w = .ok f ↔ w &&& requiredBits &&& ~~~ all = 0 ∧ f = fromBitsTruncate w := by
  rw [parse, ite_err_eq_ok, not_not, ok.injEq, eq_comm (a := f)]
  rfl

end MsgFlags

/-! ## The whole body -/

namespace OpMsg

def trailer (m : OpMsg) : Bytes := m.checksum.elim [] u32ToLe

def sectionsLayout (s : Sections) : Bytes := 0 :: s.body.bytes ++ sequencesLayout s.sequences

/-- Everything behind the flag word. -/
def tail (m : OpMsg) : Bytes := sectionsLayout m.sections ++ m.trailer

def layoutWith (w : UInt32) (m : OpMsg) : Bytes := u32ToLe w ++ m.tail

theorem length_layoutWith (w : UInt32) (m : OpMsg) :
    (m.layoutWith w).length = 4 + (sectionsLayout m.sections).length + m.trailer.length := by
  simp [layoutWith, tail]
  omega

theorem length_sectionsLayout (s : Sections) :
    (sectionsLayout s).length = 1 + s.body.bytes.length + (sequencesLayout s.sequences).length := by
  simp [sectionsLayout]
  omega

theorem six_le_length {s : Sections} (h : DocFits s.body) : 6 ≤ (sectionsLayout s).length := by
  have hlong : 5 ≤ s.body.bytes.length := h.1.long
  rw [length_sectionsLayout]
  omega

/-- `m` is what the parser makes of its parts behind the flag word `w`. -/
structure ParsedFrom (w : UInt32) (m : OpMsg) : Prop where
  required : w &&& MsgFlags.requiredBits &&& ~~~ MsgFlags.all = 0
  flags : m.flags = .fromBitsTruncate w
  checksum : m.checksum.isSome = true ↔ w &&& MsgFlag.checksumPresent ≠ 0
  body : DocFits m.sections.body
  sequences : ∀ seq ∈ m.sections.sequences, SequenceFits seq
  valid : m.sections.Valid

theorem length_trailer (m : OpMsg) : m.trailer.length = if m.checksum.isSome then 4 else 0 := by
  cases h : m.checksum <;> simp [trailer, h]

theorem takeTrailer_eq_ok {body : Bytes} {stop : Nat} (checksummed : Bool)
    (hlen : stop + (if checksummed then 4 else 0) = body.length) (v : Option UInt32) :
    takeTrailer body stop checksummed = .ok v ↔
      v.isSome = checksummed ∧ window body stop body.length = v.elim [] u32ToLe := by
  cases checksummed with
  | false =>
    have hnil : window body stop body.length = [] := by
      rw [← List.length_eq_zero_iff, length_window _ _ _ (Nat.le_refl _)]
      simp at hlen
      omega
    cases v <;> simp [takeTrailer, hnil]
  | true =>
    simp only [if_true] at hlen
    simp only [takeTrailer, if_true, bind_eq_ok, u32At_eq_ok, pure_eq, ok.injEq, hlen,
      Nat.le_refl, true_and]
    constructor
    · rintro ⟨w, hw, rfl⟩; exact ⟨rfl, hw⟩
    · rintro ⟨hsome, hw⟩
      obtain ⟨w, rfl⟩ := Option.isSome_iff_exists.mp hsome
      exact ⟨w, hw, rfl⟩

theorem takeSections_start {body : Bytes} {stop : Nat} (hstop : stop ≤ body.length)
    {d : RawDocument} (hd : DocFits d) {seqs : List DocumentSequence}
    (hseqs : ∀ seq ∈ seqs, SequenceFits seq)
    (hwin : window body 4 stop = 0 :: d.bytes ++ sequencesLayout seqs) :
    takeSections body stop (body.length + 1) ⟨4, none, []⟩ = .ok ⟨stop, some d, seqs⟩ := by
  have hlen := length_window body 4 stop hstop
  rw [hwin, List.length_append, List.length_cons] at hlen
  have htail : window body (4 + (d.bytes.length + 1)) stop = sequencesLayout seqs :=
    window_of_append hwin
  rw [takeSections, takeSection_body hstop hd hwin, ok_bind]
  by_cases hnil : seqs = []
  · subst hnil
    simp only [sequencesLayout, List.flatMap_nil, List.length_nil] at hlen
    simp only
    rw [if_pos (by omega), show 4 + (d.bytes.length + 1) = stop by omega]
  · have hcount : seqs.length ≤ (sequencesLayout seqs).length := by
      rw [sequencesLayout, List.length_flatMap]
      exact List.length_le_sum_of_one_le _ (by simp) |>.trans' (by simp)
    have hpos := List.length_pos_iff.mpr hnil
    simp only
    rw [if_neg (by omega), takeSections_complete hstop seqs hseqs _ _ hnil (by omega)
      (by simp; omega) htail]
    rfl

theorem eq_windows (body : Bytes) (stop : Nat) (h4 : 4 ≤ stop) (hstop : stop ≤ body.length) :
    body = window body 0 4 ++ (window body 4 stop ++ window body stop body.length) := by
  rw [window_append _ _ _ _ h4 hstop, window_append _ _ _ _ (by omega) (by omega)]
  simp [window]

theorem parseBody_sound {b : Bytes} {m : OpMsg} (h : parseBody b = .ok m) :
    ∃ w, m.ParsedFrom w ∧ b = m.layoutWith w := by
  simp only [parseBody, ite_err_eq_ok, bind_eq_ok, u32At_eq_ok, MsgFlags.parse_eq_ok, usub_eq_ok,
    ofOption_eq_ok, Sections.new_eq_ok, pure_eq, ok.injEq, Nat.not_lt] at h
  obtain ⟨h5, w, ⟨-, hw⟩, _, ⟨hreq, rfl⟩, h6, _, ⟨-, rfl⟩, c, hc, checksum, hcheck, d, hd, s,
    ⟨rfl, hvalid⟩, rfl⟩ := h
  obtain ⟨present, hpresent⟩ : ∃ p, p = (MsgFlags.fromBitsTruncate w).contains .checksumPresent :=
    ⟨_, rfl⟩
  rw [← hpresent] at h6 hc hcheck
  obtain ⟨stop, hstop⟩ : ∃ s, s = b.length - if present then 4 else 0 := ⟨_, rfl⟩
  rw [← hstop] at hc hcheck
  have hlen : stop + (if present then 4 else 0) = b.length := by omega
  obtain ⟨hreads, hend⟩ :=
    takeSections_sound (by omega) _ _ _ (Cursor.reads_start (by omega)) (by simp only; omega) hc
  obtain ⟨hsome, htrail⟩ := (takeTrailer_eq_ok present hlen checksum).mp hcheck
  refine ⟨w, ⟨hreq, rfl, ?_, hreads.doc d hd, hreads.sequences, hvalid⟩, ?_⟩
  · rw [hsome, hpresent, MsgFlags.contains_fromBitsTruncate]
  · have hbytes := hreads.bytes
    rw [hend, Cursor.layout, hd, Option.elim_some] at hbytes
    rw [eq_windows b stop (by omega) (by omega), hw, hbytes, htrail]
    simp [layoutWith, tail, sectionsLayout, trailer]

theorem parseBody_complete {w : UInt32} {m : OpMsg} (h : m.ParsedFrom w) :
    parseBody (m.layoutWith w) = .ok m := by
  obtain ⟨b, hb⟩ : ∃ b, b = m.layoutWith w := ⟨_, rfl⟩
  obtain ⟨present, hpresent⟩ : ∃ p, p = (MsgFlags.fromBitsTruncate w).contains .checksumPresent :=
    ⟨_, rfl⟩
  have hsome : m.checksum.isSome = present := by
    rw [hpresent, Bool.eq_iff_iff, h.checksum, MsgFlags.contains_fromBitsTruncate]
  obtain ⟨stop, hstop⟩ : ∃ s, s = 4 + (sectionsLayout m.sections).length := ⟨_, rfl⟩
  have hlen : stop + (if present then 4 else 0) = b.length := by
    rw [hb, ← hsome, ← length_trailer, hstop, length_layoutWith]
  have hlong : 6 ≤ (sectionsLayout m.sections).length := six_le_length h.body
  have hwhole : window b 0 b.length = m.layoutWith w := by rw [hb]; simp [window]
  have hword : u32At b 0 = .ok w := by
    rw [u32At_eq_ok]
    exact ⟨by omega, window_front (Nat.le_refl _) (Nat.zero_le _) hwhole⟩
  have hbehind : window b 4 b.length = sectionsLayout m.sections ++ m.trailer :=
    window_of_append (s := u32ToLe w) hwhole
  have hsections : window b 4 stop = sectionsLayout m.sections := by
    rw [hstop]
    exact window_front (Nat.le_refl _) (by omega) hbehind
  have htrail : window b stop b.length = m.trailer := by
    rw [hstop]
    exact window_of_append hbehind
  have hloop := takeSections_start (by omega) h.body h.sequences hsections
  have hcheck := (takeTrailer_eq_ok present hlen m.checksum).mpr ⟨hsome, htrail⟩
  have hflags := (MsgFlags.parse_eq_ok w _).mpr ⟨h.required, rfl⟩
  have hnew := (Sections.new_eq_ok m.sections.body m.sections.sequences m.sections).mpr
    ⟨rfl, h.valid⟩
  have hsub : (usub b.length (if present then 4 else 0) : Outcome ProtocolError Nat) = .ok stop := by
    rw [usub_ok _ _ (by omega), ← hlen, Nat.add_sub_cancel]
  rw [← hb, parseBody, if_neg (by omega), hword]
  simp only [ok_bind, hflags, ← hpresent]
  rw [if_neg (by omega)]
  simp only [hsub, ok_bind, hloop, hcheck, ofOption_some, hnew, pure_eq, ← h.flags]

theorem parseBody_eq_ok (b : Bytes) (m : OpMsg) :
    parseBody b = .ok m ↔ ∃ w, m.ParsedFrom w ∧ b = m.layoutWith w := by
  refine ⟨parseBody_sound, ?_⟩
  rintro ⟨w, h, rfl⟩
  exact parseBody_complete h

/-- The bodies that the wire format allows, part by part, with the flag word `w`. -/
structure Grammar (w : UInt32) (b : Bytes) (m : OpMsg) : Prop where
  /-- No unknown bit among bits 0 to 15. -/
  required : w &&& MsgFlags.requiredBits &&& ~~~ MsgFlags.all = 0
  flags : m.flags = .fromBitsTruncate w
  checksum : m.checksum.isSome = true ↔ w &&& MsgFlag.checksumPresent ≠ 0
  /-- Flag word, body document, sequences, trailer, and nothing else. -/
  bytes : b = m.layoutWith w
  body : Framed m.sections.body.bytes
  sequences : ∀ seq ∈ m.sections.sequences, 9 ≤ Sections.sequenceLen seq ∧
    seq.identifier ≠ "" ∧ (0 : UInt8) ∉ utf8 seq.identifier ∧ ∀ d ∈ seq.documents, Framed d.bytes
  /-- With a sequence, the body scans to its end and uses none of the identifiers. -/
  fresh : m.sections.sequences ≠ [] → ∃ xs, Yields Scanner.next (.new m.sections.body.bytes) xs ∧
    ∀ seq ∈ m.sections.sequences, ∀ f ∈ xs, seq.identifier ≠ f.1

theorem sequenceLen_lt {seqs : List DocumentSequence} {seq : DocumentSequence} (h : seq ∈ seqs) :
    Sections.sequenceLen seq < (sequencesLayout seqs).length := by
  have := List.le_sum_of_mem
    (List.mem_map_of_mem (f := fun s => (1 :: sequenceLayout s).length) h)
  rw [List.length_cons, length_sequenceLayout] at this
  rw [sequencesLayout, List.length_flatMap]
  omega

theorem length_le_sequenceLen {seq : DocumentSequence} {d : RawDocument} (h : d ∈ seq.documents) :
    d.bytes.length ≤ Sections.sequenceLen seq := by
  have := length_le_documentsLen_of_mem h
  rw [Sections.sequenceLen]
  omega

theorem parsedFrom_iff_grammar (w : UInt32) (m : OpMsg) (hb : (m.layoutWith w).length < 2 ^ 31) :
    m.ParsedFrom w ↔ m.Grammar w (m.layoutWith w) := by
  rw [length_layoutWith, length_sectionsLayout] at hb
  constructor
  · intro h
    exact ⟨h.required, h.flags, h.checksum, rfl, h.body.1, fun seq hseq =>
      ⟨(h.sequences seq hseq).long, (h.valid.identifier seq hseq).1,
        (h.valid.identifier seq hseq).2, fun d hd => ((h.sequences seq hseq).documents d hd).1⟩,
      h.valid.fresh⟩
  · intro h
    refine ⟨h.required, h.flags, h.checksum, ⟨h.body, by omega⟩, ?_, ?_, h.fresh⟩
    · intro seq hseq
      obtain ⟨hlong, -, hnul, hdocs⟩ := h.sequences seq hseq
      have hlt := sequenceLen_lt hseq
      refine ⟨hlong, by omega, hnul, fun d hd => ⟨hdocs d hd, ?_⟩⟩
      have := length_le_sequenceLen hd
      omega
    · intro seq hseq
      obtain ⟨-, hne, hnul, -⟩ := h.sequences seq hseq
      exact ⟨hne, hnul⟩

/-- **`parse_body` is the grammar.** A body below 2 GiB is accepted, as `m`, if and only if it is
spelled by the parts of `m`. -/
theorem parseBody_iff_grammar (b : Bytes) (hb : b.length < 2 ^ 31) (m : OpMsg) :
    parseBody b = .ok m ↔ ∃ w, m.Grammar w b := by
  rw [parseBody_eq_ok]
  constructor
  · rintro ⟨w, h, rfl⟩
    exact ⟨w, (parsedFrom_iff_grammar w m hb).mp h⟩
  · rintro ⟨w, h⟩
    obtain rfl := h.bytes
    exact ⟨w, (parsedFrom_iff_grammar w m hb).mpr h, rfl⟩

def emptyDocument : RawDocument := .ofFramed [5, 0, 0, 0, 0] (by decide)

/-- A flag word with an unknown optional bit and a checksum, the empty document, and a sequence of
no documents. -/
def emptySequenceBody : Bytes :=
  [1, 0, 4, 0, 0, 5, 0, 0, 0, 0, 1, 9, 0, 0, 0, 100, 111, 99, 115, 0, 7, 0, 0, 0]

theorem parseBody_iff_grammar_emptySequence :
    parseBody emptySequenceBody = .ok
        ⟨.checksumPresent, ⟨emptyDocument, [⟨"docs", []⟩]⟩, some 7⟩ ∧
      ∃ w, Grammar w emptySequenceBody
        ⟨.checksumPresent, ⟨emptyDocument, [⟨"docs", []⟩]⟩, some 7⟩ :=
  ⟨by decide, (parseBody_iff_grammar emptySequenceBody (by decide) _).mp (by decide)⟩

/-! ## What the constructor builds -/

theorem putSequences_eq (seqs : List DocumentSequence) (out : Bytes) :
    putSequences seqs out = out ++ sequencesLayout seqs := by
  induction seqs generalizing out with
  | nil => simp [putSequences, sequencesLayout]
  | cons seq seqs ih =>
    simp [putSequences, ih, putSequence, putDocuments_eq, putU32Le, putU8, putBytes,
      sequencesLayout, sequenceLayout, cstrLayout]

theorem encodeBody_eq (m : OpMsg) (out : Bytes) :
    m.encodeBody out = out ++ m.layoutWith m.flags.bits := by
  cases h : m.checksum <;>
    simp [encodeBody, h, putSequences_eq, putU32Le, putU8, putBytes, layoutWith, tail,
      sectionsLayout, trailer]

theorem layoutWith_inj (w v : UInt32) (m : OpMsg) : m.layoutWith w = m.layoutWith v ↔ w = v := by
  rw [layoutWith, layoutWith, List.append_left_inj, u32ToLe_inj]

theorem parseBody_layoutWith (w : UInt32) (m : OpMsg) :
    parseBody (m.layoutWith w) = .ok m ↔ m.ParsedFrom w := by
  simp only [parseBody_eq_ok, layoutWith_inj]
  constructor
  · rintro ⟨_, h, rfl⟩; exact h
  · intro h; exact ⟨w, h, rfl⟩

theorem size_foldl (seqs : List DocumentSequence) (n : Nat) :
    seqs.foldl (fun n seq => n + (1 + Sections.sequenceLen seq)) n =
      n + (sequencesLayout seqs).length := by
  induction seqs generalizing n with
  | nil => simp [sequencesLayout]
  | cons seq seqs ih =>
    rw [List.foldl_cons, ih]
    simp [sequencesLayout]
    omega

theorem size_eq (s : Sections) : s.size = (sectionsLayout s).length := by
  rw [length_sectionsLayout]
  exact size_foldl s.sequences _

theorem bodyLen_eq (w : UInt32) (m : OpMsg) : m.bodyLen = (m.layoutWith w).length := by
  rw [bodyLen, size_eq, length_layoutWith, length_trailer]

theorem new_eq_ok (flags : MsgFlags) (body : RawDocument) (seqs : List DocumentSequence)
    (m : OpMsg) :
    new flags body seqs = .ok m ↔
      m = ⟨flags.difference .checksumPresent, ⟨body, seqs⟩, none⟩ ∧
        Sections.Valid ⟨body, seqs⟩ := by
  simp only [new, bind_eq_ok, Sections.new_eq_ok, pure_eq, ok.injEq]
  constructor
  · rintro ⟨s, ⟨rfl, hvalid⟩, rfl⟩; exact ⟨rfl, hvalid⟩
  · rintro ⟨rfl, hvalid⟩; exact ⟨_, ⟨rfl, hvalid⟩, rfl⟩

end OpMsg

/-- Only flags that have a name. -/
def MsgFlags.Known (f : MsgFlags) : Prop := f.bits &&& all = f.bits

instance (f : MsgFlags) : Decidable f.Known := inferInstanceAs (Decidable (_ = _))

theorem MsgFlags.Known.required {f : MsgFlags} (h : f.Known) :
    f.bits &&& requiredBits &&& ~~~ all = 0 := by
  rw [← h, UInt32.and_assoc, UInt32.and_assoc, show all &&& (requiredBits &&& ~~~ all) = 0 by decide,
    UInt32.and_zero]

theorem MsgFlags.Known.truncate {f : MsgFlags} (h : f.Known) : f = fromBitsTruncate f.bits := by
  rw [fromBitsTruncate, h]

theorem MsgFlags.Known.difference {f : MsgFlags} (h : f.Known) (g : MsgFlags) :
    (f.difference g).Known := by
  rw [Known, MsgFlags.difference, UInt32.and_assoc, UInt32.and_comm _ all, ← UInt32.and_assoc, h]

theorem MsgFlags.difference_and (f g : MsgFlags) : (f.difference g).bits &&& g.bits = 0 := by
  rw [difference, UInt32.and_assoc, UInt32.and_comm _ g.bits, UInt32.and_not_self, UInt32.and_zero]

namespace OpMsg

theorem nine_le_sequenceLen {seq : DocumentSequence} (hid : seq.identifier ≠ "")
    (hdocs : ∀ d ∈ seq.documents, Framed d.bytes) :
    9 ≤ Sections.sequenceLen seq ↔ (seq.documents = [] → 4 ≤ (utf8 seq.identifier).length) := by
  cases hd : seq.documents with
  | nil => simp [Sections.sequenceLen, documentsLen, hd]; omega
  | cons d ds =>
    have hlong : 5 ≤ d.bytes.length := (hdocs d (by simp [hd])).long
    have : 0 < (utf8 seq.identifier).length := by
      rw [List.length_pos_iff, ne_eq, utf8_eq_nil]
      exact hid
    simp [Sections.sequenceLen, documentsLen, hd]
    omega

/-- **What the constructor builds, the parser reads back, with one exception.** A sequence of no
documents needs an identifier of four bytes or more. -/
theorem parseBody_encodeBody_new_iff (flags : MsgFlags) (hflags : flags.Known) (body : RawDocument)
    (hbody : Framed body.bytes) (seqs : List DocumentSequence)
    (hdocs : ∀ seq ∈ seqs, ∀ d ∈ seq.documents, Framed d.bytes)
    (hsize : Sections.size ⟨body, seqs⟩ < maxMsgLen) (m : OpMsg)
    (hnew : new flags body seqs = .ok m) :
    parseBody (m.encodeBody []) = .ok m ↔
      ∀ seq ∈ seqs, seq.documents = [] → 4 ≤ (utf8 seq.identifier).length := by
  obtain ⟨rfl, hvalid⟩ := (new_eq_ok flags body seqs m).mp hnew
  rw [encodeBody_eq, List.nil_append, parseBody_layoutWith]
  rw [size_eq, length_sectionsLayout, maxMsgLen] at hsize
  simp only at hsize
  have hknown := hflags.difference .checksumPresent
  constructor
  · intro h seq hseq
    exact (nine_le_sequenceLen (hvalid.identifier seq hseq).1 (hdocs seq hseq)).mp
      (h.sequences seq hseq).long
  · intro h
    refine ⟨hknown.required, hknown.truncate, ?_, ⟨hbody, by simp only; omega⟩, ?_, hvalid⟩
    · have hclear : (flags.difference .checksumPresent).bits &&& MsgFlag.checksumPresent = 0 :=
        MsgFlags.difference_and flags .checksumPresent
      simp [hclear]
    · intro seq hseq
      have hlt : Sections.sequenceLen seq < (sequencesLayout seqs).length := sequenceLen_lt hseq
      refine ⟨(nine_le_sequenceLen (hvalid.identifier seq hseq).1 (hdocs seq hseq)).mpr
        (h seq hseq), by omega, (hvalid.identifier seq hseq).2,
        fun d hd => ⟨hdocs seq hseq d hd, ?_⟩⟩
      have := length_le_sequenceLen hd
      omega

/-- A sequence of no documents named `"abc"` is built and then refused. -/
theorem parseBody_encodeBody_new_shortIdentifier :
    MsgFlags.Known ⟨0⟩ ∧ Framed emptyDocument.bytes ∧
      Sections.size ⟨emptyDocument, [⟨"abc", []⟩]⟩ < maxMsgLen ∧
      new ⟨0⟩ emptyDocument [⟨"abc", []⟩] = .ok ⟨⟨0⟩, ⟨emptyDocument, [⟨"abc", []⟩]⟩, none⟩ ∧
      parseBody (encodeBody ⟨⟨0⟩, ⟨emptyDocument, [⟨"abc", []⟩]⟩, none⟩ []) =
        .err (.invalidOpMsg "section size too small") := by
  decide

theorem parseBody_encodeBody_new_docs :
    parseBody (encodeBody ⟨⟨0⟩, ⟨emptyDocument, [⟨"docs", []⟩, ⟨"a", [emptyDocument]⟩]⟩, none⟩ []) =
      .ok ⟨⟨0⟩, ⟨emptyDocument, [⟨"docs", []⟩, ⟨"a", [emptyDocument]⟩]⟩, none⟩ :=
  (parseBody_encodeBody_new_iff ⟨0⟩ (by decide) emptyDocument (by decide)
    [⟨"docs", []⟩, ⟨"a", [emptyDocument]⟩] (by decide) (by decide) _
    (by decide)).mpr (by decide)

end OpMsg

end MongoWire
