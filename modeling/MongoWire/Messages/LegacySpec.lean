import MongoWire.Messages.Legacy
import MongoWire.Messages.Grammar

/-!
# What `OP_QUERY` and `OP_REPLY` accept

Both bodies are a flag word and a tail. Parsing keeps the known bits of the
word and accepts exactly the tails that encoding writes.
-/

open MongoWire.Lib MongoWire.Lib.Outcome MongoWire.Io

namespace MongoWire

namespace Legacy

theorem takeDocument_eq_ok {body r : Bytes} (hr : r <:+ body) (d : RawDocument) (t : Bytes) :
    takeDocument body r = .ok (d, t) ↔ DocFits d ∧ r = d.bytes ++ t := by
  have hle := hr.length_le
  rw [takeDocument, usub_ok _ _ hle, ok_bind]
  constructor
  · intro h
    simp only [bind_eq_ok, mapErr_eq_ok, ite_err_eq_ok, not_or, Int.not_lt, Nat.not_lt,
      readBytes_eq_ok, RawDocument.fromBytes_eq_ok, Prod.exists, pure_eq, ok.injEq,
      Prod.mk.injEq] at h
    obtain ⟨len, -, ⟨h5, hlen⟩, b, hslice, d', ⟨hframed, hbytes⟩, s, t', ⟨rfl, hs⟩, rfl, rfl⟩ := h
    have hint := i32AsUsize_of_nonneg len (Int.le_trans (by decide) h5)
    have hlt := len.toInt_lt
    rw [slice_suffix hr _ hlen, ok.injEq, ← hs, List.take_left] at hslice
    subst hslice
    rw [hbytes]
    exact ⟨⟨hframed, by rw [hbytes, hs]; omega⟩, rfl⟩
  · rintro ⟨hfits, rfl⟩
    have hlong : 5 ≤ d.bytes.length := hfits.1.long
    have hint := i32FromLe_take hfits t
    obtain ⟨len, hlen⟩ : ∃ len, len = i32FromLe ((d.bytes ++ t).take 4) := ⟨_, rfl⟩
    rw [← hlen] at hint
    have hsize : i32AsUsize len = d.bytes.length := i32AsUsize_of_toInt hint
    have hpeek : peekI32Le (d.bytes ++ t) = .ok len := by
      refine (peekI32Le_eq_ok _ _).mpr ⟨(d.bytes ++ t).drop 4, ?_⟩
      rw [hlen, i32ToLe_i32FromLe _ (by simp; omega), List.take_append_drop]
    have hfrom := RawDocument.fromBytes_bytes hfits.1
    have hread : readBytes d.bytes.length (d.bytes ++ t) = .ok (d.bytes, t) :=
      (readBytes_eq_ok ..).mpr ⟨rfl, rfl⟩
    rw [hpeek, mapErr_ok, ok_bind, if_neg (by simp [minDocLen, hsize]; omega), hsize,
      slice_suffix hr _ (by simp), List.take_left, ok_bind, hfrom, mapErr_ok, ok_bind, hread]
    rfl

end Legacy

/-! ## `OP_QUERY` -/

namespace OpQuery

def selectorLayout (q : OpQuery) : Bytes := q.returnFieldsSelector.elim [] RawDocument.bytes

def tail (q : OpQuery) : Bytes :=
  cstrLayout q.fullCollectionName ++ (i32ToLe q.numberToSkip ++ (i32ToLe q.numberToReturn ++
    (q.query.bytes ++ q.selectorLayout)))

/-- What the parser demands of the parts. -/
structure Readable (q : OpQuery) : Prop where
  name : q.fullCollectionName ≠ ""
  nul : (0 : UInt8) ∉ utf8 q.fullCollectionName
  query : DocFits q.query
  selector : ∀ d ∈ q.returnFieldsSelector, DocFits d

theorem encodeBody_eq (q : OpQuery) (out : Bytes) :
    q.encodeBody out = out ++ (i32ToLe q.flags.bits ++ q.tail) := by
  cases h : q.returnFieldsSelector <;>
    simp [encodeBody, h, putI32Le, putU8, putBytes, tail, selectorLayout, cstrLayout]

theorem bodyLen_eq (q : OpQuery) : q.bodyLen = 4 + q.tail.length := by
  cases h : q.returnFieldsSelector <;> simp [bodyLen, h, tail, selectorLayout] <;> omega

theorem takeSelector_eq_ok {body r : Bytes} (hr : r <:+ body) (s : Option RawDocument) :
    takeSelector body r = .ok (s, []) ↔
      (∀ d ∈ s, DocFits d) ∧ r = s.elim [] RawDocument.bytes := by
  unfold takeSelector
  split <;> rename_i hnil
  · subst hnil
    cases s with
    | none => simp
    | some d =>
      simp only [ok.injEq, Prod.mk.injEq, reduceCtorEq, false_and, false_iff, not_and]
      intro hd hbytes
      have hlong := (hd d rfl).1.long
      rw [Option.elim_some] at hbytes
      simp [← hbytes, minDocLen] at hlong
  · simp only [bind_eq_ok, Prod.exists, Legacy.takeDocument_eq_ok hr, pure_eq, ok.injEq,
      Prod.mk.injEq]
    constructor
    · rintro ⟨d, _, ⟨hd, rfl⟩, rfl, rfl⟩
      simp [hd]
    · rintro ⟨hd, rfl⟩
      cases s with
      | none => exact absurd rfl hnil
      | some d => exact ⟨d, [], ⟨hd d rfl, by simp⟩, rfl, rfl⟩

theorem parseBody_eq_ok (b : Bytes) (q : OpQuery) :
    parseBody b = .ok q ↔ ∃ raw, q.flags = .fromBitsTruncate raw ∧ q.Readable ∧
      b = i32ToLe raw ++ q.tail := by
  simp only [parseBody, bind_eq_ok, mapErr_eq_ok, Prod.exists, readI32Le_eq_ok, readCstring_eq_ok,
    ite_err_eq_ok, ofOption_eq_ok, fromUtf8_eq_some, not_not, ok.injEq]
  constructor
  · rintro ⟨raw, _, rfl, _, _, ⟨rfl, hnul⟩, hname, name, rfl, skip, _, rfl, ret, r, rfl, query,
      r', hquery, selector, _, hsel, rfl, rfl⟩
    have hr : r <:+ i32ToLe raw ++ (utf8 name ++ 0 :: (i32ToLe skip ++ (i32ToLe ret ++ r))) :=
      ⟨i32ToLe raw ++ (utf8 name ++ 0 :: (i32ToLe skip ++ i32ToLe ret)), by simp⟩
    obtain ⟨hfits, rfl⟩ := (Legacy.takeDocument_eq_ok hr _ _).mp hquery
    have hr' := (List.suffix_append query.bytes r').trans hr
    obtain ⟨hdocs, rfl⟩ := (takeSelector_eq_ok hr' _).mp hsel
    exact ⟨raw, rfl, ⟨by rwa [utf8_eq_nil] at hname, hnul, hfits, hdocs⟩,
      by simp [tail, selectorLayout, cstrLayout]⟩
  · rintro ⟨raw, hflags, h, rfl⟩
    obtain ⟨flags, name, skip, ret, query, selector⟩ := q
    simp only at hflags
    have hr : query.bytes ++ selectorLayout ⟨flags, name, skip, ret, query, selector⟩ <:+
        i32ToLe raw ++ tail ⟨flags, name, skip, ret, query, selector⟩ :=
      ⟨i32ToLe raw ++ (utf8 name ++ 0 :: (i32ToLe skip ++ i32ToLe ret)), by simp [tail, cstrLayout]⟩
    refine ⟨raw, _, rfl, utf8 name, _, ⟨by simp [tail, cstrLayout], h.nul⟩,
      by rw [utf8_eq_nil]; exact h.name, name, rfl, skip, _, rfl, ret, _, rfl, query, _,
      (Legacy.takeDocument_eq_ok hr _ _).mpr ⟨h.query, rfl⟩, selector, [],
      (takeSelector_eq_ok ((List.suffix_append _ _).trans hr) _).mpr ⟨h.selector, rfl⟩, rfl, ?_⟩
    rw [hflags]

end OpQuery

/-! ## `OP_REPLY` -/

namespace OpReply

def tail (r : OpReply) : Bytes :=
  i64ToLe r.cursorId ++ (i32ToLe r.startingFrom ++ (i32ToLe (.ofNat r.documents.length) ++
    documentsLayout r.documents))

structure Readable (r : OpReply) : Prop where
  count : r.numberReturned.toInt = r.documents.length
  documents : ∀ d ∈ r.documents, DocFits d

theorem encodeBody_eq (r : OpReply) (out : Bytes) :
    r.encodeBody out = out ++ (i32ToLe r.responseFlags.bits ++ r.tail) := by
  simp [encodeBody, putI32Le, putI64Le, putDocuments_eq, tail]

theorem bodyLen_eq (r : OpReply) : r.bodyLen = 4 + r.tail.length := by
  simp [bodyLen, tail]
  omega

theorem takeDocuments_eq_ok {body : Bytes} (n : Nat) :
    ∀ {r : Bytes}, r <:+ body → ∀ (acc docs : List RawDocument) (t : Bytes),
      takeDocuments body n r acc = .ok (docs, t) ↔
        ∃ ds, docs = acc ++ ds ∧ ds.length = n ∧ (∀ d ∈ ds, DocFits d) ∧
          r = documentsLayout ds ++ t := by
  induction n with
  | zero =>
    intro r _ acc docs t
    simp only [takeDocuments, ok.injEq, Prod.mk.injEq, List.length_eq_zero_iff]
    constructor
    · rintro ⟨rfl, rfl⟩; exact ⟨[], by simp [documentsLayout]⟩
    · rintro ⟨_, rfl, rfl, -, rfl⟩; simp
  | succ n ih =>
    intro r hr acc docs t
    simp only [takeDocuments, bind_eq_ok, Prod.exists, Legacy.takeDocument_eq_ok hr]
    constructor
    · rintro ⟨d, r', ⟨hd, rfl⟩, h⟩
      obtain ⟨ds, rfl, rfl, hds, rfl⟩ := (ih ((List.suffix_append _ _).trans hr) _ _ _).mp h
      exact ⟨d :: ds, by simp, rfl, by simpa using ⟨hd, hds⟩, by simp [documentsLayout]⟩
    · rintro ⟨ds, rfl, hlen, hds, rfl⟩
      obtain ⟨d, ds, rfl⟩ := List.exists_cons_of_length_eq_add_one hlen
      obtain ⟨hd, hds⟩ := List.forall_mem_cons.mp hds
      have hsplit : documentsLayout (d :: ds) ++ t = d.bytes ++ (documentsLayout ds ++ t) := by
        simp [documentsLayout]
      rw [hsplit] at hr ⊢
      exact ⟨d, _, ⟨hd, rfl⟩, (ih ((List.suffix_append _ _).trans hr) _ _ _).mpr
        ⟨ds, by simp, by simpa using hlen, hds, rfl⟩⟩

theorem parseBody_eq_ok (b : Bytes) (m : OpReply) :
    parseBody b = .ok m ↔ ∃ raw, m.responseFlags = .fromBitsTruncate raw ∧ m.Readable ∧
      b = i32ToLe raw ++ m.tail := by
  simp only [parseBody, bind_eq_ok, mapErr_eq_ok, Prod.exists, readI32Le_eq_ok, readI64Le_eq_ok,
    ite_err_eq_ok, not_not, ok.injEq, Int.not_lt, Nat.not_lt]
  constructor
  · rintro ⟨raw, _, rfl, cursor, _, rfl, start, _, rfl, count, r, rfl, hpos, -, docs, _, hdocs,
      rfl, rfl⟩
    have hr : r <:+ i32ToLe raw ++ (i64ToLe cursor ++ (i32ToLe start ++ (i32ToLe count ++ r))) :=
      ⟨i32ToLe raw ++ (i64ToLe cursor ++ (i32ToLe start ++ i32ToLe count)), by simp⟩
    obtain ⟨ds, hacc, hlen, hds, rfl⟩ := (takeDocuments_eq_ok _ hr _ _ _).mp hdocs
    rw [List.nil_append] at hacc
    subst hacc
    have hcount : count.toInt = docs.length := by omega
    exact ⟨raw, rfl, ⟨hcount, hds⟩, by simp [tail, ofNat_of_toInt _ _ hcount]⟩
  · rintro ⟨raw, hflags, h, rfl⟩
    obtain ⟨flags, cursor, start, count, docs⟩ := m
    obtain ⟨hcount, hdocs⟩ := h
    simp only at hflags hcount hdocs
    have hsize : i32AsUsize count = docs.length := i32AsUsize_of_toInt hcount
    have hroom : docs.length ≤ (documentsLayout docs).length / minDocLen := by
      rw [length_documentsLayout, Nat.le_div_iff_mul_le (by decide)]
      exact length_mul_le_documentsLen docs hdocs
    have hr : documentsLayout docs <:+ i32ToLe raw ++ tail ⟨flags, cursor, start, count, docs⟩ :=
      ⟨i32ToLe raw ++ (i64ToLe cursor ++ (i32ToLe start ++ i32ToLe (.ofNat docs.length))),
        by simp [tail]⟩
    refine ⟨raw, _, rfl, cursor, _, rfl, start, _, rfl, count, documentsLayout docs,
      by rw [ofNat_of_toInt _ _ hcount], by omega, by rwa [hsize], docs, [],
      (takeDocuments_eq_ok _ hr _ _ _).mpr ⟨docs, rfl, by omega, hdocs, by simp⟩, rfl, ?_⟩
    rw [hflags]

end OpReply

/-! ## Round trips -/

/-- Only flags that have a name. -/
def QueryFlags.Known (f : QueryFlags) : Prop := f.bits &&& all = f.bits

def ReplyFlags.Known (f : ReplyFlags) : Prop := f.bits &&& all = f.bits

instance (f : QueryFlags) : Decidable f.Known := inferInstanceAs (Decidable (_ = _))

instance (f : ReplyFlags) : Decidable f.Known := inferInstanceAs (Decidable (_ = _))

theorem QueryFlags.Known.truncate {f : QueryFlags} (h : f.Known) : f = fromBitsTruncate f.bits := by
  rw [fromBitsTruncate, h]

theorem ReplyFlags.Known.truncate {f : ReplyFlags} (h : f.Known) : f = fromBitsTruncate f.bits := by
  rw [fromBitsTruncate, h]

/-- A query as a caller builds it: a collection name that is a C string, and documents that passed
their check. -/
structure OpQuery.WellFormed (q : OpQuery) : Prop where
  flags : q.flags.Known
  name : q.fullCollectionName ≠ ""
  nul : (0 : UInt8) ∉ utf8 q.fullCollectionName
  query : Framed q.query.bytes
  selector : ∀ d ∈ q.returnFieldsSelector, Framed d.bytes

/-- A reply whose count is that of its documents. -/
structure OpReply.WellFormed (r : OpReply) : Prop where
  flags : r.responseFlags.Known
  count : r.numberReturned.toInt = r.documents.length
  documents : ∀ d ∈ r.documents, Framed d.bytes

theorem OpQuery.WellFormed.readable {q : OpQuery} (h : q.WellFormed) (hlen : q.bodyLen < maxMsgLen) :
    q.Readable := by
  rw [bodyLen_eq, tail] at hlen
  simp only [List.length_append, maxMsgLen] at hlen
  refine ⟨h.name, h.nul, ⟨h.query, by omega⟩, ?_⟩
  intro d hd
  have hsel : q.selectorLayout = d.bytes := by rw [selectorLayout, hd, Option.elim_some]
  rw [hsel] at hlen
  exact ⟨h.selector d hd, by omega⟩

theorem OpReply.WellFormed.readable {r : OpReply} (h : r.WellFormed) (hlen : r.bodyLen < maxMsgLen) :
    r.Readable := by
  refine ⟨h.count, ?_⟩
  intro d hd
  have hle := length_le_documentsLen_of_mem hd
  rw [bodyLen, maxMsgLen] at hlen
  exact ⟨h.documents d hd, by omega⟩

/-- **The legacy bodies round-trip.** A query or reply below the message limit takes up `body_len`
bytes and reads back as itself. -/
theorem legacy_round_trip :
    (∀ q : OpQuery, q.WellFormed → q.bodyLen < maxMsgLen →
      (∀ out, (q.encodeBody out).length = out.length + q.bodyLen) ∧
        OpQuery.parseBody (q.encodeBody []) = .ok q) ∧
    (∀ r : OpReply, r.WellFormed → r.bodyLen < maxMsgLen →
      (∀ out, (r.encodeBody out).length = out.length + r.bodyLen) ∧
        OpReply.parseBody (r.encodeBody []) = .ok r) := by
  constructor
  · intro q hq hlen
    constructor
    · intro out
      rw [q.encodeBody_eq, q.bodyLen_eq, List.length_append, List.length_append, length_i32ToLe]
    · rw [q.encodeBody_eq, List.nil_append, OpQuery.parseBody_eq_ok]
      exact ⟨_, hq.flags.truncate, hq.readable hlen, rfl⟩
  · intro r hr hlen
    constructor
    · intro out
      rw [r.encodeBody_eq, r.bodyLen_eq, List.length_append, List.length_append, length_i32ToLe]
    · rw [r.encodeBody_eq, List.nil_append, OpReply.parseBody_eq_ok]
      exact ⟨_, hr.flags.truncate, hr.readable hlen, rfl⟩

theorem legacy_round_trip_emptyDocuments :
    OpQuery.parseBody (OpQuery.encodeBody
        ⟨⟨4⟩, "a.b", -1, 2, OpMsg.emptyDocument, some OpMsg.emptyDocument⟩ []) =
      .ok ⟨⟨4⟩, "a.b", -1, 2, OpMsg.emptyDocument, some OpMsg.emptyDocument⟩ ∧
    OpReply.parseBody (OpReply.encodeBody
        ⟨⟨8⟩, -5, 3, 2, [OpMsg.emptyDocument, OpMsg.emptyDocument]⟩ []) =
      .ok ⟨⟨8⟩, -5, 3, 2, [OpMsg.emptyDocument, OpMsg.emptyDocument]⟩ :=
  -- A query with a selector, and a reply of two documents.
  ⟨(legacy_round_trip.1 _ ⟨by decide, by decide, by decide, by decide, by decide⟩
      (by decide +kernel)).2,
    (legacy_round_trip.2 _ ⟨by decide, by decide, by decide⟩ (by decide +kernel)).2⟩

end MongoWire
