import MongoWire.Messages.Body

/-!
# The errors of a body

Only framing compares checksums, and only decompression asks for a compressor:
the parsers of the plain bodies fail with neither error.
-/

open MongoWire.Lib MongoWire.Lib.Outcome MongoWire.Io

namespace MongoWire

/-- Any error but a checksum mismatch. -/
@[simp] def ProtocolError.Unrelated : ProtocolError → Prop
  | .checksumMismatch _ _ => False
  | _ => True

/-- The call does not fail with a checksum mismatch. -/
abbrev NoMismatch {α : Type} (x : Outcome ProtocolError α) : Prop :=
  x.FailsWith ProtocolError.Unrelated

/-- The errors of the plain bodies: neither of a checksum nor of a compressor. -/
@[simp] def ProtocolError.OfBody : ProtocolError → Prop
  | .checksumMismatch _ _ => False
  | .unsupportedCompressor _ => False
  | _ => True

abbrev FailsInside {α : Type} (x : Outcome ProtocolError α) : Prop :=
  x.FailsWith ProtocolError.OfBody

theorem Sections.failsInside_checkIdentifiers (names : List Bytes) (seqs : List DocumentSequence) :
    FailsInside (checkIdentifiers names seqs) := by
  induction seqs with
  | nil => simp [checkIdentifiers]
  | cons seq seqs ih => simp [checkIdentifiers, failsWith_ite, ih]

theorem Sections.failsInside_new (body : RawDocument) (seqs : List DocumentSequence) :
    FailsInside (new body seqs) := by
  simp [new, failsWith_ite, failsWith_bind, failsInside_checkIdentifiers]

namespace OpMsg

theorem failsInside_u32At (body : Bytes) (i : Nat) : FailsInside (u32At body i) := by
  simp [u32At, failsWith_bind]

theorem failsInside_takeDocument (body : Bytes) (offset stop : Nat) :
    FailsInside (takeDocument body offset stop) := by
  simp [takeDocument, failsWith_ite, failsWith_bind]

theorem failsInside_takeDocuments (body : Bytes) (secEnd fuel : Nat) :
    ∀ secRest offset acc, FailsInside (takeDocuments body secEnd fuel secRest offset acc) := by
  induction fuel with
  | zero => intros; trivial
  | succ fuel ih =>
    intro secRest offset acc
    simp [takeDocuments, failsWith_ite, failsWith_bind, failsInside_takeDocument, ih]

theorem failsInside_takeSequence (body : Bytes) (offset stop : Nat) :
    FailsInside (takeSequence body offset stop) := by
  simp [takeSequence, takePayload, failsWith_ite, failsWith_bind, failsInside_u32At,
    failsInside_takeDocuments]

theorem failsInside_takeSection (body : Bytes) (stop : Nat) (c : Cursor) :
    FailsInside (takeSection body stop c) := by
  unfold takeSection
  split
  · simp
  · simp [failsWith_ite, failsWith_bind, failsInside_takeDocument, failsInside_takeSequence]

theorem failsInside_takeSections (body : Bytes) (stop fuel : Nat) :
    ∀ c, FailsInside (takeSections body stop fuel c) := by
  induction fuel with
  | zero => intro; trivial
  | succ fuel ih =>
    intro c
    simp [takeSections, failsWith_ite, failsWith_bind, failsInside_takeSection, ih]

theorem failsInside_parseBody (body : Bytes) : FailsInside (parseBody body) := by
  simp [parseBody, MsgFlags.parse, takeTrailer, failsWith_ite, failsWith_bind, failsInside_u32At,
    failsInside_takeSections, Sections.failsInside_new]

end OpMsg

theorem Legacy.failsInside_takeDocument (body r : Bytes) : FailsInside (takeDocument body r) := by
  simp [takeDocument, failsWith_ite, failsWith_bind]

theorem OpQuery.failsInside_parseBody (body : Bytes) : FailsInside (parseBody body) := by
  simp [parseBody, takeSelector, failsWith_ite, failsWith_bind, Legacy.failsInside_takeDocument]

theorem OpReply.failsInside_takeDocuments (body : Bytes) (n : Nat) :
    ∀ r acc, FailsInside (takeDocuments body n r acc) := by
  induction n with
  | zero => intro r acc; simp [takeDocuments]
  | succ n ih =>
    intro r acc
    simp [takeDocuments, failsWith_bind, Legacy.failsInside_takeDocument, ih]

theorem OpReply.failsInside_parseBody (body : Bytes) : FailsInside (parseBody body) := by
  simp [parseBody, failsWith_ite, failsWith_bind, failsInside_takeDocuments]

theorem OpCompressed.noMismatch_parseBody (body : Bytes) : NoMismatch (parseBody body) := by
  simp [parseBody, failsWith_ite, failsWith_bind]

theorem MessageBody.failsInside_parseBody (op : Opcode) (hop : op ≠ .compressed) (body : Bytes) :
    FailsInside (parseBody op body) := by
  cases op with
  | msg => simp [parseBody, failsWith_bind, OpMsg.failsInside_parseBody]
  | query => simp [parseBody, failsWith_bind, OpQuery.failsInside_parseBody]
  | reply => simp [parseBody, failsWith_bind, OpReply.failsInside_parseBody]
  | compressed => exact absurd rfl hop
  | _ => simp [parseBody]

theorem MessageBody.noMismatch_parseBody (op : Opcode) (body : Bytes) :
    NoMismatch (parseBody op body) := by
  by_cases hop : op = .compressed
  · subst hop
    simp [parseBody, failsWith_bind, OpCompressed.noMismatch_parseBody]
  · refine (failsInside_parseBody op hop body).mono ?_
    intro e he
    cases e with
    | checksumMismatch => exact he
    | _ => trivial

/-! ## Compressors that the build has -/

theorem Build.isEnabled_iff (build : Build) (id : CompressorId) :
    build.isEnabled id = true ↔ ∃ codec, build.codec id = some codec := by
  rw [← Option.isSome_iff_exists]
  cases id <;> rfl

/-- No `OP_COMPRESSED` with this compressor is refused for its compressor. -/
def Build.Accepts (build : Build) (id : CompressorId) : Prop :=
  ∀ (c : OpCompressed) (maxMsgLen : Int32) (k : UInt8), c.compressorId = id →
    c.unwrapBody build maxMsgLen ≠ .err (.unsupportedCompressor k)

theorem Build.failsInside_decompress {build : Build} {id : CompressorId} {codec : Codec}
    (hcodec : build.codec id = some codec) (data : Bytes) (len : Nat) :
    FailsInside (build.decompress id data len) := by
  rw [decompress, hcodec, ofOption_some, ok_bind]
  cases codec.decompress data len with
  | error e => trivial
  | ok out => simp [ofExcept, failsWith_ite]

theorem OpCompressed.failsInside_unwrapBody {build : Build} {c : OpCompressed} {codec : Codec}
    (hcodec : build.codec c.compressorId = some codec) (maxMsgLen : Int32) :
    FailsInside (c.unwrapBody build maxMsgLen) := by
  simp only [unwrapBody, failsWith_ite, failsWith_bind, failsWith_err, ProtocolError.OfBody,
    implies_true, true_and]
  intro _ hop _
  exact ⟨Build.failsInside_decompress hcodec _ _,
    fun _ _ => MessageBody.failsInside_parseBody _ hop _⟩

theorem Build.accepts_iff (build : Build) (id : CompressorId) :
    build.Accepts id ↔ build.isEnabled id = true := by
  rw [isEnabled_iff]
  constructor
  · intro h
    by_contra hnone
    rw [← Option.isSome_iff_exists, Option.not_isSome_iff_eq_none] at hnone
    -- An empty body of size zero passes every check before the compressor's.
    refine h ⟨.msg, 0, id, []⟩ 0 id.toU8 rfl ?_
    simp [OpCompressed.unwrapBody, decompress, hnone]
  · rintro ⟨codec, hcodec⟩ c maxMsgLen k rfl herr
    have hfails := OpCompressed.failsInside_unwrapBody hcodec maxMsgLen
    rw [herr] at hfails
    exact hfails

end MongoWire
