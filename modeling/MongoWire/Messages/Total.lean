import MongoWire.Bson.Total
import MongoWire.Messages.BodySpec

/-!
# Parsing comes back

Every body parser returns a message or a declared error, on any bytes. The
loops over sections and documents end because each round moves the cursor
forward, and never past `stop`.
-/

open MongoWire.Lib MongoWire.Lib.Outcome MongoWire.Io

namespace MongoWire

namespace Sections

theorem returns_checkIdentifiers (names : List Bytes) (seqs : List DocumentSequence) :
    (checkIdentifiers names seqs).Returns := by
  induction seqs with
  | nil => simp [checkIdentifiers]
  | cons seq seqs ih => simp only [checkIdentifiers, returns_ite_err, ih, implies_true]

theorem returns_new (body : RawDocument) (seqs : List DocumentSequence) :
    (new body seqs).Returns := by
  unfold new
  split
  · simp
  · simp only [returns_bind, returns_mapErr, returns_checkIdentifiers, pure_eq, returns_ok,
      implies_true, and_true]
    refine returns_mapM fun x hx => ?_
    simpa [returns_bind] using body.returns_of_mem_fields x hx

end Sections

namespace OpMsg

variable {body : Bytes} {offset stop : Nat}

theorem returns_u32At {i : Nat} (h : i + 4 ≤ body.length) : (u32At body i).Returns := by
  simp only [u32At, returns_bind, returns_slice, returns_expectBlock, slice_eq_ok, pure_eq,
    returns_ok, implies_true, and_true]
  refine ⟨⟨by omega, h⟩, ?_⟩
  rintro _ ⟨-, -, rfl⟩
  simp
  omega

theorem returns_takeDocument (hstop : stop ≤ body.length) :
    (takeDocument body offset stop).Returns := by
  simp only [takeDocument, returns_ite_err, returns_bind, returns_slice, returns_expectBlock,
    slice_eq_ok, returns_mapErr, RawDocument.returns_fromBytes, not_or, Int.not_lt, Nat.not_lt,
    pure_eq, returns_ok, implies_true, and_true]
  intro hoff h4
  refine ⟨by omega, ?_⟩
  rintro _ ⟨-, -, rfl⟩
  refine ⟨by simp; omega, ?_⟩
  rintro len - ⟨-, hlen⟩
  omega

theorem returns_takeDocuments {secEnd : Nat} (hend : secEnd ≤ body.length) (fuel : Nat) :
    ∀ (offset : Nat) (acc : List RawDocument), offset ≤ secEnd → secEnd - offset < fuel →
      (takeDocuments body secEnd fuel (secEnd - offset) offset acc).Returns := by
  induction fuel with
  | zero => intro _ _ _ h; omega
  | succ fuel ih =>
    intro offset acc hoff hfuel
    rw [takeDocuments]
    split
    · simp
    · simp only [returns_bind, returns_takeDocument hend, takeDocument_eq_ok hend, Prod.forall,
        returns_usub, usub_eq_ok, true_and]
      rintro d _ ⟨hfits, rfl, t, ht⟩
      have hlong : 5 ≤ d.bytes.length := hfits.1.long
      have hlen := length_window body offset secEnd hend
      rw [ht, List.length_append] at hlen
      refine ⟨by omega, ?_⟩
      rintro _ ⟨-, rfl⟩
      refine ⟨by omega, ?_⟩
      rintro _ ⟨-, rfl⟩
      rw [show secEnd - offset - (offset + d.bytes.length - offset) =
        secEnd - (offset + d.bytes.length) by omega]
      exact ih _ _ (by omega) (by omega)

theorem returns_takePayload {secEnd : Nat} (hoff : offset ≤ secEnd) (hend : secEnd ≤ body.length) :
    (takePayload body offset secEnd).Returns := by
  have hlen := length_window body offset secEnd hend
  rw [takePayload, slice_window body offset secEnd hoff hend]
  simp only [ok_bind, returns_bind, returns_ofOption, ofOption_eq_ok, nulPos_eq_some, returns_slice,
    returns_usub, usub_eq_ok, pure_eq, returns_ok, true_and, implies_true, and_true]
  rintro _ ⟨s, t, hwin, -, rfl⟩
  rw [hwin, List.length_append, List.length_cons] at hlen
  refine ⟨by omega, fun _ _ _ _ => ⟨by omega, ?_⟩⟩
  rintro _ ⟨hle, rfl⟩
  exact returns_takeDocuments hend _ _ _ hle (by omega)

theorem returns_takeSequence (hstop : stop ≤ body.length) :
    (takeSequence body offset stop).Returns := by
  simp only [takeSequence, returns_ite_err, returns_bind, returns_usub, usub_eq_ok, Nat.not_lt,
    Int.not_lt]
  intro hoff h4
  refine ⟨returns_u32At (by omega), fun w _ hlong => ⟨hoff, ?_⟩⟩
  rintro _ ⟨-, rfl⟩
  refine ⟨h4, ?_⟩
  rintro _ ⟨-, rfl⟩ hroom
  exact returns_takePayload (by omega) (by omega)

theorem returns_takeSection (hstop : stop ≤ body.length) (c : Cursor) :
    (takeSection body stop c).Returns := by
  unfold takeSection
  split
  · simp
  · simp only
    split
    · simp only [returns_ite_err, returns_bind, returns_takeDocument hstop, pure_eq, returns_ok,
        implies_true, and_true]
    · split
      · simp [returns_bind, returns_takeSequence hstop]
      · simp

theorem returns_takeSections (hstop : stop ≤ body.length) (fuel : Nat) :
    ∀ c : Cursor, c.Reads body stop → c.offset < stop → stop - c.offset < fuel →
      (takeSections body stop fuel c).Returns := by
  induction fuel with
  | zero => intro _ _ _ h; omega
  | succ fuel ih =>
    intro c hc hlt hfuel
    simp only [takeSections, returns_bind, returns_takeSection hstop, true_and]
    intro c' hc'
    obtain ⟨hreads, hforward⟩ := takeSection_sound hstop hc hlt hc'
    have hhigh := hreads.high
    split
    · simp
    · exact ih c' hreads (by omega) (by omega)

theorem returns_takeTrailer {checksummed : Bool} (h : checksummed = true → stop + 4 ≤ body.length) :
    (takeTrailer body stop checksummed).Returns := by
  cases checksummed with
  | false => simp [takeTrailer]
  | true => simpa [takeTrailer, returns_bind] using returns_u32At (h rfl)

theorem returns_parseBody (body : Bytes) : (parseBody body).Returns := by
  simp only [parseBody, returns_ite_err, returns_bind, returns_usub, usub_eq_ok, MsgFlags.parse,
    returns_ofOption, Sections.returns_new, pure_eq, returns_ok, Nat.not_lt, implies_true, and_true,
    true_and]
  intro h5
  refine ⟨returns_u32At (by omega), fun w _ flags _ hroom => ⟨by omega, ?_⟩⟩
  rintro stop ⟨-, rfl⟩
  refine ⟨returns_takeSections (by omega) _ _ (Cursor.reads_start (by omega)) (by simp only; omega)
    (by simp only; omega), fun c _ => returns_takeTrailer fun h => ?_⟩
  simp only [h, if_true] at hroom ⊢
  omega

end OpMsg

theorem Legacy.returns_takeDocument {body r : Bytes} (hr : r <:+ body) :
    (takeDocument body r).Returns := by
  simp only [takeDocument, returns_bind, returns_usub, usub_eq_ok, returns_mapErr,
    returns_peekI32Le, returns_ite_err, RawDocument.returns_fromBytes, returns_readBytes, pure_eq,
    returns_ok, not_or, Int.not_lt, Nat.not_lt, implies_true, and_true, true_and]
  refine ⟨hr.length_le, ?_⟩
  rintro _ ⟨-, rfl⟩ len _ ⟨-, hlen⟩
  rw [slice_suffix hr _ hlen]
  simp

namespace OpQuery

theorem returns_takeSelector {body r : Bytes} (hr : r <:+ body) :
    (takeSelector body r).Returns := by
  unfold takeSelector
  split
  · simp
  · simp [returns_bind, Legacy.returns_takeDocument hr]

theorem returns_parseBody (body : Bytes) : (parseBody body).Returns := by
  simp only [parseBody, returns_bind, returns_mapErr, returns_readI32Le, returns_readCstring,
    returns_ite_err, returns_ofOption, mapErr_eq_ok, Prod.forall, readI32Le_eq_ok,
    readCstring_eq_ok, returns_ok, implies_true, and_true, true_and]
  rintro raw _ rfl name _ ⟨rfl, -⟩ - _ - skip _ rfl ret r rfl
  have hr : r <:+ i32ToLe raw ++ (name ++ 0 :: (i32ToLe skip ++ (i32ToLe ret ++ r))) :=
    ⟨i32ToLe raw ++ (name ++ 0 :: (i32ToLe skip ++ i32ToLe ret)), by simp⟩
  refine ⟨Legacy.returns_takeDocument hr, fun d t hd => ?_⟩
  obtain ⟨-, rfl⟩ := (Legacy.takeDocument_eq_ok hr d t).mp hd
  exact returns_takeSelector ((List.suffix_append _ _).trans hr)

end OpQuery

namespace OpReply

theorem returns_takeDocuments {body : Bytes} (n : Nat) :
    ∀ {r : Bytes}, r <:+ body → ∀ acc : List RawDocument, (takeDocuments body n r acc).Returns := by
  induction n with
  | zero => intro r _ acc; simp [takeDocuments]
  | succ n ih =>
    intro r hr acc
    simp only [takeDocuments, returns_bind, Legacy.returns_takeDocument hr, Prod.forall, true_and]
    intro d t hd
    obtain ⟨-, rfl⟩ := (Legacy.takeDocument_eq_ok hr d t).mp hd
    exact ih ((List.suffix_append _ _).trans hr) _

theorem returns_parseBody (body : Bytes) : (parseBody body).Returns := by
  simp only [parseBody, returns_bind, returns_mapErr, returns_readI32Le, returns_readI64Le,
    returns_ite_err, mapErr_eq_ok, Prod.forall, readI32Le_eq_ok, readI64Le_eq_ok, returns_ok,
    implies_true, and_true, true_and]
  rintro raw _ rfl cursor _ rfl start _ rfl count r rfl - -
  exact returns_takeDocuments _
    ⟨i32ToLe raw ++ (i64ToLe cursor ++ (i32ToLe start ++ i32ToLe count)), by simp⟩ _

end OpReply

theorem OpCompressed.returns_parseBody (body : Bytes) : (parseBody body).Returns := by
  simp only [parseBody, returns_bind, returns_mapErr, returns_readI32Le, returns_readU8,
    returns_ite_err, returns_ofOption, mapErr_eq_ok, Prod.forall, readI32Le_eq_ok, readU8_eq_ok,
    returns_usub, usub_eq_ok, returns_slice, pure_eq, returns_ok, implies_true, and_true, true_and]
  rintro raw _ rfl _ _ size _ rfl - id r rfl _ _
  refine ⟨by simp; omega, ?_⟩
  rintro _ ⟨-, rfl⟩
  omega

theorem MessageBody.returns_parseBody (op : Opcode) (body : Bytes) : (parseBody op body).Returns := by
  cases op with
  | msg => simp [parseBody, returns_bind, OpMsg.returns_parseBody]
  | query => simp [parseBody, returns_bind, OpQuery.returns_parseBody]
  | reply => simp [parseBody, returns_bind, OpReply.returns_parseBody]
  | compressed => simp [parseBody, returns_bind, OpCompressed.returns_parseBody]
  | _ => simp [parseBody]

theorem Build.returns_decompress (build : Build) (id : CompressorId) (data : Bytes) (len : Nat) :
    (build.decompress id data len).Returns := by
  simp only [decompress, returns_bind, returns_ofOption, returns_ite_err, returns_ok, implies_true,
    and_true, true_and]
  intro codec _
  cases codec.decompress data len <;> simp [ofExcept]

theorem OpCompressed.returns_unwrapBody (build : Build) (c : OpCompressed) (maxLen : Int32) :
    (c.unwrapBody build maxLen).Returns := by
  simp only [unwrapBody, returns_ite_err, returns_bind, Build.returns_decompress,
    MessageBody.returns_parseBody, implies_true, and_true]

end MongoWire
