import MongoWire.Messages.Body
import MongoWire.Messages.LegacySpec

/-!
# What the bodies accept

Every body is one word and a tail. The word holds the flags, or the wrapped
opcode of `OP_COMPRESSED`; parsing may clear unknown bits of it and keeps the
tail, so encoding writes back everything but those bits.
-/

open MongoWire.Lib MongoWire.Lib.Outcome MongoWire.Io

namespace MongoWire

/-! ## `OP_COMPRESSED` -/

namespace OpCompressed

def word (c : OpCompressed) : UInt32 := c.originalOpcode.toI32.toUInt32

def tail (c : OpCompressed) : Bytes :=
  i32ToLe c.uncompressedSize ++ c.compressorId.toU8 :: c.compressedMessage

theorem encodeBody_eq (c : OpCompressed) (out : Bytes) :
    c.encodeBody out = out ++ (u32ToLe c.word ++ c.tail) := by
  simp [encodeBody, putI32Le, putU8, putBytes, word, tail, i32ToLe]

theorem bodyLen_eq (c : OpCompressed) : c.bodyLen = 4 + c.tail.length := by
  simp [bodyLen, tail]
  omega

theorem parseBody_eq_ok (b : Bytes) (c : OpCompressed) :
    parseBody b = .ok c ↔ 0 ≤ c.uncompressedSize.toInt ∧ b = u32ToLe c.word ++ c.tail := by
  simp only [parseBody, bind_eq_ok, mapErr_eq_ok, Prod.exists, readI32Le_eq_ok, readU8_eq_ok,
    ofOption_eq_ok, Opcode.fromI32_eq_some, CompressorId.fromU8_eq_some, ite_err_eq_ok, usub_eq_ok,
    Int.not_lt, pure_eq, ok.injEq]
  have hsuffix (op size : Int32) (id : UInt8) (r : Bytes) :
      r <:+ i32ToLe op ++ (i32ToLe size ++ id :: r) :=
    ⟨i32ToLe op ++ (i32ToLe size ++ [id]), by simp⟩
  constructor
  · rintro ⟨_, _, rfl, op, rfl, size, _, rfl, hsize, _, r, rfl, id, rfl, _, ⟨-, rfl⟩, m, hm, rfl⟩
    rw [slice_suffix_to_end (hsuffix ..), ok.injEq] at hm
    exact ⟨hsize, by simp [word, tail, i32ToLe, hm]⟩
  · rintro ⟨hsize, rfl⟩
    refine ⟨_, _, rfl, c.originalOpcode, rfl, _, _, rfl, hsize, _, _, rfl, c.compressorId, rfl, _,
      ⟨(hsuffix ..).length_le, rfl⟩, _, slice_suffix_to_end (hsuffix ..), rfl⟩

end OpCompressed

/-! ## Any body -/

namespace MessageBody

def word : MessageBody → UInt32
  | msg m => m.flags.bits
  | query q => q.flags.bits.toUInt32
  | reply r => r.responseFlags.bits.toUInt32
  | compressed c => c.word

def tail : MessageBody → Bytes
  | msg m => m.tail
  | query q => q.tail
  | reply r => r.tail
  | compressed c => c.tail

/-- The bits of the word that survive parsing. -/
def knownBits : Opcode → UInt32
  | .msg => MsgFlags.all
  | .query => QueryFlags.all.toUInt32
  | .reply => ReplyFlags.all.toUInt32
  | _ => 0xFFFFFFFF

/-- `b` is what the parser makes of its tail behind the word `w`. -/
def ParsedFrom (w : UInt32) : MessageBody → Prop
  | msg m => m.ParsedFrom w
  | query q => q.flags = .fromBitsTruncate w.toInt32 ∧ q.Readable
  | reply r => r.responseFlags = .fromBitsTruncate w.toInt32 ∧ r.Readable
  | compressed c => w = c.word ∧ 0 ≤ c.uncompressedSize.toInt

theorem encodeBody_eq (b : MessageBody) (out : Bytes) :
    b.encodeBody out = out ++ (u32ToLe b.word ++ b.tail) := by
  cases b with
  | msg m => exact m.encodeBody_eq out
  | query q => exact q.encodeBody_eq out
  | reply r => exact r.encodeBody_eq out
  | compressed c => exact c.encodeBody_eq out

theorem bodyLen_eq (b : MessageBody) : b.bodyLen = 4 + b.tail.length := by
  cases b with
  | msg m => rw [bodyLen, tail, m.bodyLen_eq 0, OpMsg.layoutWith, List.length_append, length_u32ToLe]
  | query q => exact q.bodyLen_eq
  | reply r => exact r.bodyLen_eq
  | compressed c => exact c.bodyLen_eq

theorem exists_i32 {p : Int32 → Prop} {b t : Bytes} :
    (∃ raw, p raw ∧ b = i32ToLe raw ++ t) ↔ ∃ w : UInt32, p w.toInt32 ∧ b = u32ToLe w ++ t := by
  constructor
  · rintro ⟨raw, h, rfl⟩
    exact ⟨raw.toUInt32, by simpa using h, rfl⟩
  · rintro ⟨w, h, rfl⟩
    exact ⟨w.toInt32, h, by simp [i32ToLe]⟩

theorem parseBody_eq_ok (op : Opcode) (bytes : Bytes) (b : MessageBody) :
    parseBody op bytes = .ok b ↔
      op = b.opcode ∧ ∃ w, b.ParsedFrom w ∧ bytes = u32ToLe w ++ b.tail := by
  have hquery (q : OpQuery) : OpQuery.parseBody bytes = .ok q ↔
      ∃ w, ParsedFrom w (.query q) ∧ bytes = u32ToLe w ++ q.tail := by
    simp only [OpQuery.parseBody_eq_ok, ← and_assoc, exists_i32, ParsedFrom]
  have hreply (r : OpReply) : OpReply.parseBody bytes = .ok r ↔
      ∃ w, ParsedFrom w (.reply r) ∧ bytes = u32ToLe w ++ r.tail := by
    simp only [OpReply.parseBody_eq_ok, ← and_assoc, exists_i32, ParsedFrom]
  have hcompressed (c : OpCompressed) : OpCompressed.parseBody bytes = .ok c ↔
      ∃ w, ParsedFrom w (.compressed c) ∧ bytes = u32ToLe w ++ c.tail := by
    simp only [OpCompressed.parseBody_eq_ok, ParsedFrom, and_assoc, exists_eq_left]
  constructor
  · intro h
    cases op <;> simp only [parseBody, bind_eq_ok, pure_eq, ok.injEq, reduceCtorEq] at h
    all_goals obtain ⟨x, h, rfl⟩ := h
    case msg => exact ⟨rfl, (OpMsg.parseBody_eq_ok bytes x).mp h⟩
    case query => exact ⟨rfl, (hquery x).mp h⟩
    case reply => exact ⟨rfl, (hreply x).mp h⟩
    case compressed => exact ⟨rfl, (hcompressed x).mp h⟩
  · rintro ⟨rfl, h⟩
    cases b with
    | msg m => simp only [opcode, parseBody, (OpMsg.parseBody_eq_ok bytes m).mpr h, ok_bind, pure_eq]
    | query q => simp only [opcode, parseBody, (hquery q).mpr h, ok_bind, pure_eq]
    | reply r => simp only [opcode, parseBody, (hreply r).mpr h, ok_bind, pure_eq]
    | compressed c => simp only [opcode, parseBody, (hcompressed c).mpr h, ok_bind, pure_eq]

theorem ParsedFrom.word_eq {w : UInt32} {b : MessageBody} (h : b.ParsedFrom w) :
    b.word = w &&& knownBits b.opcode := by
  cases b with
  | msg m => rw [MessageBody.word, h.flags]; rfl
  | query q => rw [MessageBody.word, h.1]; simp [QueryFlags.fromBitsTruncate, opcode, knownBits]
  | reply r => rw [MessageBody.word, h.1]; simp [ReplyFlags.fromBitsTruncate, opcode, knownBits]
  | compressed c =>
    rw [MessageBody.word, h.1]
    exact (UInt32.and_neg_one).symm

end MessageBody

theorem OpCompressed.unwrapBody_eq_ok (build : Build) (c : OpCompressed) (maxMsgLen : Int32)
    (b : MessageBody) :
    c.unwrapBody build maxMsgLen = .ok b ↔
      0 ≤ c.uncompressedSize.toInt ∧ c.originalOpcode ≠ .compressed ∧
        c.uncompressedSize.toInt ≤ maxMsgLen.toInt ∧ c.originalOpcode = b.opcode ∧
        ∃ w, b.ParsedFrom w ∧ build.decompress c.compressorId c.compressedMessage
          (i32AsUsize c.uncompressedSize) = .ok (u32ToLe w ++ b.tail) := by
  simp only [unwrapBody, ite_err_eq_ok, Int.not_lt, bind_eq_ok, MessageBody.parseBody_eq_ok]
  constructor
  · rintro ⟨hpos, hnested, hmax, _, hplain, hop, w, hparsed, rfl⟩
    exact ⟨hpos, hnested, hmax, hop, w, hparsed, hplain⟩
  · rintro ⟨hpos, hnested, hmax, hop, w, hparsed, hplain⟩
    exact ⟨hpos, hnested, hmax, _, hplain, hop, w, hparsed, rfl⟩

theorem Build.decompress_noop (build : Build) (data b : Bytes) (len : Nat) :
    build.decompress .noop data len = .ok b ↔ data.length = len ∧ b = data := by
  simp only [decompress, codec, ofOption_some, ok_bind, ofExcept, ite_err_eq_ok, not_not, ok.injEq]
  exact and_congr_right fun _ => eq_comm

end MongoWire
