import MongoWire.Framing.Pipeline
import MongoWire.Ingress

/-!
# The size of a document

How large a document may be that `Document::encode` of `wirebson` makes, or that
`parse_message` of `mongowire/src/framing.rs` finds in a frame.
-/

open MongoWire.Lib MongoWire.Lib.Outcome MongoWire.Framing

namespace MongoWire

/-! ## Sizes -/

def Scalar.size : Scalar → Nat
  | double _ => 8
  | string v => (utf8 v).length + 5
  | binary b => b.bytes.length + b.subtype.extra + 5
  | undefined => 0
  | objectId _ => 12
  | bool _ => 1
  | dateTime _ => 8
  | null => 0
  | regex r => (utf8 r.pattern).length + (utf8 r.options).length + 2
  | dbPointer p => (utf8 p.ns).length + 17
  | javaScript v => (utf8 v).length + 5
  | symbol v => (utf8 v).length + 5
  | int32 _ => 4
  | timestamp _ => 8
  | int64 _ => 8
  | decimal128 _ => 16
  | minKey => 0
  | maxKey => 0

mutual

/-- The size of a document in bytes, counted on its fields. -/
def Document.size : Document → Nat
  | ⟨fields⟩ => fieldsSize fields + 5

def fieldsSize : List Field → Nat
  | [] => 0
  | ⟨name, value⟩ :: rest => (utf8 name).length + value.size + 2 + fieldsSize rest

def BsonArray.size : BsonArray → Nat
  | ⟨values⟩ => valuesSize 0 values + 5

def valuesSize : (i : Nat) → List Bson → Nat
  | _, [] => 0
  | i, value :: rest => (utf8 (toString i)).length + value.size + 2 + valuesSize (i + 1) rest

def Bson.size : Bson → Nat
  | .document d => d.size
  | .array a => a.size
  | .javaScriptScope code scope => (utf8 code).length + scope.bytes.length + 9
  | other => (other.asScalar.map Scalar.size).getD 0

end

theorem Binary.length_layout (b : Binary) :
    b.layout.length = b.bytes.length + b.subtype.extra + 5 := by
  unfold Binary.layout BinarySubtype.extra
  split
  · simp
    omega
  · simp
    omega

theorem Scalar.length_layout (s : Scalar) : s.layout.length = s.size := by
  rcases s with _ | _ | b | _ | v | _ | _ | _ | _ | p | _ | _ | _ | _ | _ | v | _ | _
  case binary => exact b.length_layout
  case objectId => exact v.property
  case dbPointer =>
    rw [layout, List.length_append, length_strLayout, p.id.property]
    rfl
  case decimal128 => exact v.property
  all_goals simp [layout, size]
  omega

theorem Bson.size_ofScalar (s : Scalar) : (Bson.ofScalar s).size = s.size := by
  cases s <;> rfl

theorem length_layouts : (∀ v : Bson, v.layout.length = v.size) ∧
    (∀ fs, (fieldsLayout fs).length = fieldsSize fs) ∧
    ∀ vs i, (valuesLayout i vs).length = valuesSize i vs := by
  apply Bson.induction
  case document =>
    intro fs ih
    simp only [Bson.layout, Document.layout, Bson.size, Document.size, length_frame, ih]
  case array =>
    intro vs ih
    simp only [Bson.layout, BsonArray.layout, Bson.size, BsonArray.size, length_frame, ih]
  case scope =>
    intro code scope
    simp only [Bson.layout, Bson.size, length_scopeLayout, length_strLayout]
    omega
  case scalar =>
    intro s
    rw [Bson.layout_ofScalar, Bson.size_ofScalar, s.length_layout]
  case noFields => rfl
  case field =>
    intro name v fs hv hfs
    rw [fieldsLayout, fieldsSize, List.length_append, length_elemLayout, hv, hfs]
  case noValues =>
    intro i
    rfl
  case element =>
    intro v vs hv hvs i
    rw [valuesLayout, valuesSize, List.length_append, length_elemLayout, hv, hvs]

theorem Document.length_layout (d : Document) : d.layout.length = d.size := by
  obtain ⟨fields⟩ := d
  rw [Document.layout, Document.size, length_frame, length_layouts.2.1]

/-! ## Encoding -/

theorem Document.encode_limit_iff (d : Document) :
    (∀ raw, d.encode = .ok raw → raw.bytes.length ≤ maxBsonLen) ↔
      (d.Encodable → d.size ≤ maxBsonLen) := by
  rw [← d.length_layout]
  constructor
  · intro hlimit henc
    obtain ⟨raw, hraw, hbytes⟩ := Document.exists_encode henc
    exact hbytes ▸ hlimit raw hraw
  · intro hsize raw hraw
    obtain ⟨henc, hbytes⟩ := (Document.encode_eq_ok d raw).mp hraw
    exact hbytes ▸ hsize henc

/-! ## Parsing -/

def RawDocument.declared (d : RawDocument) : Nat := leNat (d.bytes.take 4)

theorem RawDocument.declared_eq (d : RawDocument) : d.declared = d.bytes.length := by
  unfold declared
  rcases d.valid with hnil | hframed
  · rw [hnil]
    rfl
  · exact hframed.declared

theorem parse_limit_iff (crc : Checksum) (maxLen : Int32) (buf : Bytes) :
    (∀ header body, (parseMessage crc maxLen buf).1 = .ok (some (header, body)) →
      ∀ doc ∈ Ingress.documents body, doc.bytes.length ≤ maxBsonLen) ↔
    ∀ header w body rest, buf = frameLayout header w body ++ rest →
      Accepted crc maxLen header w body →
      ∀ doc ∈ Ingress.documents body, doc.declared ≤ maxBsonLen := by
  simp only [RawDocument.declared_eq]
  constructor
  · intro hlimit header w body rest hbuf haccepted
    have hparse := (parseMessage_eq_some buf rest).mpr ⟨w, hbuf, haccepted⟩
    exact hlimit header body (congrArg Prod.fst hparse)
  · intro hlimit header body hparse
    obtain ⟨w, hbuf, haccepted⟩ := (parseMessage_eq_some buf _).mp (Prod.ext hparse rfl)
    exact hlimit header w body _ hbuf haccepted

/-- The advertised limit holds of a document that is encoded, and of the documents of a frame, if
and only if they are within it to begin with. -/
theorem document_limit_iff (crc : Checksum) (maxLen : Int32) (d : Document) (buf : Bytes) :
    ((∀ raw, d.encode = .ok raw → raw.bytes.length ≤ maxBsonLen) ↔
      (d.Encodable → d.size ≤ maxBsonLen)) ∧
    ((∀ header body, (parseMessage crc maxLen buf).1 = .ok (some (header, body)) →
      ∀ doc ∈ Ingress.documents body, doc.bytes.length ≤ maxBsonLen) ↔
    ∀ header w body rest, buf = frameLayout header w body ++ rest →
      Accepted crc maxLen header w body →
      ∀ doc ∈ Ingress.documents body, doc.declared ≤ maxBsonLen) :=
  ⟨d.encode_limit_iff, parse_limit_iff crc maxLen buf⟩

/-! ## A document above the limit -/

namespace Limits

def padded (n : Nat) : Document := ⟨[⟨"b", .binary ⟨.generic, List.replicate n 0⟩⟩]⟩

theorem size_padded (n : Nat) : (padded n).size = n + 13 := by
  have hname : (utf8 "b").length = 1 := by decide
  rw [padded, Document.size, fieldsSize, fieldsSize, hname]
  simp only [Bson.size, Bson.asScalar, Option.map_some, Option.getD_some, Scalar.size,
    List.length_replicate, BinarySubtype.extra]
  rw [if_neg (by decide)]
  omega

theorem encodable_padded {n : Nat} (h : n + 13 < 2 ^ 31) : (padded n).Encodable := by
  have hlen : (padded n).layout.length < 2 ^ 31 := by
    rw [Document.length_layout, size_padded]
    exact h
  refine ⟨hlen, by decide, ?_, trivial⟩
  intro s hs
  obtain rfl : Scalar.binary _ = s := Option.some.inj hs
  show (List.replicate n (0 : UInt8)).length + 0 < 2 ^ 31
  rw [List.length_replicate]
  omega

/-- An `OP_MSG` with no flags and the one body section `d`. -/
def message (d : RawDocument) : MessageBody := .msg ⟨⟨0⟩, ⟨d, []⟩, none⟩

def header (d : RawDocument) : Header := sized ⟨0, 1, 0, .msg⟩ (d.bytes.length + 21)

theorem accepted_message (crc : Checksum) {d : RawDocument} (hd : Framed d.bytes)
    (hlen : d.bytes.length + 21 ≤ maxMsgLen) :
    Accepted crc (.ofNat maxMsgLen) (header d) 0 (message d) := by
  have hlayout : (frameLayout (header d) 0 (message d)).length = d.bytes.length + 21 := by
    rw [length_frameLayout]
    simp [message, MessageBody.tail, OpMsg.tail, OpMsg.length_sectionsLayout, OpMsg.trailer,
      OpMsg.sequencesLayout, msgHeaderLen]
    omega
  refine ⟨inBounds_sized _ (by simp [msgHeaderLen]) hlen, ?_, rfl, ?_, ?_⟩
  · rw [hlayout, header, toInt_sized _ _ hlen]
  · have hsmall : d.bytes.length < 2 ^ 31 := by
      unfold maxMsgLen at hlen
      omega
    have hvalid : (⟨d, []⟩ : Sections).Valid := ⟨by simp, by simp⟩
    exact ⟨by decide, rfl, by simp [MsgFlag.checksumPresent], ⟨hd, hsmall⟩, by simp, hvalid⟩
  · rintro m c hm hc
    cases hm
    cases hc

/-- A document of 16,777,229 bytes is encoded, and parsed out of a frame. -/
theorem document_over_limit : ∃ raw : RawDocument, (padded maxBsonLen).encode = .ok raw ∧
    raw.bytes.length = maxBsonLen + 13 ∧
    (parseMessage crc32c (.ofNat maxMsgLen) (frameLayout (header raw) 0 (message raw))).1 =
      .ok (some (header raw, message raw)) ∧
    raw ∈ Ingress.documents (message raw) := by
  have henc : (padded maxBsonLen).Encodable := encodable_padded (by decide)
  obtain ⟨raw, hraw, hbytes⟩ := Document.exists_encode henc
  have hlen : raw.bytes.length = maxBsonLen + 13 := by
    rw [hbytes, Document.length_layout, size_padded]
  have hframed : Framed raw.bytes := hbytes ▸ Document.framed_layout henc
  have haccepted := accepted_message crc32c hframed (by rw [hlen]; decide)
  have hparse := (parseMessage_eq_some _ []).mpr ⟨0, (List.append_nil _).symm, haccepted⟩
  exact ⟨raw, hraw, hlen, congrArg Prod.fst hparse, List.mem_cons_self⟩

end Limits

end MongoWire
