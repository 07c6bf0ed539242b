import MongoWire.Common.Scalar

/-!
# BSON values

The types of `wirebson`: raw composites (`raw.rs`), the borrowed view of one
field (`raw_value.rs`) and the eager values (`value.rs`, `document.rs`,
`array.rs`).
-/

open MongoWire.Lib MongoWire.Lib.Outcome MongoWire.Io

namespace MongoWire

/-- `wirebson::Error`. -/
inductive BsonError where
  | shortInput (needed got : Nat)
  | invalidInput (offset : Nat) (reason : String)
  | lengthMismatch (declared actual : Nat)
  | utf8
  | nestedTooDeep (max : Nat)
  | scalar (e : ScalarError)
  deriving DecidableEq

/-- `u32::from_le_bytes(..) as usize`. -/
def u32AsUsize (b : Bytes) : Nat := (u32FromLe b).toNat

theorem u32AsUsize_eq (b : Bytes) (h : b.length = 4) : u32AsUsize b = leNat b := toNat_u32FromLe b h

/-! ## Raw composites -/

/-- The bytes of one complete document: its own length first, a NUL last. -/
structure Framed (b : Bytes) : Prop where
  long : minDocLen ≤ b.length
  declared : leNat (b.take 4) = b.length
  nul : b.getLast? = some 0

instance (b : Bytes) : Decidable (Framed b) :=
  decidable_of_iff (minDocLen ≤ b.length ∧ leNat (b.take 4) = b.length ∧ b.getLast? = some 0)
    ⟨fun h => ⟨h.1, h.2.1, h.2.2⟩, fun h => ⟨h.long, h.declared, h.nul⟩⟩

/-- The checks of `RawDocument::from_bytes`. -/
def checkFrame (b : Bytes) : Outcome BsonError Unit :=
  let actual := b.length
  if actual < minDocLen then .err (.shortInput minDocLen actual) else do
  let declared := u32AsUsize (← slice b 0 4)
  if declared < minDocLen then
    .err (.invalidInput 0 ("declared length " ++ toString declared ++ " is below the minimum "
      ++ toString minDocLen))
  else if declared ≠ actual then .err (.lengthMismatch declared actual) else do
  let last ← index b (← usub actual 1)
  if last ≠ 0 then .err (.invalidInput (actual - 1) "missing trailing NUL") else
  .ok ()

theorem checkFrame_eq_ok (b : Bytes) : checkFrame b = .ok () ↔ Framed b := by
  unfold checkFrame
  by_cases hlen : b.length < minDocLen
  · rw [if_pos hlen]
    simp only [reduceCtorEq, false_iff]
    intro h
    have := h.long
    omega
  · have h5 : 5 ≤ b.length := by simpa [minDocLen] using hlen
    have hidx : b.length - 1 < b.length := by omega
    have hlast : b.getLast? = some b[b.length - 1] := by
      rw [List.getLast?_eq_getElem?, List.getElem?_eq_getElem hidx]
    rw [if_neg hlen, slice_ok _ _ _ (by omega) (by omega), usub_ok _ _ (by omega)]
    simp only [ok_bind, List.drop_zero, Nat.sub_zero, index_ok _ _ hidx]
    rw [u32AsUsize_eq _ (by simp; omega)]
    split_ifs with hd hne hnul
    · simp only [false_iff]
      intro h
      have := h.declared
      omega
    · simp only [false_iff]
      intro h
      exact hne h.declared
    · simp only [false_iff]
      intro h
      have := h.nul
      rw [hlast] at this
      exact hnul (Option.some.inj this)
    · simp only [true_iff]
      exact ⟨by omega, by omega, by rw [hlast]; simpa using hnul⟩

@[simp] theorem returns_checkFrame (b : Bytes) : (checkFrame b).Returns := by
  unfold checkFrame
  by_cases hlen : b.length < minDocLen
  · simp [hlen]
  · have h5 : 5 ≤ b.length := by simpa [minDocLen] using hlen
    rw [if_neg hlen, slice_ok _ _ _ (by omega) (by omega), usub_ok _ _ (by omega)]
    simp only [ok_bind, index_ok _ _ (show b.length - 1 < b.length by omega)]
    split_ifs <;> simp

/-- Validated bytes. Only `default()` holds none, and it passed no check. -/
structure RawDocument where
  bytes : Bytes
  valid : bytes = [] ∨ Framed bytes

structure RawArray where
  bytes : Bytes
  valid : bytes = [] ∨ Framed bytes

namespace RawDocument

instance : DecidableEq RawDocument := fun a b =>
  decidable_of_iff (a.bytes = b.bytes) (by cases a; cases b; simp)

theorem ext_bytes {a b : RawDocument} (h : a.bytes = b.bytes) : a = b := by
  cases a; cases b; simp_all

/-- `RawDocument::default()`. -/
def default : RawDocument := ⟨[], .inl rfl⟩

def ofFramed (b : Bytes) (h : Framed b) : RawDocument := ⟨b, .inr h⟩

def fromBytes (b : Bytes) : Outcome BsonError RawDocument :=
  match h : checkFrame b with
  | .ok () => .ok (ofFramed b ((checkFrame_eq_ok b).mp h))
  | .err e => .err e
  | .panic => .panic
  | .hang => .hang

theorem fromBytes_eq_ok (b : Bytes) (d : RawDocument) :
    fromBytes b = .ok d ↔ Framed d.bytes ∧ d.bytes = b := by
  constructor
  · intro h
    unfold fromBytes at h
    split at h
    · rename_i hc
      cases h
      exact ⟨(checkFrame_eq_ok b).mp hc, rfl⟩
    all_goals cases h
  · rintro ⟨hf, rfl⟩
    unfold fromBytes
    split
    · rfl
    all_goals (rename_i hc; rw [(checkFrame_eq_ok _).mpr hf] at hc; cases hc)

theorem fromBytes_bytes {d : RawDocument} (h : Framed d.bytes) : fromBytes d.bytes = .ok d :=
  (fromBytes_eq_ok _ d).mpr ⟨h, rfl⟩

@[simp] theorem returns_fromBytes (b : Bytes) : (fromBytes b).Returns := by
  have := returns_checkFrame b
  unfold fromBytes
  split <;> simp_all

end RawDocument

namespace RawArray

instance : DecidableEq RawArray := fun a b =>
  decidable_of_iff (a.bytes = b.bytes) (by cases a; cases b; simp)

theorem ext_bytes {a b : RawArray} (h : a.bytes = b.bytes) : a = b := by
  cases a; cases b; simp_all

def fromBytes (b : Bytes) : Outcome BsonError RawArray := do
  let d ← RawDocument.fromBytes b
  return ⟨d.bytes, d.valid⟩

theorem fromBytes_eq_ok (b : Bytes) (a : RawArray) :
    fromBytes b = .ok a ↔ Framed a.bytes ∧ a.bytes = b := by
  simp only [fromBytes, bind_eq_ok, RawDocument.fromBytes_eq_ok, pure_eq, ok.injEq]
  constructor
  · rintro ⟨d, ⟨hf, rfl⟩, rfl⟩; exact ⟨hf, rfl⟩
  · rintro ⟨hf, rfl⟩; exact ⟨⟨a.bytes, a.valid⟩, ⟨hf, rfl⟩, rfl⟩

@[simp] theorem returns_fromBytes (b : Bytes) : (fromBytes b).Returns := by
  simp [fromBytes, returns_bind]

end RawArray

/-- A raw field value. Composites are the bytes they were sliced from. -/
inductive RawBsonRef where
  | double (bits : UInt64)
  | string (v : String)
  | document (d : RawDocument)
  | array (a : RawArray)
  | binary (v : Binary)
  | undefined
  | objectId (v : ObjectId)
  | bool (v : Bool)
  | dateTime (v : Int64)
  | null
  | regex (v : Regex)
  | dbPointer (v : DbPointer)
  | javaScript (v : String)
  | symbol (v : String)
  | javaScriptScope (code : String) (scope : RawDocument)
  | int32 (v : Int32)
  | timestamp (v : Timestamp)
  | int64 (v : Int64)
  | decimal128 (v : Decimal128)
  | minKey
  | maxKey
  deriving DecidableEq

/-! ## Eager values -/

mutual

structure Document where
  fields : List Field

structure Field where
  name : String
  value : Bson

/-- `wirebson::Array`. -/
structure BsonArray where
  values : List Bson

inductive Bson where
  | double (bits : UInt64)
  | string (v : String)
  | document (d : Document)
  | array (a : BsonArray)
  | binary (v : Binary)
  | undefined
  | objectId (v : ObjectId)
  | bool (v : Bool)
  | dateTime (v : Int64)
  | null
  | regex (v : Regex)
  | dbPointer (v : DbPointer)
  | javaScript (v : String)
  | symbol (v : String)
  | javaScriptScope (code : String) (scope : RawDocument)
  | int32 (v : Int32)
  | timestamp (v : Timestamp)
  | int64 (v : Int64)
  | decimal128 (v : Decimal128)
  | minKey
  | maxKey

end

namespace Document

/-- `Document::get`: the first field with this name. -/
def get (d : Document) (name : String) : Option Bson :=
  (d.fields.find? fun f => f.name = name).map Field.value

/-- `Document::command`. -/
def command (d : Document) : Option String := d.fields.head?.map Field.name

end Document

namespace Bson

def tag : Bson → Tag
  | double _ => .double
  | string _ => .string
  | document _ => .document
  | array _ => .array
  | binary _ => .binary
  | undefined => .undefined
  | objectId _ => .objectId
  | bool _ => .bool
  | dateTime _ => .dateTime
  | null => .null
  | regex _ => .regex
  | dbPointer _ => .dbPointer
  | javaScript _ => .javaScript
  | symbol _ => .symbol
  | javaScriptScope _ _ => .javaScriptScope
  | int32 _ => .int32
  | timestamp _ => .timestamp
  | int64 _ => .int64
  | decimal128 _ => .decimal128
  | minKey => .minKey
  | maxKey => .maxKey

def asScalar : Bson → Option Scalar
  | double v => some (.double v)
  | string v => some (.string v)
  | binary v => some (.binary v)
  | undefined => some .undefined
  | objectId v => some (.objectId v)
  | bool v => some (.bool v)
  | dateTime v => some (.dateTime v)
  | null => some .null
  | regex v => some (.regex v)
  | dbPointer v => some (.dbPointer v)
  | javaScript v => some (.javaScript v)
  | symbol v => some (.symbol v)
  | int32 v => some (.int32 v)
  | timestamp v => some (.timestamp v)
  | int64 v => some (.int64 v)
  | decimal128 v => some (.decimal128 v)
  | minKey => some .minKey
  | maxKey => some .maxKey
  | document _ => none
  | array _ => none
  | javaScriptScope _ _ => none

/-- `From<Scalar> for Bson`. -/
def ofScalar : Scalar → Bson
  | .double v => double v
  | .string v => string v
  | .binary v => binary v
  | .undefined => undefined
  | .objectId v => objectId v
  | .bool v => bool v
  | .dateTime v => dateTime v
  | .null => null
  | .regex v => regex v
  | .dbPointer v => dbPointer v
  | .javaScript v => javaScript v
  | .symbol v => symbol v
  | .int32 v => int32 v
  | .timestamp v => timestamp v
  | .int64 v => int64 v
  | .decimal128 v => decimal128 v
  | .minKey => minKey
  | .maxKey => maxKey

theorem asScalar_eq_some (v : Bson) (s : Scalar) : v.asScalar = some s ↔ v = ofScalar s := by
  cases v <;> cases s <;> simp [asScalar, ofScalar]

@[simp] theorem asScalar_ofScalar (s : Scalar) : (ofScalar s).asScalar = some s :=
  (asScalar_eq_some _ s).mpr rfl

@[simp] theorem tag_ofScalar (s : Scalar) : (ofScalar s).tag = s.tagOf := by
  cases s <;> rfl

end Bson

end MongoWire
