import MongoWire.Bson.Decode
import MongoWire.Bson.Encode

/-!
# The BSON grammar

What the bytes of a value are, with no buffer, no cursor and no offset. The
encoder writes these layouts and the scanner reads exactly them.
-/

open MongoWire.Lib MongoWire.Lib.Outcome MongoWire.Io

namespace MongoWire

/-! ## Scalars -/

def cstrLayout (s : String) : Bytes := utf8 s ++ [0]

def strLayout (s : String) : Bytes := leBytes 4 ((utf8 s).length + 1) ++ cstrLayout s

@[simp] theorem length_cstrLayout (s : String) :
    (cstrLayout s).length = (utf8 s).length + 1 := by
  simp [cstrLayout]

@[simp] theorem length_strLayout (s : String) :
    (strLayout s).length = (utf8 s).length + 5 := by
  simp [strLayout]; omega

def Binary.layout (b : Binary) : Bytes :=
  leBytes 4 (b.bytes.length + b.subtype.extra) ++ b.subtype.toU8 ::
    (if b.subtype = .binaryOld then leBytes 4 b.bytes.length ++ b.bytes else b.bytes)

namespace Scalar

def layout : Scalar → Bytes
  | double bits => u64ToLe bits
  | string v => strLayout v
  | binary b => b.layout
  | undefined => []
  | objectId v => v.val
  | bool v => [if v then 1 else 0]
  | dateTime v => i64ToLe v
  | null => []
  | regex r => cstrLayout r.pattern ++ cstrLayout r.options
  | dbPointer p => strLayout p.ns ++ p.id.val
  | javaScript v => strLayout v
  | symbol v => strLayout v
  | int32 v => i32ToLe v
  | timestamp v => u32ToLe v.increment ++ u32ToLe v.seconds
  | int64 v => i64ToLe v
  | decimal128 v => v.val
  | minKey => []
  | maxKey => []

/-- Every length field of the layout is below `bound`, and no NUL cuts a C string short. -/
def Fits (bound : Nat) : Scalar → Prop
  | string v => (utf8 v).length + 1 < bound
  | binary b => b.bytes.length + b.subtype.extra < bound
  | regex r => 0 ∉ utf8 r.pattern ∧ 0 ∉ utf8 r.options
  | dbPointer p => (utf8 p.ns).length + 1 < bound
  | javaScript v => (utf8 v).length + 1 < bound
  | symbol v => (utf8 v).length + 1 < bound
  | _ => True

/-- The documented range of a binary subtype, for the one scalar that has one. -/
def InRange : Scalar → Prop
  | binary b => b.subtype.InRange
  | _ => True

theorem Fits.mono {m n : Nat} (h : m ≤ n) {s : Scalar} (hs : s.Fits m) : s.Fits n := by
  cases s <;> simp only [Fits] at hs ⊢ <;> omega

end Scalar

/-! ## Composites -/

/-- Length prefix, content, trailing NUL. -/
def frame (body : Bytes) : Bytes := leBytes 4 (body.length + 5) ++ (body ++ [0])

@[simp] theorem length_frame (body : Bytes) : (frame body).length = body.length + 5 := by
  simp [frame]; omega

theorem drop_frame (body : Bytes) : (frame body).drop 4 = body ++ [0] := by
  rw [frame, List.drop_left' (length_leBytes 4 _)]

theorem framed_frame (body : Bytes) (h : body.length + 5 < 2 ^ 32) : Framed (frame body) where
  long := by simp [minDocLen]
  declared := by
    rw [length_frame, frame, List.take_left' (length_leBytes 4 _), leNat_leBytes _ _ (by omega)]
  nul := by simp [frame]

theorem Framed.eq_frame {b : Bytes} (h : Framed b) :
    ∃ body, b = frame body ∧ body.length + 5 < 2 ^ 32 := by
  have hlong := h.long
  simp only [minDocLen] at hlong
  have hdecl := h.declared
  have hlt := leNat_lt (b.take 4)
  rw [hdecl, List.length_take_of_le (by omega)] at hlt
  obtain ⟨init, hinit⟩ : ∃ init, b = init ++ [0] := List.getLast?_eq_some_iff.mp h.nul
  have hpre : b.take 4 = leBytes 4 b.length := by
    have := leBytes_leNat (b.take 4)
    rw [hdecl, List.length_take_of_le (by omega)] at this
    exact this.symm
  have hlen : init.length + 1 = b.length := by rw [hinit]; simp
  have hdrop : b.drop 4 = init.drop 4 ++ [0] := by
    rw [hinit, List.drop_append_of_le_length (by omega)]
  refine ⟨init.drop 4, ?_, by simp; omega⟩
  rw [frame, ← hdrop, show (init.drop 4).length + 5 = b.length by simp; omega, ← hpre,
    List.take_append_drop]

/-- Tag, name, value. -/
def elemLayout (tag : Tag) (name : String) (value : Bytes) : Bytes :=
  tag.toU8 :: (cstrLayout name ++ value)

@[simp] theorem length_elemLayout (tag : Tag) (name : String) (value : Bytes) :
    (elemLayout tag name value).length = (utf8 name).length + value.length + 2 := by
  simp [elemLayout]; omega

def scopeLayout (code : String) (scope : RawDocument) : Bytes :=
  leBytes 4 (4 + (strLayout code).length + scope.bytes.length) ++ (strLayout code ++ scope.bytes)

@[simp] theorem length_scopeLayout (code : String) (scope : RawDocument) :
    (scopeLayout code scope).length = 4 + (strLayout code).length + scope.bytes.length := by
  simp [scopeLayout]; omega

/-! ## Raw values -/

namespace RawBsonRef

/-- A raw value is a document, an array, code with scope, or a scalar. -/
def elim {α : Type} (onDocument : RawDocument → α) (onArray : RawArray → α)
    (onScope : String → RawDocument → α) (onScalar : Scalar → α) : RawBsonRef → α
  | document d => onDocument d
  | array a => onArray a
  | javaScriptScope code scope => onScope code scope
  | double v => onScalar (.double v)
  | string v => onScalar (.string v)
  | binary v => onScalar (.binary v)
  | undefined => onScalar .undefined
  | objectId v => onScalar (.objectId v)
  | bool v => onScalar (.bool v)
  | dateTime v => onScalar (.dateTime v)
  | null => onScalar .null
  | regex v => onScalar (.regex v)
  | dbPointer v => onScalar (.dbPointer v)
  | javaScript v => onScalar (.javaScript v)
  | symbol v => onScalar (.symbol v)
  | int32 v => onScalar (.int32 v)
  | timestamp v => onScalar (.timestamp v)
  | int64 v => onScalar (.int64 v)
  | decimal128 v => onScalar (.decimal128 v)
  | minKey => onScalar .minKey
  | maxKey => onScalar .maxKey

def ofScalar : Scalar → RawBsonRef
  | .double v => double v
  | .string v => string v
  | .binary v => binary v
  | .undefined => undefined
  | .objectId v => objectId v
  | .bool v => bool v
  | .dateTime v => dateTime v
  | .null => null
  | .regex v => regex v
  | .dbPointer v => dbPointer v
  | .javaScript v => javaScript v
  | .symbol v => symbol v
  | .int32 v => int32 v
  | .timestamp v => timestamp v
  | .int64 v => int64 v
  | .decimal128 v => decimal128 v
  | .minKey => minKey
  | .maxKey => maxKey

@[simp] theorem elim_ofScalar {α : Type} (f : RawDocument → α) (g : RawArray → α)
    (h : String → RawDocument → α) (k : Scalar → α) (s : Scalar) :
    (ofScalar s).elim f g h k = k s := by
  cases s <;> rfl

@[elab_as_elim]
theorem casesScalar {motive : RawBsonRef → Prop} (v : RawBsonRef)
    (document : ∀ d, motive (.document d)) (array : ∀ a, motive (.array a))
    (scope : ∀ code s, motive (.javaScriptScope code s)) (scalar : ∀ s, motive (ofScalar s)) :
    motive v := by
  cases v with
  | document d => exact document d
  | array a => exact array a
  | javaScriptScope code s => exact scope code s
  | double v => exact scalar (.double v)
  | string v => exact scalar (.string v)
  | binary v => exact scalar (.binary v)
  | undefined => exact scalar .undefined
  | objectId v => exact scalar (.objectId v)
  | bool v => exact scalar (.bool v)
  | dateTime v => exact scalar (.dateTime v)
  | null => exact scalar .null
  | regex v => exact scalar (.regex v)
  | dbPointer v => exact scalar (.dbPointer v)
  | javaScript v => exact scalar (.javaScript v)
  | symbol v => exact scalar (.symbol v)
  | int32 v => exact scalar (.int32 v)
  | timestamp v => exact scalar (.timestamp v)
  | int64 v => exact scalar (.int64 v)
  | decimal128 v => exact scalar (.decimal128 v)
  | minKey => exact scalar .minKey
  | maxKey => exact scalar .maxKey

def tag : RawBsonRef → Tag :=
  elim (fun _ => .document) (fun _ => .array) (fun _ _ => .javaScriptScope) Scalar.tagOf

def layout : RawBsonRef → Bytes :=
  elim RawDocument.bytes RawArray.bytes scopeLayout Scalar.layout

/-- What the scanner demands of a value: lengths are `u32`, composites are complete. -/
def Readable : RawBsonRef → Prop :=
  elim (fun d => Framed d.bytes) (fun a => Framed a.bytes)
    (fun code scope => Framed scope.bytes ∧ (scopeLayout code scope).length < 2 ^ 32)
    (fun s => s.Fits (2 ^ 32) ∧ s.InRange)

end RawBsonRef

/-- One named raw value, as the scanner hands it out. -/
abbrev RawElem := String × RawBsonRef

namespace RawElem

def layout (f : RawElem) : Bytes := elemLayout f.2.tag f.1 f.2.layout

def Readable (f : RawElem) : Prop := (0 : UInt8) ∉ utf8 f.1 ∧ f.2.Readable

end RawElem

/-! ## Eager values -/

section Induction

-- The three proofs call each other, so each needs every case although it names only some.
set_option linter.unusedSectionVars false

variable {value : Bson → Prop} {fields : List Field → Prop} {values : List Bson → Prop}
  (document : ∀ fs, fields fs → value (.document ⟨fs⟩))
  (array : ∀ vs, values vs → value (.array ⟨vs⟩))
  (scope : ∀ code s, value (.javaScriptScope code s)) (scalar : ∀ s, value (.ofScalar s))
  (noFields : fields []) (field : ∀ name v fs, value v → fields fs → fields (⟨name, v⟩ :: fs))
  (noValues : values []) (element : ∀ v vs, value v → values vs → values (v :: vs))

include document array scope scalar noFields field noValues element

mutual

theorem Bson.induction_value : ∀ v, value v
  | .document ⟨fs⟩ => document fs (Bson.induction_fields fs)
  | .array ⟨vs⟩ => array vs (Bson.induction_values vs)
  | .javaScriptScope code s => scope code s
  | .double v => scalar (.double v)
  | .string v => scalar (.string v)
  | .binary v => scalar (.binary v)
  | .undefined => scalar .undefined
  | .objectId v => scalar (.objectId v)
  | .bool v => scalar (.bool v)
  | .dateTime v => scalar (.dateTime v)
  | .null => scalar .null
  | .regex v => scalar (.regex v)
  | .dbPointer v => scalar (.dbPointer v)
  | .javaScript v => scalar (.javaScript v)
  | .symbol v => scalar (.symbol v)
  | .int32 v => scalar (.int32 v)
  | .timestamp v => scalar (.timestamp v)
  | .int64 v => scalar (.int64 v)
  | .decimal128 v => scalar (.decimal128 v)
  | .minKey => scalar .minKey
  | .maxKey => scalar .maxKey

theorem Bson.induction_fields : ∀ fs, fields fs
  | [] => noFields
  | ⟨name, v⟩ :: fs => field name v fs (Bson.induction_value v) (Bson.induction_fields fs)

theorem Bson.induction_values : ∀ vs, values vs
  | [] => noValues
  | v :: vs => element v vs (Bson.induction_value v) (Bson.induction_values vs)

end

/-- Induction over values, field lists and value lists at once, with all scalars in one case. -/
theorem Bson.induction : (∀ v, value v) ∧ (∀ fs, fields fs) ∧ ∀ vs, values vs :=
  ⟨Bson.induction_value document array scope scalar noFields field noValues element,
    Bson.induction_fields document array scope scalar noFields field noValues element,
    Bson.induction_values document array scope scalar noFields field noValues element⟩

end Induction

mutual

def Document.layout : Document → Bytes
  | ⟨fields⟩ => frame (fieldsLayout fields)

def fieldsLayout : List Field → Bytes
  | [] => []
  | ⟨name, value⟩ :: rest => elemLayout value.tag name value.layout ++ fieldsLayout rest

def BsonArray.layout : BsonArray → Bytes
  | ⟨values⟩ => frame (valuesLayout 0 values)

/-- The elements of an array from index `i` on: the names are the decimal indices. -/
def valuesLayout : (i : Nat) → List Bson → Bytes
  | _, [] => []
  | i, value :: rest => elemLayout value.tag (toString i) value.layout ++ valuesLayout (i + 1) rest

def Bson.layout : Bson → Bytes
  | .document d => d.layout
  | .array a => a.layout
  | .javaScriptScope code scope => scopeLayout code scope
  | other => (other.asScalar.map Scalar.layout).getD []

end

@[simp] theorem Bson.layout_ofScalar (s : Scalar) : (Bson.ofScalar s).layout = s.layout := by
  cases s <;> rfl

end MongoWire
