import MongoWire.Bson.Layout
import MongoWire.Bson.Convert

/-!
# JSON

The `serde_json` conversion of `wirebson/src/convert.rs`, over any library that does what is assumed
of `serde_json` here.
-/

open MongoWire.Lib MongoWire.Lib.Outcome

namespace MongoWire

/-! ## What is assumed of `serde_json` -/

/-- `serde_json::Value`, one level deep. A number is an integer or a double. -/
inductive JsonKind (Value Map : Type) where
  | null
  | bool (b : Bool)
  | integer (n : Int)
  | float (bits : UInt64)
  | string (s : String)
  | array (items : List Value)
  | object (members : Map)

/-- The part of `serde_json` that the conversion uses, and how a value is taken apart. -/
structure SerdeJson where
  Value : Type
  Map : Type
  null : Value
  bool : Bool → Value
  /-- `Value::from` an `i32` or an `i64`. -/
  integer : Int → Value
  /-- `Value::from(f64)`. -/
  ofF64 : UInt64 → Value
  string : String → Value
  array : List Value → Value
  object : Map → Value
  new : Map
  insert : Map → String → Value → Map
  get : Map → String → Option Value
  kind : Value → JsonKind Value Map

/-- A map is what it holds under each key, and `insert` overwrites. JSON has no infinities and no
NaN. Values of different kinds differ, and a value determines what it was made of. -/
structure SerdeJson.Lawful (serde : SerdeJson) : Prop where
  get_new : ∀ k, serde.get serde.new k = none
  get_insert : ∀ m key value k,
    serde.get (serde.insert m key value) k = if k = key then some value else serde.get m k
  map_ext : ∀ m m', (∀ k, serde.get m k = serde.get m' k) → m = m'
  ofF64_not_finite : ∀ bits, (∀ q, Float64.ofBits bits ≠ .finite q) → serde.ofF64 bits = serde.null
  kind_null : serde.kind serde.null = .null
  kind_bool : ∀ b, serde.kind (serde.bool b) = .bool b
  kind_integer : ∀ n, serde.kind (serde.integer n) = .integer n
  kind_ofF64 : ∀ bits q, Float64.ofBits bits = .finite q →
    serde.kind (serde.ofF64 bits) = .float bits
  kind_string : ∀ s, serde.kind (serde.string s) = .string s
  kind_array : ∀ items, serde.kind (serde.array items) = .array items
  kind_object : ∀ m, serde.kind (serde.object m) = .object m

/-- Values as trees, and maps as functions. -/
inductive Json where
  | null
  | bool (b : Bool)
  | integer (n : Int)
  | float (bits : UInt64)
  | string (s : String)
  | array (items : List Json)
  | object (members : String → Option Json)

namespace Json

def ofF64 (bits : UInt64) : Json :=
  match Float64.ofBits bits with
  | .finite _ => .float bits
  | _ => .null

def kind : Json → JsonKind Json (String → Option Json)
  | .null => .null
  | .bool b => .bool b
  | .integer n => .integer n
  | .float bits => .float bits
  | .string s => .string s
  | .array items => .array items
  | .object members => .object members

def serde : SerdeJson where
  Value := Json
  Map := String → Option Json
  null := .null
  bool := .bool
  integer := .integer
  ofF64 := ofF64
  string := .string
  array := .array
  object := .object
  new := fun _ => none
  insert := fun m key value k => if k = key then some value else m k
  get := fun m => m
  kind := kind

theorem lawful : serde.Lawful where
  get_new _ := rfl
  get_insert _ _ _ _ := rfl
  map_ext _ _ := funext
  ofF64_not_finite bits h := by
    show ofF64 bits = .null
    unfold ofF64
    split
    · exact absurd ‹_› (h _)
    · rfl
  kind_null := rfl
  kind_bool _ := rfl
  kind_integer _ := rfl
  kind_ofF64 bits q h := by
    show kind (ofF64 bits) = .float bits
    rw [ofF64, h]
    rfl
  kind_string _ := rfl
  kind_array _ := rfl
  kind_object _ := rfl

end Json

/-! ## The source -/

def ObjectId.toHex (id : ObjectId) : String := lowerHex id.val

/-- `format!("{d:?}")`. -/
def Decimal128.debug (d : Decimal128) : String :=
  "Decimal128([" ++ ", ".intercalate (d.val.map fun b => toString b.toNat) ++ "])"

def jsonBinary (serde : SerdeJson) (b : Binary) : serde.Value :=
  serde.object (serde.insert serde.new "$binary" (serde.string (lowerHex b.bytes)))

def notImplemented : BsonError :=
  .invalidInput 0 "extended-json rendering not implemented for this type"

mutual

/-- `TryFrom<&Bson> for serde_json::Value`. -/
def Bson.toJson (serde : SerdeJson) : Bson → Outcome BsonError serde.Value
  | .double bits => .ok (serde.ofF64 bits)
  | .string s => .ok (serde.string s)
  | .javaScript s => .ok (serde.string s)
  | .symbol s => .ok (serde.string s)
  | .bool b => .ok (serde.bool b)
  | .null => .ok serde.null
  | .undefined => .ok serde.null
  | .int32 i => .ok (serde.integer i.toInt)
  | .int64 i => .ok (serde.integer i.toInt)
  | .dateTime ms => .ok (serde.integer ms.toInt)
  | .objectId id => .ok (serde.string (ObjectId.toHex id))
  | .decimal128 d => .ok (serde.string (Decimal128.debug d))
  | .document ⟨fields⟩ => do
    let map ← insertFields serde fields serde.new
    return serde.object map
  | .array ⟨values⟩ => do
    let list ← pushValues serde values []
    return serde.array list
  | .binary b => .ok (jsonBinary serde b)
  | .timestamp _ => .err notImplemented
  | .regex _ => .err notImplemented
  | .dbPointer _ => .err notImplemented
  | .javaScriptScope _ _ => .err notImplemented
  | .minKey => .err notImplemented
  | .maxKey => .err notImplemented

/-- The loop over the fields of a document. -/
def insertFields (serde : SerdeJson) : List Field → serde.Map → Outcome BsonError serde.Map
  | [], map => .ok map
  | ⟨name, value⟩ :: rest, map => do
    let json ← value.toJson serde
    insertFields serde rest (serde.insert map name json)

/-- The loop over the values of an array. -/
def pushValues (serde : SerdeJson) : List Bson → List serde.Value →
    Outcome BsonError (List serde.Value)
  | [], list => .ok list
  | value :: rest, list => do
    let json ← value.toJson serde
    pushValues serde rest (list ++ [json])

end

/-! ## What each loop leaves -/

/-- The last field with this name. -/
def Document.last (d : Document) (name : String) : Option Bson :=
  (d.fields.reverse.find? fun f => f.name = name).map Field.value

theorem Document.last_cons (f : Field) (fs : List Field) (name : String) :
    Document.last ⟨f :: fs⟩ name =
      (Document.last ⟨fs⟩ name).or (if f.name = name then some f.value else none) := by
  unfold Document.last
  rw [List.reverse_cons, List.find?_append, Option.map_or]
  congr 1
  by_cases h : f.name = name
  · simp [h]
  · simp [h]

variable {serde : SerdeJson}

theorem pushValues_eq_ok {vs : List Bson} {list list' : List serde.Value} :
    pushValues serde vs list = .ok list' ↔
      ∃ js, list' = list ++ js ∧ List.Forall₂ (fun v j => v.toJson serde = .ok j) vs js := by
  induction vs generalizing list with
  | nil =>
    simp only [pushValues, ok.injEq, List.forall₂_nil_left_iff]
    constructor
    · rintro rfl
      exact ⟨[], by simp, rfl⟩
    · rintro ⟨_, rfl, rfl⟩
      simp
  | cons v vs ih =>
    simp only [pushValues, bind_eq_ok, ih, List.forall₂_cons_left_iff]
    constructor
    · rintro ⟨j, hj, js, rfl, hjs⟩
      exact ⟨j :: js, by simp, j, js, hj, hjs, rfl⟩
    · rintro ⟨_, rfl, j, js, hj, hjs, rfl⟩
      exact ⟨j, hj, js, by simp, hjs⟩

section Maps

variable (hlaw : serde.Lawful)

include hlaw

theorem insertFields_eq_ok {fs : List Field} {map map' : serde.Map}
    (h : insertFields serde fs map = .ok map') :
    (∀ f ∈ fs, ∃ j, f.value.toJson serde = .ok j) ∧
      ∀ k, (∀ v, Document.last ⟨fs⟩ k = some v →
          ∃ j, v.toJson serde = .ok j ∧ serde.get map' k = some j) ∧
        (Document.last ⟨fs⟩ k = none → serde.get map' k = serde.get map k) := by
  induction fs generalizing map with
  | nil =>
    cases h
    refine ⟨by simp, fun k => ⟨fun v hv => ?_, fun _ => rfl⟩⟩
    simp [Document.last] at hv
  | cons f fs ih =>
    obtain ⟨name, value⟩ := f
    rw [insertFields, bind_eq_ok] at h
    obtain ⟨j, hj, hrest⟩ := h
    obtain ⟨hall, hkeys⟩ := ih hrest
    refine ⟨List.forall_mem_cons.mpr ⟨⟨j, hj⟩, hall⟩, fun k => ?_⟩
    obtain ⟨hlast, hkept⟩ := hkeys k
    rw [Document.last_cons]
    cases hl : Document.last ⟨fs⟩ k with
    | some w => exact ⟨fun v hv => hlast v (hl.trans hv), fun hv => by cases hv⟩
    | none =>
      -- no later field has this name, so the insertion of this one is what counts
      rw [Option.none_or, hkept hl, hlaw.get_insert]
      dsimp only
      by_cases hname : name = k
      · rw [if_pos hname, if_pos hname.symm]
        refine ⟨fun v hv => ?_, fun hv => by cases hv⟩
        cases hv
        exact ⟨j, hj, rfl⟩
      · rw [if_neg hname, if_neg (Ne.symm hname)]
        exact ⟨fun v hv => (nomatch hv), fun _ => rfl⟩

end Maps

/-! ## Values that render alike -/

/-- What a value is in JSON, one level deep. -/
inductive Shape where
  | null
  | bool (b : Bool)
  | integer (n : Int)
  | float (bits : UInt64)
  | text (s : String)
  | items (values : List Bson)
  | members (d : Document)
  | unsupported

def Bson.shape : Bson → Shape
  | .double bits =>
    match Float64.ofBits bits with
    | .finite _ => .float bits
    | _ => .null
  | .string s => .text s
  | .javaScript s => .text s
  | .symbol s => .text s
  | .bool b => .bool b
  | .null => .null
  | .undefined => .null
  | .int32 i => .integer i.toInt
  | .int64 i => .integer i.toInt
  | .dateTime ms => .integer ms.toInt
  | .objectId id => .text (ObjectId.toHex id)
  | .decimal128 d => .text (Decimal128.debug d)
  | .document d => .members d
  | .array ⟨values⟩ => .items values
  | .binary b => .members ⟨[⟨"$binary", .string (lowerHex b.bytes)⟩]⟩
  | .timestamp _ => .unsupported
  | .regex _ => .unsupported
  | .dbPointer _ => .unsupported
  | .javaScriptScope _ _ => .unsupported
  | .minKey => .unsupported
  | .maxKey => .unsupported

/-- Neither a list of values nor a document. -/
def Shape.IsLeaf : Shape → Prop
  | .items _ => False
  | .members _ => False
  | .unsupported => False
  | _ => True

/-- Two values are alike when they are the same null, boolean, number or text, lists alike item
by item, or documents whose last fields of each name are alike. -/
inductive Bson.Alike : Bson → Bson → Prop
  | leaf {v w : Bson} : v.shape.IsLeaf → v.shape = w.shape → Alike v w
  | items {v w : Bson} {vs ws : List Bson} : v.shape = .items vs → w.shape = .items ws →
      vs.length = ws.length →
      (∀ (i : Nat) x y, vs[i]? = some x → ws[i]? = some y → Alike x y) → Alike v w
  | members {v w : Bson} {d e : Document} : v.shape = .members d → w.shape = .members e →
      (∀ k, (d.last k).isSome = (e.last k).isSome) →
      (∀ k x y, d.last k = some x → e.last k = some y → Alike x y) → Alike v w

section Shapes

variable (hlaw : serde.Lawful)

include hlaw

theorem Bson.toJson_eq (v : Bson) : v.toJson serde =
    match v.shape with
    | .null => .ok serde.null
    | .bool b => .ok (serde.bool b)
    | .integer n => .ok (serde.integer n)
    | .float bits => .ok (serde.ofF64 bits)
    | .text s => .ok (serde.string s)
    | .items values => do
      let list ← pushValues serde values []
      return serde.array list
    | .members d => do
      let map ← insertFields serde d.fields serde.new
      return serde.object map
    | .unsupported => .err notImplemented := by
  cases v with
  | double bits =>
    have hnull := hlaw.ofF64_not_finite bits
    simp only [toJson, shape]
    rcases hbits : Float64.ofBits bits with _ | negative | q
    · rw [hbits] at hnull
      rw [hnull (by simp)]
    · rw [hbits] at hnull
      rw [hnull (by simp)]
    · rfl
  | document d =>
    obtain ⟨fields⟩ := d
    rw [toJson]
    rfl
  | array a =>
    obtain ⟨values⟩ := a
    rw [toJson]
    rfl
  | _ =>
    rw [toJson]
    rfl

theorem Bson.toJson_items {v : Bson} {vs : List Bson} {x : serde.Value} (h : v.shape = .items vs)
    (hx : v.toJson serde = .ok x) :
    ∃ js, x = serde.array js ∧ List.Forall₂ (fun v j => v.toJson serde = .ok j) vs js := by
  rw [toJson_eq hlaw, h] at hx
  obtain ⟨list, hlist, hpure⟩ := (bind_eq_ok _ _ _).mp hx
  obtain ⟨js, hjs, hconverted⟩ := pushValues_eq_ok.mp hlist
  rw [List.nil_append] at hjs
  subst hjs
  cases hpure
  exact ⟨_, rfl, hconverted⟩

theorem Bson.toJson_members {v : Bson} {d : Document} {x : serde.Value}
    (h : v.shape = .members d) (hx : v.toJson serde = .ok x) :
    ∃ m, x = serde.object m ∧ insertFields serde d.fields serde.new = .ok m := by
  rw [toJson_eq hlaw, h] at hx
  obtain ⟨m, hm, hpure⟩ := (bind_eq_ok _ _ _).mp hx
  cases hpure
  exact ⟨m, rfl, hm⟩

theorem Bson.Alike.toJson_eq {v w : Bson} (h : v.Alike w) :
    ∀ {x y}, v.toJson serde = .ok x → w.toJson serde = .ok y → x = y := by
  induction h with
  | @leaf v w _ hshape =>
    intro x y hx hy
    rw [Bson.toJson_eq hlaw, hshape, ← Bson.toJson_eq hlaw, hy] at hx
    cases hx
    rfl
  | items hv hw hlen _ ih =>
    intro x y hx hy
    obtain ⟨js, rfl, hjs⟩ := Bson.toJson_items hlaw hv hx
    obtain ⟨js', rfl, hjs'⟩ := Bson.toJson_items hlaw hw hy
    obtain ⟨hlen₁, hget⟩ := List.forall₂_iff_get.mp hjs
    obtain ⟨hlen₂, hget'⟩ := List.forall₂_iff_get.mp hjs'
    congr 1
    apply List.ext_getElem (by omega)
    intro i hi hi'
    exact ih i _ _ (List.getElem?_eq_getElem (by omega)) (List.getElem?_eq_getElem (by omega))
      (hget i (by omega) hi) (hget' i (by omega) hi')
  | @members v w d e hv hw hkeys _ ih =>
    intro x y hx hy
    obtain ⟨m, rfl, hm⟩ := Bson.toJson_members hlaw hv hx
    obtain ⟨m', rfl, hm'⟩ := Bson.toJson_members hlaw hw hy
    congr 1
    refine hlaw.map_ext m m' fun k => ?_
    obtain ⟨hlast, hnone⟩ := (insertFields_eq_ok hlaw hm).2 k
    obtain ⟨hlast', hnone'⟩ := (insertFields_eq_ok hlaw hm').2 k
    have hk := hkeys k
    cases hd : d.last k with
    | none =>
      rw [hd, Option.isSome_none] at hk
      have he : e.last k = none := by simpa using hk.symm
      rw [hnone hd, hnone' he]
    | some a =>
      rw [hd, Option.isSome_some] at hk
      obtain ⟨b, he⟩ := Option.isSome_iff_exists.mp hk.symm
      obtain ⟨j, hj, hmk⟩ := hlast a hd
      obtain ⟨j', hj', hmk'⟩ := hlast' b he
      rw [hmk, hmk', ih k a b hd he hj hj']

end Shapes

/-- The shapes that give a JSON value of this kind. -/
def JsonKind.Fits {Value Map : Type} : JsonKind Value Map → Shape → Prop
  | .null, shape => shape = .null
  | .bool b, shape => shape = .bool b
  | .integer n, shape => shape = .integer n
  | .float bits, shape => shape = .float bits
  | .string s, shape => shape = .text s
  | .array _, shape => ∃ vs, shape = .items vs
  | .object _, shape => ∃ d, shape = .members d

section Known

variable (hlaw : serde.Lawful)

include hlaw

end Known

end MongoWire
