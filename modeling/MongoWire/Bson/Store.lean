import MongoWire.Bson.Encoded
import MongoWire.Lib.Sweep

/-!
# Documents that are built and changed

The operations of `wirebson/src/document.rs` on an eager document. To its users a document is a list
of values for each name; what it holds after any sequence of changes is found again in its bytes.
-/

open MongoWire.Lib MongoWire.Lib.Outcome

namespace MongoWire

namespace Document

/-! ## The operations -/

def new : Document := ⟨[]⟩

def add (d : Document) (name : String) (value : Bson) : Document := ⟨d.fields ++ [⟨name, value⟩]⟩

/-- `get_mut`, and a value that is written through the reference. -/
def write (d : Document) (name : String) (value : Bson) : Document :=
  ⟨(overwrite (·.name = name) (fun f => { f with value }) d.fields).getD d.fields⟩

/-- `remove`: the first value that was removed, and the document that is left. -/
def remove (d : Document) (name : String) : Option Bson × Document :=
  let (first, fields) := sweep (·.name = name) Field.value d.fields 0 none
  (first, ⟨fields⟩)

def replace (d : Document) (name : String) (value : Bson) : Document :=
  match overwrite (·.name = name) (fun f => { f with value }) d.fields with
  | some fields => ⟨fields⟩
  | none => ⟨d.fields ++ [⟨name, value⟩]⟩

/-! ## What a document holds -/

/-- The values under a name, in their order. -/
def held (d : Document) (name : String) : List Bson :=
  (d.fields.filter (·.name = name)).map Field.value

theorem get_eq_head? (d : Document) (name : String) : d.get name = (d.held name).head? := by
  unfold get held
  rw [List.head?_map, List.head?_filter]

theorem remove_eq (d : Document) (name : String) :
    d.remove name = ((d.held name).head?, ⟨d.fields.filter (·.name ≠ name)⟩) := by
  unfold remove
  rw [sweep_eq, ← get_eq_head?]
  simp [get]

end Document

/-- A change of a document. -/
inductive Edit where
  | add (name : String) (value : Bson)
  | write (name : String) (value : Bson)
  | remove (name : String)
  | replace (name : String) (value : Bson)

namespace Edit

def name : Edit → String
  | add name _ | write name _ | remove name | replace name _ => name

/-- The value that a change puts into a document. -/
def value? : Edit → Option Bson
  | add _ value | write _ value | replace _ value => some value
  | remove _ => none

def apply (d : Document) : Edit → Document
  | add name value => d.add name value
  | write name value => d.write name value
  | remove name => (d.remove name).2
  | replace name value => d.replace name value

/-- What a change does to the values under its name. -/
def change : Edit → List Bson → List Bson
  | add _ value, values => values ++ [value]
  | write _ value, _ :: values => value :: values
  | write _ _, [] => []
  | remove _, _ => []
  | replace _ value, _ :: values => value :: values
  | replace _ value, [] => [value]

end Edit

/-- The values under a name after a sequence of changes. -/
def heldAfter (edits : List Edit) (name : String) (values : List Bson) : List Bson :=
  edits.foldl (fun values e => if e.name = name then e.change values else values) values

def Document.edit (d : Document) (edits : List Edit) : Document := edits.foldl Edit.apply d

/-! ## One change -/

namespace Document

theorem held_append (xs ys : List Field) (name : String) :
    held ⟨xs ++ ys⟩ name = held ⟨xs⟩ name ++ held ⟨ys⟩ name := by
  simp [held]

theorem held_cons_self (value : Bson) (name : String) (fs : List Field) :
    held ⟨⟨name, value⟩ :: fs⟩ name = value :: held ⟨fs⟩ name := by
  simp [held]

theorem held_of_forall {fs : List Field} {name : String} (h : ∀ f ∈ fs, decide (f.name = name) = false) :
    held ⟨fs⟩ name = [] := by
  simpa [held] using h

theorem write_cases (d : Document) (name : String) (value : Bson) :
    (d.held name = [] ∧ d.write name value = d ∧ d.replace name value = d.add name value) ∨
    ∃ before old after, d.fields = before ++ ⟨name, old⟩ :: after ∧ held ⟨before⟩ name = [] ∧
      d.write name value = ⟨before ++ ⟨name, value⟩ :: after⟩ ∧
      d.replace name value = ⟨before ++ ⟨name, value⟩ :: after⟩ := by
  unfold write replace
  rcases overwrite_cases (·.name = name) (fun f : Field => { f with value }) d.fields with
    ⟨hnone, hall⟩ | ⟨before, ⟨found, old⟩, after, hfields, hbefore, hfound, hsome⟩
  · refine .inl ⟨held_of_forall hall, ?_, ?_⟩
    · rw [hnone, Option.getD_none]
      cases d
      rfl
    · rw [hnone]
      rfl
  · obtain rfl : found = name := of_decide_eq_true hfound
    refine .inr ⟨before, old, after, hfields, held_of_forall hbefore, ?_, ?_⟩
    · rw [hsome, Option.getD_some]
    · rw [hsome]

theorem held_eq (d : Document) {fs : List Field} (h : d.fields = fs) (name : String) :
    d.held name = held ⟨fs⟩ name :=
  congrArg (fun fs : List Field => held ⟨fs⟩ name) h

end Document

namespace Edit

variable (e : Edit) (d : Document)

theorem held_self : (e.apply d).held e.name = e.change (d.held e.name) := by
  have hfirst {before after : List Field} {name : String} (value : Bson)
      (h : Document.held ⟨before⟩ name = []) :
      Document.held ⟨before ++ ⟨name, value⟩ :: after⟩ name = value :: Document.held ⟨after⟩ name := by
    rw [Document.held_append, h, Document.held_cons_self, List.nil_append]
  have hadd (name : String) (value : Bson) :
      (d.add name value).held name = d.held name ++ [value] :=
    (Document.held_append ..).trans (congrArg _ (Document.held_cons_self ..))
  cases e with
  | add name value => exact hadd name value
  | remove name =>
    show (d.remove name).2.held name = []
    rw [Document.remove_eq]
    exact Document.held_of_forall (by simp)
  | write name value =>
    show (d.write name value).held name = (write name value).change (d.held name)
    rcases d.write_cases name value with ⟨hempty, hwrite, -⟩ | ⟨before, old, after, hd, hb, hwrite, -⟩
    · rw [hwrite, hempty]
      rfl
    · rw [hwrite, d.held_eq hd, hfirst _ hb, hfirst _ hb]
      rfl
  | replace name value =>
    show (d.replace name value).held name = (replace name value).change (d.held name)
    rcases d.write_cases name value with ⟨hempty, -, hrep⟩ | ⟨before, old, after, hd, hb, -, hrep⟩
    · rw [hrep, hadd, hempty]
      rfl
    · rw [hrep, d.held_eq hd, hfirst _ hb, hfirst _ hb]
      rfl

theorem filter_others (names : String → Bool) (h : names e.name = false) :
    (e.apply d).fields.filter (names ·.name) = d.fields.filter (names ·.name) := by
  have hadd (name : String) (value : Bson) (h : names name = false) :
      (d.add name value).fields.filter (names ·.name) = d.fields.filter (names ·.name) := by
    simp [Document.add, h]
  have hfirst (before after : List Field) (name : String) (value old : Bson) (h : names name = false) :
      (before ++ ⟨name, value⟩ :: after).filter (names ·.name) =
        (before ++ ⟨name, old⟩ :: after).filter (names ·.name) := by
    simp [h]
  cases e with
  | add name value => exact hadd name value h
  | remove name =>
    show (d.remove name).2.fields.filter _ = _
    rw [Document.remove_eq, List.filter_filter]
    refine List.filter_congr fun f _ => ?_
    by_cases hf : f.name = name
    · have hnot : names f.name = false := by rw [hf]; exact h
      rw [hnot, Bool.false_and]
    · simp [hf]
  | write name value =>
    show (d.write name value).fields.filter _ = _
    rcases d.write_cases name value with ⟨-, hwrite, -⟩ | ⟨before, old, after, hd, -, hwrite, -⟩
    · rw [hwrite]
    · rw [hwrite, hd]
      exact hfirst before after name value old h
  | replace name value =>
    show (d.replace name value).fields.filter _ = _
    rcases d.write_cases name value with ⟨-, -, hrep⟩ | ⟨before, old, after, hd, -, -, hrep⟩
    · rw [hrep]
      exact hadd name value h
    · rw [hrep, hd]
      exact hfirst before after name value old h

theorem held_other {name : String} (h : e.name ≠ name) : (e.apply d).held name = d.held name := by
  unfold Document.held
  rw [e.filter_others d (· = name) (by simpa using h)]

theorem forall_apply {P : Bson → Prop} (he : ∀ value ∈ e.value?, P value)
    (hd : ∀ f ∈ d.fields, P f.value) : ∀ f ∈ (e.apply d).fields, P f.value := by
  have hadd {name : String} {value : Bson} (hvalue : P value) :
      ∀ f ∈ (d.add name value).fields, P f.value :=
    List.forall_mem_append.mpr ⟨hd, List.forall_mem_singleton.mpr hvalue⟩
  have hfirst {before after : List Field} {name : String} {value old : Bson} (hvalue : P value)
      (hfields : d.fields = before ++ ⟨name, old⟩ :: after) :
      ∀ f ∈ before ++ ⟨name, value⟩ :: after, P f.value := by
    rw [hfields, List.forall_mem_append, List.forall_mem_cons] at hd
    exact List.forall_mem_append.mpr ⟨hd.1, List.forall_mem_cons.mpr ⟨hvalue, hd.2.2⟩⟩
  cases e with
  | add name value => exact hadd (he value rfl)
  | remove name =>
    show ∀ f ∈ (d.remove name).2.fields, P f.value
    rw [Document.remove_eq]
    exact fun f hf => hd f (List.mem_of_mem_filter hf)
  | write name value =>
    show ∀ f ∈ (d.write name value).fields, P f.value
    rcases d.write_cases name value with ⟨-, hwrite, -⟩ | ⟨before, old, after, hfields, -, hwrite, -⟩
    · rwa [hwrite]
    · rw [hwrite]
      exact hfirst (he value rfl) hfields
  | replace name value =>
    show ∀ f ∈ (d.replace name value).fields, P f.value
    rcases d.write_cases name value with ⟨-, -, hrep⟩ | ⟨before, old, after, hfields, -, -, hrep⟩
    · rw [hrep]
      exact hadd (he value rfl)
    · rw [hrep]
      exact hfirst (he value rfl) hfields

end Edit

/-! ## Sequences of changes -/

namespace Document

variable (d : Document) (edits : List Edit)

theorem held_edit (name : String) : (d.edit edits).held name = heldAfter edits name (d.held name) := by
  induction edits generalizing d with
  | nil => rfl
  | cons e edits ih =>
    refine (ih (e.apply d)).trans ?_
    show _ = heldAfter edits name (if e.name = name then e.change (d.held name) else d.held name)
    split
    · rw [← ‹e.name = name›, e.held_self d]
    · rw [e.held_other d ‹_›]

theorem filter_edit (names : String → Bool) (h : ∀ e ∈ edits, names e.name = false) :
    (d.edit edits).fields.filter (names ·.name) = d.fields.filter (names ·.name) := by
  induction edits generalizing d with
  | nil => rfl
  | cons e edits ih =>
    obtain ⟨he, hedits⟩ := List.forall_mem_cons.mp h
    exact (ih (e.apply d) hedits).trans (e.filter_others d names he)

theorem forall_edit {P : Bson → Prop} (hd : ∀ f ∈ d.fields, P f.value)
    (h : ∀ e ∈ edits, ∀ value ∈ e.value?, P value) : ∀ f ∈ (d.edit edits).fields, P f.value := by
  induction edits generalizing d with
  | nil => exact hd
  | cons e edits ih =>
    obtain ⟨he, hedits⟩ := List.forall_mem_cons.mp h
    exact ih (e.apply d) (e.forall_apply d he hd) hedits

/-- **A document is a list of values for each name.** After any changes, the values under a name are
what the changes of this name made of them; `get` and `remove` return the first one; and the fields
that no change named are as they were, in their order. -/
theorem edits_act_by_name (name : String) :
    (d.edit edits).held name = heldAfter edits name (d.held name) ∧
    (d.edit edits).get name = (heldAfter edits name (d.held name)).head? ∧
    ((d.edit edits).remove name).1 = (heldAfter edits name (d.held name)).head? ∧
    (d.edit edits).fields.filter (fun f => f.name ∉ edits.map Edit.name) =
      d.fields.filter (fun f => f.name ∉ edits.map Edit.name) := by
  have hheld := d.held_edit edits name
  refine ⟨hheld, ?_, ?_, ?_⟩
  · rw [get_eq_head?, hheld]
  · rw [remove_eq, hheld]
  · refine d.filter_edit edits (fun n => decide (n ∉ edits.map Edit.name)) fun e he => ?_
    exact decide_eq_false (not_not.mpr (List.mem_map_of_mem he))

/-! ## The bytes of a changed document -/

theorem inRange_iff_forall : d.InRange ↔ ∀ f ∈ d.fields, f.value.InRange := by
  obtain ⟨fields⟩ := d
  show FieldsInRange fields ↔ ∀ f ∈ fields, f.value.InRange
  induction fields with
  | nil => exact iff_of_true trivial (List.forall_mem_nil _)
  | cons f fields ih =>
    obtain ⟨_, _⟩ := f
    rw [List.forall_mem_cons, ← ih, FieldsInRange]

theorem depth_le_iff_forall {k : Nat} : d.depth ≤ k + 1 ↔ ∀ f ∈ d.fields, f.value.depth ≤ k := by
  obtain ⟨fields⟩ := d
  exact Nat.add_le_add_iff_right.trans (fieldsDepth_le_iff fields)

/-- **The bytes hold what was put in.** Encode a document after any changes with values that are in
range and that leave room for one more level: looking a name up in the bytes, without decoding them,
finds the first of the values that the changes left under it. -/
theorem edits_read_back {d : Document} {edits : List Edit} {raw : RawDocument}
    (hrange : d.InRange) (hdepth : d.depth ≤ maxNestingDepth)
    (hedits : ∀ e ∈ edits, ∀ value ∈ e.value?, value.InRange ∧ value.depth < maxNestingDepth)
    (henc : (d.edit edits).encode = .ok raw) (name : String) :
    ∃ found : Option RawBsonRef, raw.get name = .ok found ∧
      Option.Rel (fun v b => v.toBson = .ok b) found (heldAfter edits name (d.held name)).head? := by
  have hvalues : ∀ f ∈ d.fields, f.value.InRange ∧ f.value.depth < maxNestingDepth := fun f hf =>
    ⟨d.inRange_iff_forall.mp hrange f hf,
      Nat.lt_succ_of_le (d.depth_le_iff_forall.mp (hdepth : d.depth ≤ (maxNestingDepth - 1) + 1) f hf)⟩
  have hkept := d.forall_edit edits hvalues hedits
  rw [← d.held_edit edits name, ← get_eq_head?]
  refine RawDocument.get_of_encode ?_ ?_ henc name
  · exact (inRange_iff_forall _).mpr fun f hf => (hkept f hf).1
  · exact (depth_le_iff_forall (d.edit edits)).mpr fun f hf => Nat.le_of_lt_succ (hkept f hf).2

theorem edits_read_back_replaced :
    ∃ raw, (Document.mk [⟨"b", .int32 7⟩, ⟨"b", .null⟩]).encode = .ok raw ∧
      ∃ found : Option RawBsonRef, raw.get "b" = .ok found ∧
        Option.Rel (fun v b => v.toBson = .ok b) found (some (.int32 7)) := by
  -- A field that is gone, and a name that is added twice and then replaced.
  let edits : List Edit :=
    [.add "a" .null, .add "b" (.bool true), .add "b" .null, .replace "b" (.int32 7), .remove "a"]
  have hdoc : new.edit edits = ⟨[⟨"b", .int32 7⟩, ⟨"b", .null⟩]⟩ := by
    show (remove ⟨[⟨"a", .null⟩, ⟨"b", .int32 7⟩, ⟨"b", .null⟩]⟩ "a").2 = _
    rw [remove_eq]
    rfl
  refine ⟨_, rfl, ?_⟩
  refine @edits_read_back new edits _ trivial (by decide) ?_ (by rw [hdoc]; rfl) "b"
  intro e he value hvalue
  simp only [edits, List.mem_cons, List.not_mem_nil, or_false] at he
  rcases he with rfl | rfl | rfl | rfl | rfl <;> cases hvalue <;> exact ⟨trivial, by decide⟩

end Document

end MongoWire
