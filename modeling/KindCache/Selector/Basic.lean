import KindCache.Object

/-!
# Label selectors

* `ValueSet` — a finite set of values, kept in ascending order, so that equal
  sets are equal values;
* `Requirement` — one condition on the labels of an object;
* `Selector` — a list of requirements that must all hold; the empty list
  selects every object.

A label that is absent satisfies the negative requirements and none of the
positive ones.
-/

namespace KindCache

/-! ## Sets of values -/

/-- A finite set of label values. -/
structure ValueSet where
  /-- the members -/
  values : List String
  /-- in strictly ascending order -/
  ascending : values.Pairwise (· < ·)
deriving DecidableEq

namespace ValueSet

/-- The empty set. -/
def empty : ValueSet :=
  ⟨[], .nil⟩

/-- Put a value at its place in an ascending list, unless it is there. -/
def place (v : String) : List String → List String
  | [] => [v]
  | w :: ws =>
    if v < w then v :: w :: ws
    else if v = w then w :: ws
    else w :: place v ws

/-- Placing a value adds it and nothing else. -/
theorem mem_place {v w : String} {ws : List String} :
    w ∈ place v ws ↔ w = v ∨ w ∈ ws := by
  induction ws with
  | nil => simp [place]
  | cons u us ih =>
    unfold place
    split
    · simp
    · split
      · next h => subst h; simp
      · simp only [List.mem_cons, ih, or_left_comm]

/-- Placing a value keeps the list ascending. -/
theorem place_ascending {v : String} {ws : List String} (h : ws.Pairwise (· < ·)) :
    (place v ws).Pairwise (· < ·) := by
  induction ws with
  | nil => exact List.pairwise_singleton _ _
  | cons w ws ih =>
    obtain ⟨hw, hws⟩ := List.pairwise_cons.mp h
    unfold place
    split
    · next hv =>
      refine List.pairwise_cons.mpr ⟨?_, h⟩
      intro u hu
      rcases List.mem_cons.mp hu with rfl | hu
      · exact hv
      · exact String.lt_trans hv (hw u hu)
    · split
      · exact h
      · next hv hne =>
        refine List.pairwise_cons.mpr ⟨?_, ih hws⟩
        intro u hu
        rcases mem_place.mp hu with rfl | hu
        · grind
        · exact hw u hu

/-- The set with one more member. -/
def insert (s : ValueSet) (v : String) : ValueSet :=
  ⟨place v s.values, place_ascending s.ascending⟩

/-- The set of the members of a list. -/
def ofList (vs : List String) : ValueSet :=
  vs.foldl insert empty

/-- Whether a value belongs to the set. -/
def contains (s : ValueSet) (v : String) : Bool :=
  s.values.contains v

end ValueSet

/-! ## Requirements -/

/-- A condition on the labels of an object. -/
inductive Requirement where
  /-- the label has one of the values -/
  | oneOf (key : String) (values : ValueSet)
  /-- the label has none of the values, or is absent -/
  | noneOf (key : String) (values : ValueSet)
  /-- the label has the value -/
  | equal (key value : String)
  /-- the label has another value, or is absent -/
  | notEqual (key value : String)
  /-- the label is there -/
  | present (key : String)
  /-- the label is not there -/
  | absent (key : String)
deriving DecidableEq

namespace Requirement

/-- Whether labels satisfy a requirement. -/
def holds (r : Requirement) (labels : Labels) : Bool :=
  match r with
  | .oneOf key values =>
    match labels.lookup key with
    | some v => values.contains v
    | none => false
  | .noneOf key values =>
    match labels.lookup key with
    | some v => !values.contains v
    | none => true
  | .equal key value => labels.lookup key == some value
  | .notEqual key value => labels.lookup key != some value
  | .present key => (labels.lookup key).isSome
  | .absent key => (labels.lookup key).isNone

end Requirement

/-- A conjunction of requirements. -/
structure Selector where
  /-- the requirements, in the order in which they were written -/
  requirements : List Requirement
deriving DecidableEq

namespace Selector

/-- The selector of all objects. -/
def everything : Selector :=
  ⟨[]⟩

/-- Whether a selector makes no requirement. -/
def selectsAll (s : Selector) : Bool :=
  s.requirements.isEmpty

/-- The selector that asks for each of the given labels. The labels are not
checked. -/
def ofLabels (labels : Labels) : Selector :=
  ⟨labels.map fun (key, value) => .equal key value⟩

/-- Whether labels satisfy every requirement. -/
def selects (s : Selector) (labels : Labels) : Bool :=
  s.requirements.all (·.holds labels)

/-- Whether an object passes a selector, if there is one. -/
def admits (s : Option Selector) (d : Document) : Bool :=
  match s with
  | some s => s.selects d.labels
  | none => true

end Selector

end KindCache
