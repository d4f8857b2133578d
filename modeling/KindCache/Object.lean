import KindCache.Document.Basic

/-!
# Objects and references

What the cache reads from the metadata of a document, and the reference under
which it keeps it:

* `Document.name?`, `Document.namespace?`, `Document.labels`, … — metadata;
* `ObjectRef` — a namespace, if any, and a name; references are ordered by
  namespace, those without one first, and then by name;
* `Document.ref?` — the reference of a document, unless it has no name.

An empty namespace counts as none wherever it may appear: in a document, in a
reference and in a request.
-/

namespace KindCache

/-- A namespace that is given and not empty. -/
def properNamespace (ns : Option String) : Option String :=
  ns.filter (· ≠ "")

/-- The place of an object within its kind. -/
structure ObjectRef where
  /-- the namespace; none for an object of the whole cluster -/
  ns : Option String
  /-- the name -/
  name : String
deriving DecidableEq, Repr

namespace ObjectRef

/-- The reference for a namespace, which may be empty, and a name. -/
def of (ns : Option String) (name : String) : ObjectRef :=
  ⟨properNamespace ns, name⟩

/-- The text form of a reference. -/
def text (r : ObjectRef) : String :=
  match r.ns with
  | some ns => ns ++ "/" ++ r.name
  | none => r.name

/-- Whether one namespace comes before another; none comes first. -/
def namespaceBefore : Option String → Option String → Prop
  | none, none => False
  | none, some _ => True
  | some _, none => False
  | some a, some b => a < b

instance (a b : Option String) : Decidable (namespaceBefore a b) :=
  match a, b with
  | none, none => isFalse id
  | none, some _ => isTrue trivial
  | some _, none => isFalse id
  | some a, some b => inferInstanceAs (Decidable (a < b))

/-- References are ordered by namespace and then by name. -/
instance : LT ObjectRef where
  lt a b := namespaceBefore a.ns b.ns ∨
    (a.ns = b.ns ∧ a.name < b.name)

instance (a b : ObjectRef) : Decidable (a < b) :=
  inferInstanceAs (Decidable (_ ∨ _))

/-- The references of a list in ascending order, each of them once. -/
def sorted (rs : List ObjectRef) : List ObjectRef :=
  rs.eraseDups.mergeSort fun a b => !(b < a)

/-! ### The order is strict and total -/

theorem namespaceBefore_irrefl (a : Option String) : ¬ namespaceBefore a a := by
  cases a with
  | none => exact id
  | some a => exact String.lt_irrefl a

theorem namespaceBefore_trans {a b c : Option String} (hab : namespaceBefore a b)
    (hbc : namespaceBefore b c) : namespaceBefore a c := by
  rcases a with _ | a <;> rcases b with _ | b <;> rcases c with _ | c <;>
    simp only [namespaceBefore] at hab hbc ⊢
  exact String.lt_trans hab hbc

theorem namespaceBefore_total {a b : Option String} (h : a ≠ b) :
    namespaceBefore a b ∨ namespaceBefore b a := by
  rcases a with _ | a <;> rcases b with _ | b
  · exact absurd rfl h
  · exact .inl trivial
  · exact .inr trivial
  · show a < b ∨ b < a
    have hne : a ≠ b := fun e => h (congrArg some e)
    grind

theorem lt_irrefl (a : ObjectRef) : ¬ a < a := by
  rintro (h | ⟨-, h⟩)
  · exact namespaceBefore_irrefl _ h
  · exact String.lt_irrefl _ h

theorem lt_trans {a b c : ObjectRef} (hab : a < b) (hbc : b < c) : a < c := by
  rcases hab with hab | ⟨hab, hab'⟩ <;> rcases hbc with hbc | ⟨hbc, hbc'⟩
  · exact .inl (namespaceBefore_trans hab hbc)
  · exact .inl (hbc ▸ hab)
  · exact .inl (hab ▸ hbc)
  · exact .inr ⟨hab.trans hbc, String.lt_trans hab' hbc'⟩

theorem lt_or_gt {a b : ObjectRef} (h : a ≠ b) : a < b ∨ b < a := by
  by_cases hns : a.ns = b.ns
  · have hname : a.name ≠ b.name := by
      intro e
      cases a
      cases b
      simp_all
    rcases (by grind : a.name < b.name ∨ b.name < a.name) with hl | hl
    · exact .inl (.inr ⟨hns, hl⟩)
    · exact .inr (.inr ⟨hns.symm, hl⟩)
  · rcases namespaceBefore_total hns with hl | hl
    · exact .inl (.inl hl)
    · exact .inr (.inl hl)

end ObjectRef

/-- Labels: pairs of a key and a value, with distinct keys. -/
abbrev Labels := List (String × String)

namespace Document

/-- A text field of the metadata. -/
def metaText? (field : String) (d : Document) : Option String := do
  (← (← d.get? "metadata").get? field).text?

/-- The name of an object. -/
def name? (d : Document) : Option String :=
  d.metaText? "name"

/-- The namespace of an object, unless it is empty. -/
def namespace? (d : Document) : Option String :=
  properNamespace (d.metaText? "namespace")

/-- The identifier that the cluster gave an object. -/
def uid? (d : Document) : Option String :=
  d.metaText? "uid"

/-- The version of an object at which it was last changed. -/
def resourceVersion? (d : Document) : Option String :=
  d.metaText? "resourceVersion"

/-- The labels of an object in stored order; a label whose value is no text
does not count. -/
def labels (d : Document) : Labels :=
  match (d.get? "metadata").bind (·.get? "labels") with
  | some (.object fields) => fields.filterMap fun f => f.2.text?.map (f.1, ·)
  | _ => []

/-- The reference of an object; none if it has no name. -/
def ref? (d : Document) : Option ObjectRef :=
  d.name?.map fun name => ⟨d.namespace?, name⟩

end Document

end KindCache
