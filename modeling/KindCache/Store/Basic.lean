import KindCache.Object

/-!
# The store of one kind

A `Store` holds the documents of one kind under their references, in ascending
order of the references, so that listing it needs no sorting and two stores
with the same content are equal.

* `Store.find?` — the view of a store: the document under a reference;
* `Store.insert`, `Store.erase` — setting and removing an entry, each with one
  equation through the view.
-/

namespace KindCache

/-- A document under its reference. -/
abbrev Entry := ObjectRef × Document

/-- The documents of one kind. -/
structure Store where
  /-- the entries -/
  entries : List Entry
  /-- in strictly ascending order of their references -/
  ascending : entries.Pairwise fun a b => a.1 < b.1

namespace Store

/-- The store without objects. -/
def empty : Store :=
  ⟨[], .nil⟩

instance : Inhabited Store :=
  ⟨empty⟩

/-- The number of objects. -/
def size (s : Store) : Nat :=
  s.entries.length

/-- The document under a reference. -/
def find? (s : Store) (r : ObjectRef) : Option Document :=
  s.entries.lookup r

/-! ## Setting an entry -/

/-- Put an entry at its place, instead of one with the same reference. -/
def place (r : ObjectRef) (d : Document) : List Entry → List Entry
  | [] => [(r, d)]
  | e :: rest =>
    if r < e.1 then (r, d) :: e :: rest
    else if r = e.1 then (r, d) :: rest
    else e :: place r d rest

/-- The references after placing an entry. -/
theorem mem_place {r : ObjectRef} {d : Document} {es : List Entry} {e : Entry}
    (h : e ∈ place r d es) : e = (r, d) ∨ e ∈ es := by
  induction es with
  | nil => exact .inl (List.mem_singleton.mp h)
  | cons x xs ih =>
    unfold place at h
    split at h
    · exact List.mem_cons.mp h
    · split at h
      · rcases List.mem_cons.mp h with rfl | h
        · exact .inl rfl
        · exact .inr (List.mem_cons_of_mem _ h)
      · rcases List.mem_cons.mp h with rfl | h
        · exact .inr List.mem_cons_self
        · rcases ih h with rfl | h
          · exact .inl rfl
          · exact .inr (List.mem_cons_of_mem _ h)

/-- Placing an entry keeps the order. -/
theorem place_ascending {r : ObjectRef} {d : Document} {es : List Entry}
    (h : es.Pairwise fun a b => a.1 < b.1) :
    (place r d es).Pairwise fun a b => a.1 < b.1 := by
  induction es with
  | nil => exact List.pairwise_singleton _ _
  | cons x xs ih =>
    obtain ⟨hx, hxs⟩ := List.pairwise_cons.mp h
    unfold place
    split
    · next hr =>
      refine List.pairwise_cons.mpr ⟨?_, h⟩
      intro e he
      rcases List.mem_cons.mp he with rfl | he
      · exact hr
      · exact ObjectRef.lt_trans hr (hx e he)
    · split
      · next hr =>
        refine List.pairwise_cons.mpr ⟨?_, hxs⟩
        intro e he
        exact hr ▸ hx e he
      · next hlt hne =>
        refine List.pairwise_cons.mpr ⟨?_, ih hxs⟩
        intro e he
        rcases mem_place he with rfl | he
        · exact (ObjectRef.lt_or_gt hne).resolve_left hlt
        · exact hx e he

/-- The store with a document under a reference, in place of any other there. -/
def insert (s : Store) (r : ObjectRef) (d : Document) : Store :=
  ⟨place r d s.entries, place_ascending s.ascending⟩

/-! ## Removing an entry -/

/-- The store without what is under a reference. -/
def erase (s : Store) (r : ObjectRef) : Store :=
  ⟨s.entries.filter fun e => e.1 ≠ r, s.ascending.filter _⟩

/-! ## Equations through the view -/

theorem lookup_place (r q : ObjectRef) (d : Document) (es : List Entry) :
    (place r d es).lookup q = if q = r then some d else es.lookup q := by
  induction es with
  | nil => rw [place, Table.lookup_cons]
  | cons x xs ih =>
    unfold place
    split
    · rw [Table.lookup_cons]
    · split
      · next hr => rw [Table.lookup_cons, Table.lookup_cons, hr]; split <;> rfl
      · next hr =>
        rw [Table.lookup_cons, Table.lookup_cons, ih]
        by_cases h : q = r
        · subst h; simp [hr]
        · simp [h]

@[simp]
theorem find?_empty (r : ObjectRef) : empty.find? r = none :=
  rfl

@[simp]
theorem find?_insert (s : Store) (r q : ObjectRef) (d : Document) :
    (s.insert r d).find? q = if q = r then some d else s.find? q :=
  lookup_place r q d s.entries

@[simp]
theorem find?_erase (s : Store) (r q : ObjectRef) :
    (s.erase r).find? q = if q = r then none else s.find? q :=
  Table.lookup_filter_ne q r s.entries

end Store

end KindCache
