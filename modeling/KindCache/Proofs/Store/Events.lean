import KindCache.Store.Change

/-!
# Events, step by step

What the proofs about a store use of its definitions.

* `Store.ext_find?` — a store is determined by its view;
* `upsert_added`, `remove_present`, `relistFrom_kept`, … — what one document does
  to a store, one equation for each case, and `relistFrom_induction` to go
  through a list with them;
* `Store.Every` — a condition on all that is stored; an event preserves it if its
  documents satisfy the condition (`Store.Every.apply`);
* `Store.Keyed` — every document is kept under its own reference, which every
  event preserves (`Store.Keyed.apply`);
* `Store.Parted` — the invariant of a relist: the old content that is left and
  the new content built so far have no reference in common.
-/

namespace KindCache

/-- The documents of an event. -/
def WatchEvent.documents : WatchEvent → List Document
  | .applied d => [d]
  | .deleted d => [d]
  | .relisted ds => ds

namespace Store

/-! ## A store is its view -/

/-- A reference before all those of a list is not looked up in it. -/
theorem lookup_eq_none_of_lt {r : ObjectRef} {es : List Entry}
    (h : ∀ e ∈ es, r < e.1) : es.lookup r = none := by
  induction es with
  | nil => rfl
  | cons e es ih =>
    have hne : r ≠ e.1 := by
      intro he
      have hlt := h e List.mem_cons_self
      rw [he] at hlt
      exact ObjectRef.lt_irrefl _ hlt
    rw [Table.lookup_cons, if_neg hne]
    exact ih fun x hx => h x (List.mem_cons_of_mem _ hx)

/-- In an ascending list every entry is the one that is looked up, since no reference comes
twice. -/
theorem lookup_of_mem {es : List Entry} (hes : es.Pairwise fun a b => a.1 < b.1)
    {e : Entry} (he : e ∈ es) : es.lookup e.1 = some e.2 := by
  refine Table.lookup_of_mem (List.pairwise_map.mpr (hes.imp fun hlt heq => ?_)) he
  rw [heq] at hlt
  exact ObjectRef.lt_irrefl _ hlt

/-- Ascending lists with one view are one list. The first entries have to be the same, for
each of them is looked up in the other list, and the rest goes by induction. -/
theorem eq_of_lookup {as bs : List Entry} (has : as.Pairwise fun a b => a.1 < b.1)
    (hbs : bs.Pairwise fun a b => a.1 < b.1) (h : ∀ r, as.lookup r = bs.lookup r) :
    as = bs := by
  induction as generalizing bs with
  | nil =>
    cases bs with
    | nil => rfl
    | cons b bs =>
      have hb := h b.1
      rw [lookup_of_mem hbs List.mem_cons_self] at hb
      cases hb
  | cons a as ih =>
    cases bs with
    | nil =>
      have ha := h a.1
      rw [lookup_of_mem has List.mem_cons_self] at ha
      cases ha
    | cons b bs =>
      obtain ⟨ha, has'⟩ := List.pairwise_cons.mp has
      obtain ⟨hb, hbs'⟩ := List.pairwise_cons.mp hbs
      have hmem : (a.1, a.2) ∈ b :: bs :=
        Table.mem_of_lookup ((h a.1).symm.trans (lookup_of_mem has List.mem_cons_self))
      have hmem' : (b.1, b.2) ∈ a :: as :=
        Table.mem_of_lookup ((h b.1).trans (lookup_of_mem hbs List.mem_cons_self))
      -- each head is in the other list, and both lists ascend
      have hab : a = b := by
        rcases List.mem_cons.mp hmem with hab | hmem
        · exact hab
        · rcases List.mem_cons.mp hmem' with hba | hmem'
          · exact hba.symm
          · exact absurd (ObjectRef.lt_trans (hb _ hmem) (ha _ hmem')) (ObjectRef.lt_irrefl _)
      subst hab
      congr 1
      refine ih has' hbs' fun r => ?_
      have hr := h r
      rw [Table.lookup_cons, Table.lookup_cons] at hr
      by_cases hra : r = a.1
      · subst hra
        rw [lookup_eq_none_of_lt ha, lookup_eq_none_of_lt hb]
      · rwa [if_neg hra, if_neg hra] at hr

/-- Stores with one view are one store. So equations between stores are shown reference by
reference. -/
theorem ext_find? {s t : Store} (h : ∀ r, s.find? r = t.find? r) : s = t := by
  have he : s.entries = t.entries := eq_of_lookup s.ascending t.ascending h
  cases s
  cases t
  simp_all

/-! ## Conditions on what is stored -/

/-- Every document satisfies a condition, together with its reference. -/
def Every (p : ObjectRef → Document → Prop) (s : Store) : Prop :=
  ∀ r d, s.find? r = some d → p r d

section

variable {p : ObjectRef → Document → Prop} {s : Store} {r : ObjectRef} {d : Document}

theorem every_empty : empty.Every p := by
  intro r d h
  rw [find?_empty] at h
  cases h

theorem Every.insert (hs : s.Every p) (hd : p r d) : (s.insert r d).Every p := by
  intro q e h
  rw [find?_insert] at h
  split at h
  · next hq =>
    obtain rfl := Option.some.inj h
    exact hq ▸ hd
  · exact hs q e h

theorem Every.erase (hs : s.Every p) (r : ObjectRef) : (s.erase r).Every p := by
  intro q e h
  rw [find?_erase] at h
  split at h
  · cases h
  · exact hs q e h

end

/-! ## Documents under their own references -/

/-- Every document is kept under its own reference. -/
def Keyed (s : Store) : Prop :=
  ∀ r d, s.find? r = some d → d.ref? = some r

theorem keyed_empty : empty.Keyed :=
  every_empty

theorem Keyed.insert {s : Store} (hs : s.Keyed) {r : ObjectRef} {d : Document}
    (hd : d.ref? = some r) : (s.insert r d).Keyed :=
  Every.insert hs hd

theorem Keyed.erase {s : Store} (hs : s.Keyed) (r : ObjectRef) : (s.erase r).Keyed :=
  Every.erase hs r

/-- The entries of a keyed store carry their references. -/
theorem Keyed.ref_of_mem {s : Store} (hs : s.Keyed) {e : Entry} (he : e ∈ s.entries) :
    e.2.ref? = some e.1 :=
  hs e.1 e.2 (lookup_of_mem s.ascending he)

/-! ## One document -/

section Equations

variable {s old new : Store} {d known : Document} {ds : List Document} {r : ObjectRef}

theorem upsert_nameless (hd : d.ref? = none) : s.upsert d = (s, []) := by
  simp only [upsert, hd]

theorem upsert_added (hd : d.ref? = some r) (hs : s.find? r = none) :
    s.upsert d = (s.insert r d, [.added d]) := by
  simp only [upsert, hd, hs]

theorem upsert_updated (hd : d.ref? = some r) (hs : s.find? r = some known) :
    s.upsert d = (s.insert r d, [.updated known d]) := by
  simp only [upsert, hd, hs]

theorem remove_nameless (hd : d.ref? = none) : s.remove d = (s, []) := by
  simp only [remove, hd]

theorem remove_absent (hd : d.ref? = some r) (hs : s.find? r = none) :
    s.remove d = (s, []) := by
  simp only [remove, hd, hs]

theorem remove_present (hd : d.ref? = some r) (hs : s.find? r = some known) :
    s.remove d = (s.erase r, [.deleted d]) := by
  simp only [remove, hd, hs]

/-- Put a change in front of those of a relist. -/
def announce (c : Change) (rest : Store × List Change) : Store × List Change :=
  (rest.1, c :: rest.2)

theorem relistFrom_nil :
    relistFrom old new [] = (new, old.entries.map fun e => .deleted e.2) :=
  rfl

theorem relistFrom_nameless (hd : d.ref? = none) :
    relistFrom old new (d :: ds) = relistFrom old new ds := by
  simp only [relistFrom, hd]

theorem relistFrom_added (hd : d.ref? = some r) (ho : old.find? r = none) :
    relistFrom old new (d :: ds) =
      announce (.added d) (relistFrom old (new.insert r d) ds) := by
  simp only [relistFrom, hd, ho, announce]

theorem relistFrom_kept (hd : d.ref? = some r) (ho : old.find? r = some known)
    (hs : known.same d = true) :
    relistFrom old new (d :: ds) = relistFrom (old.erase r) (new.insert r known) ds := by
  simp only [relistFrom, hd, ho, hs, if_true]

theorem relistFrom_updated (hd : d.ref? = some r) (ho : old.find? r = some known)
    (hs : known.same d = false) :
    relistFrom old new (d :: ds) =
      announce (.updated known d) (relistFrom (old.erase r) (new.insert r d) ds) := by
  simp only [relistFrom, hd, ho, hs, announce, Bool.false_eq_true, if_false]

/-- A way to prove something of every relist: one case for the end of the list and one for
each thing that a document can do. It follows the equations above and not the code, so that
proofs about relists do not unfold it. -/
theorem relistFrom_induction {motive : Store → Store → List Document → Prop}
    (nil : ∀ old new, motive old new [])
    (nameless : ∀ old new d ds, d.ref? = none → motive old new ds → motive old new (d :: ds))
    (added : ∀ old new d ds r, d.ref? = some r → old.find? r = none →
      motive old (new.insert r d) ds → motive old new (d :: ds))
    (kept : ∀ old new d ds r known, d.ref? = some r → old.find? r = some known →
      known.same d = true → motive (old.erase r) (new.insert r known) ds →
      motive old new (d :: ds))
    (updated : ∀ old new d ds r known, d.ref? = some r → old.find? r = some known →
      known.same d = false → motive (old.erase r) (new.insert r d) ds →
      motive old new (d :: ds)) :
    ∀ old new ds, motive old new ds := by
  intro old new ds
  induction ds generalizing old new with
  | nil => exact nil old new
  | cons d ds ih =>
    rcases hd : d.ref? with _ | r
    · exact nameless old new d ds hd (ih old new)
    · rcases ho : old.find? r with _ | known
      · exact added old new d ds r hd ho (ih old _)
      · rcases hs : known.same d with _ | _
        · exact updated old new d ds r known hd ho hs (ih _ _)
        · exact kept old new d ds r known hd ho hs (ih _ _)

end Equations

/-! ## The invariant of a relist -/

/-- No reference is both in the old content that is left and in the new one. -/
def Parted (old new : Store) : Prop :=
  ∀ r, old.find? r = none ∨ new.find? r = none

theorem parted_empty (s : Store) : Parted s empty :=
  fun r => .inr (find?_empty r)

/-- A reference that the old content lacks may be added to the new one. -/
theorem Parted.insert {old new : Store} (h : Parted old new) {r : ObjectRef} {d : Document}
    (ho : old.find? r = none) : Parted old (new.insert r d) := by
  intro q
  rw [find?_insert]
  by_cases hq : q = r
  · exact .inl (hq ▸ ho)
  · rw [if_neg hq]
    exact h q

/-- A reference moves from the old content to the new one, and is in one of them all the
time. -/
theorem Parted.move {old new : Store} (h : Parted old new) (r : ObjectRef) (d : Document) :
    Parted (old.erase r) (new.insert r d) := by
  intro q
  rw [find?_erase, find?_insert]
  by_cases hq : q = r
  · exact .inl (if_pos hq)
  · rw [if_neg hq, if_neg hq]
    exact h q

/-! ## Events keep conditions -/

section

variable {p : ObjectRef → Document → Prop} {s old new : Store} {d : Document}
  {ds : List Document}

theorem Every.upsert (hs : s.Every p) (hd : ∀ r, d.ref? = some r → p r d) :
    (s.upsert d).1.Every p := by
  rcases hq : d.ref? with _ | q
  · rw [upsert_nameless hq]
    exact hs
  · rcases hr : s.find? q with _ | known
    · rw [upsert_added hq hr]
      exact hs.insert (hd q hq)
    · rw [upsert_updated hq hr]
      exact hs.insert (hd q hq)

theorem Every.remove (hs : s.Every p) (d : Document) : (s.remove d).1.Every p := by
  rcases hq : d.ref? with _ | q
  · rw [remove_nameless hq]
    exact hs
  · rcases hr : s.find? q with _ | known
    · rw [remove_absent hq hr]
      exact hs
    · rw [remove_present hq hr]
      exact hs.erase q

/-- What a relist leaves in the store comes from the old content, from the new one or from
the list. -/
theorem Every.relistFrom (ho : old.Every p) (hn : new.Every p)
    (hds : ∀ d ∈ ds, ∀ r, d.ref? = some r → p r d) : (relistFrom old new ds).1.Every p := by
  induction old, new, ds using relistFrom_induction with
  | nil old new => exact hn
  | nameless old new d ds hd ih =>
    obtain ⟨-, hds⟩ := List.forall_mem_cons.mp hds
    rw [relistFrom_nameless hd]
    exact ih ho hn hds
  | added old new d ds r hd hr ih =>
    obtain ⟨hp, hds⟩ := List.forall_mem_cons.mp hds
    rw [relistFrom_added hd hr]
    exact ih ho (hn.insert (hp r hd)) hds
  | kept old new d ds r known hd hr hs ih =>
    obtain ⟨-, hds⟩ := List.forall_mem_cons.mp hds
    rw [relistFrom_kept hd hr hs]
    exact ih (ho.erase r) (hn.insert (ho r known hr)) hds
  | updated old new d ds r known hd hr hs ih =>
    obtain ⟨hp, hds⟩ := List.forall_mem_cons.mp hds
    rw [relistFrom_updated hd hr hs]
    exact ih (ho.erase r) (hn.insert (hp r hd)) hds

/-- What is stored after an event was there before, or is a document of the event under its
own reference. -/
theorem Every.apply {e : WatchEvent} (hs : s.Every p)
    (he : ∀ d ∈ e.documents, ∀ r, d.ref? = some r → p r d) : (s.apply e).1.Every p := by
  cases e with
  | applied d => exact hs.upsert (he d List.mem_cons_self)
  | deleted d => exact hs.remove d
  | relisted ds => exact hs.relistFrom every_empty he

end

/-- In particular documents are kept under their own references. -/
theorem Keyed.apply {s : Store} (hs : s.Keyed) (e : WatchEvent) : (s.apply e).1.Keyed :=
  Every.apply hs fun _ _ _ hr => hr

end Store

end KindCache
