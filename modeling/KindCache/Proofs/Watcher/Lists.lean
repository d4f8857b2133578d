import Mathlib.Data.List.Dedup
import Mathlib.Data.List.Sort
import KindCache.Proofs.Watcher.History
import KindCache.Watcher.Read

/-!
# Lists of objects

All lists of a watcher are cut out of one store. This says how they fit together.

* `Store.namespaces` — the namespaces of a store, in ascending order;
* `filter_split` — entries in order are those without a namespace and then those of each
  namespace in turn;
* `Watcher.listFrom` — a list made from the entries in any order, which is the same list
  (`listFrom_of_perm`);
* `Watcher.Arranged`, `lists_arranged` — what the lists of any reachable watcher have to
  do with each other.
-/

namespace KindCache

namespace ObjectRef

/-- What does not come before something else does not come before what is behind that.
Sorting asks for the order in this form. -/
theorem not_lt_trans {a b c : ObjectRef} (hab : ¬ b < a) (hbc : ¬ c < b) : ¬ c < a := by
  intro hca
  by_cases heq : a = b
  · exact hbc (heq ▸ hca)
  · exact hbc (lt_trans hca ((lt_or_gt heq).resolve_right hab))

/-- Of two references without a namespace, the names decide. -/
theorem name_lt {a b : ObjectRef} (h : a < b) (hns : a.ns = b.ns) : a.name < b.name := by
  rcases h with hlt | ⟨-, hlt⟩
  · rw [hns] at hlt
    exact absurd hlt (namespaceBefore_irrefl _)
  · exact hlt

end ObjectRef

/-! ## Entries in order -/

/-- One entry comes before another. -/
def Entry.Precedes (a b : Entry) : Prop :=
  a.1 < b.1

instance : Std.Irrefl Entry.Precedes :=
  ⟨fun a => ObjectRef.lt_irrefl a.1⟩

instance : Std.Antisymm Entry.Precedes :=
  ⟨fun _ _ h h' => absurd (ObjectRef.lt_trans h h') (ObjectRef.lt_irrefl _)⟩

/-- Sorting puts entries in order. -/
theorem pairwise_sorted (es : List Entry) :
    (es.mergeSort fun a b => !(b.1 < a.1)).Pairwise fun a b => ¬ b.1 < a.1 := by
  have hsorted : (es.mergeSort fun a b => !(b.1 < a.1)).Pairwise
      fun a b => (!(b.1 < a.1)) = true := by
    refine List.pairwise_mergeSort (fun a b c hab hbc => ?_) (fun a b => ?_) es
    · simp only [Bool.not_eq_true', decide_eq_false_iff_not] at hab hbc ⊢
      exact ObjectRef.not_lt_trans hab hbc
    · simp only [Bool.or_eq_true, Bool.not_eq_true', decide_eq_false_iff_not]
      by_contra! hboth
      exact ObjectRef.lt_irrefl _ (ObjectRef.lt_trans hboth.1 hboth.2)
  exact hsorted.imp fun h => by simpa using h

section

variable {es : List Entry} {nss : List String}

/-- The entries of one namespace after another ascend, because a reference is compared by
its namespace first. -/
theorem ascending_flatMap (hes : es.Pairwise Entry.Precedes) (hnss : nss.Pairwise (· < ·))
    (p : Entry → Bool) :
    (nss.flatMap fun ns => es.filter fun e => e.1.ns = some ns && p e).Pairwise
      Entry.Precedes := by
  refine List.pairwise_flatMap.mpr ⟨fun ns _ => hes.filter _, hnss.imp fun hlt a ha b hb => ?_⟩
  obtain ⟨hns, -⟩ := Bool.and_eq_true_iff.mp (List.mem_filter.mp ha).2
  obtain ⟨hns', -⟩ := Bool.and_eq_true_iff.mp (List.mem_filter.mp hb).2
  refine .inl ?_
  rw [of_decide_eq_true hns, of_decide_eq_true hns']
  exact hlt

/-- Entries in order are those without a namespace and then those of each namespace in turn,
also when only some of them are looked at. Both sides ascend and have the same entries, so
they are the same list. -/
theorem filter_split (hes : es.Pairwise Entry.Precedes) (hnss : nss.Pairwise (· < ·))
    (hall : ∀ e ∈ es, ∀ ns, e.1.ns = some ns → ns ∈ nss) (p : Entry → Bool) :
    es.filter p = (es.filter fun e => e.1.ns = none && p e) ++
      nss.flatMap fun ns => es.filter fun e => e.1.ns = some ns && p e := by
  -- both sides ascend, so it is enough that they have the same members
  refine (hes.filter _).eq_of_mem_iff (List.pairwise_append.mpr
    ⟨hes.filter _, ascending_flatMap hes hnss p, fun a ha b hb => ?_⟩) fun e => ?_
  · obtain ⟨ns, -, hb⟩ := List.mem_flatMap.mp hb
    obtain ⟨hnone, -⟩ := Bool.and_eq_true_iff.mp (List.mem_filter.mp ha).2
    obtain ⟨hns, -⟩ := Bool.and_eq_true_iff.mp (List.mem_filter.mp hb).2
    refine .inl ?_
    rw [of_decide_eq_true hnone, of_decide_eq_true hns]
    trivial
  · simp only [List.mem_append, List.mem_flatMap, List.mem_filter, Bool.and_eq_true,
      decide_eq_true_eq]
    constructor
    · rintro ⟨he, hp⟩
      rcases hns : e.1.ns with _ | ns
      · exact .inl ⟨he, rfl, hp⟩
      · exact .inr ⟨ns, hall e he ns hns, he, rfl, hp⟩
    · rintro (⟨he, -, hp⟩ | ⟨ns, -, he, -, hp⟩) <;> exact ⟨he, hp⟩

end

namespace Store

/-- The namespaces of the objects in a store, in ascending order. -/
def namespaces (s : Store) : List String :=
  (s.entries.filterMap (·.1.ns)).dedup

variable {s : Store}

theorem mem_namespaces {ns : String} :
    ns ∈ s.namespaces ↔ ∃ e ∈ s.entries, e.1.ns = some ns := by
  rw [namespaces, List.mem_dedup, List.mem_filterMap]

/-- The namespaces come in the order of the entries, and equal ones stand side by side. -/
theorem namespaces_ascending (s : Store) : s.namespaces.Pairwise (· < ·) := by
  have hweak : (s.entries.filterMap (·.1.ns)).Pairwise fun a b => a < b ∨ a = b := by
    refine List.pairwise_filterMap.mpr (s.ascending.imp fun hlt a ha b hb => ?_)
    rcases hlt with hlt | ⟨heq, -⟩
    · rw [ha, hb] at hlt
      exact .inl hlt
    · rw [ha, hb] at heq
      exact .inr (Option.some.inj heq)
  exact (hweak.sublist (List.dedup_sublist _)).imp₂ (fun _ _ h hne => h.resolve_right hne)
    (List.nodup_dedup _)

/-- The namespace of an entry is that of its document. -/
theorem Keyed.namespace_of_mem (hs : s.Keyed) {e : Entry} (he : e ∈ s.entries) :
    e.2.namespace? = e.1.ns := by
  obtain ⟨name, -, hr⟩ := Option.map_eq_some_iff.mp (hs.ref_of_mem he)
  rw [← hr]

theorem Keyed.name_of_mem (hs : s.Keyed) {e : Entry} (he : e ∈ s.entries) :
    e.2.name? = some e.1.name := by
  obtain ⟨name, hname, hr⟩ := Option.map_eq_some_iff.mp (hs.ref_of_mem he)
  rw [← hr, hname]

/-- No entry has an empty namespace: in a document it counts as none. -/
theorem Keyed.namespace_ne (hs : s.Keyed) {ns : String} (h : ns ∈ s.namespaces) : ns ≠ "" := by
  obtain ⟨e, he, hns⟩ := mem_namespaces.mp h
  rw [← hs.namespace_of_mem he, Document.namespace?, properNamespace,
    Option.filter_eq_some_iff] at hns
  simpa using hns.2

end Store

namespace Watcher

/-! ## What a list takes -/

/-- Whether a list takes an entry. -/
def picks (w : Watcher) (ns : Option String) (selector : Option Selector) (e : Entry) : Bool :=
  within (w.scope ns) e.1 && Selector.admits selector e.2

/-- The list that is made from entries in any order: some are taken, put in order, and
told without their references. -/
def listFrom (w : Watcher) (entries : List Entry) (ns : Option String)
    (selector : Option Selector) : List Document :=
  ((entries.filter (w.picks ns selector)).mergeSort fun a b => !(b.1 < a.1)).map (·.2)

/-- References are those of documents, in strictly ascending order. -/
def Ascending (ds : List Document) : Prop :=
  ∃ rs : List ObjectRef, ds.map Document.ref? = rs.map some ∧ rs.Pairwise (· < ·)

/-- The objects without a namespace that a selector admits. -/
def bare (w : Watcher) (selector : Option Selector) : List Document :=
  (w.list none none).filter fun d => d.namespace? = none && Selector.admits selector d

section

variable {w : Watcher} {ns : Option String} {selector : Option Selector}

/-- The entries of a store are in order already, so a list is a selection of them. -/
theorem list_eq (w : Watcher) (ns : Option String) (selector : Option Selector) :
    w.list ns selector = (w.store.entries.filter (w.picks ns selector)).map (·.2) :=
  rfl

/-- What is in a list, without regard to order. -/
theorem mem_list_iff {d : Document} : d ∈ w.list ns selector ↔
    ∃ r, w.store.find? r = some d ∧ within (w.scope ns) r = true ∧
      Selector.admits selector d = true := by
  rw [list_eq, List.mem_map]
  constructor
  · rintro ⟨e, he, rfl⟩
    obtain ⟨he, hpicks⟩ := List.mem_filter.mp he
    obtain ⟨hwithin, hadmits⟩ := Bool.and_eq_true_iff.mp hpicks
    exact ⟨e.1, Store.lookup_of_mem w.store.ascending he, hwithin, hadmits⟩
  · rintro ⟨r, hr, hwithin, hadmits⟩
    refine ⟨(r, d), List.mem_filter.mpr ⟨Table.mem_of_lookup hr, ?_⟩, rfl⟩
    exact Bool.and_eq_true_iff.mpr ⟨hwithin, hadmits⟩

/-- The order in which entries are looked at does not matter. They are sorted before they
are told, and no two of them have the same reference. -/
theorem listFrom_of_perm {entries : List Entry} (h : entries.Perm w.store.entries) :
    w.listFrom entries ns selector = w.list ns selector := by
  have hperm := (List.mergeSort_perm (entries.filter (w.picks ns selector))
    fun a b => !(b.1 < a.1)).trans (h.filter _)
  have hascending : (w.store.entries.filter (w.picks ns selector)).Pairwise
      fun a b => ¬ b.1 < a.1 :=
    (w.store.ascending.filter _).imp fun hlt hgt =>
      ObjectRef.lt_irrefl _ (ObjectRef.lt_trans hlt hgt)
  rw [listFrom, list_eq]
  congr 1
  refine hperm.eq_of_pairwise (fun a b ha hb hab hba => ?_) (pairwise_sorted _) hascending
  -- entries of which none comes before the other have one reference
  have heq : a.1 = b.1 := by
    by_contra hne
    exact (ObjectRef.lt_or_gt hne).elim hba hab
  have hfound := Store.lookup_of_mem w.store.ascending
    (List.mem_of_mem_filter (hperm.mem_iff.mp ha))
  rw [heq, Store.lookup_of_mem w.store.ascending (List.mem_of_mem_filter hb)] at hfound
  exact Prod.ext heq (Option.some.inj hfound).symm

/-- Every list is in the order of references, which are taken from the documents. -/
theorem list_ascending (hw : w.store.Keyed) : Ascending (w.list ns selector) := by
  refine ⟨(w.store.entries.filter (w.picks ns selector)).map (·.1), ?_,
    List.pairwise_map.mpr (w.store.ascending.filter _)⟩
  rw [list_eq, List.map_map, List.map_map]
  exact List.map_congr_left fun e he => hw.ref_of_mem (List.mem_of_mem_filter he)

/-- A selector thins a list out: it is asked of each object by itself. -/
theorem list_filter : w.list ns selector = (w.list ns none).filter (Selector.admits selector) := by
  rw [list_eq, list_eq, List.filter_map, List.filter_filter]
  congr 1
  refine List.filter_congr fun e _ => ?_
  simp [picks, Selector.admits, Bool.and_comm]

end

/-! ## Namespaces -/

section

variable {w : Watcher} {selector : Option Selector}

theorem picks_none {e : Entry} : w.picks none selector e = Selector.admits selector e.2 := by
  have hscope : w.scope none = none := by
    rw [scope]
    split <;> rfl
  rw [picks, hscope]
  rfl

/-- A request for a namespace takes the entries of this namespace. An empty one would take
them all. -/
theorem picks_some (hw : w.resource.namespaced = true) {ns : String} (hns : ns ≠ "") {e : Entry} :
    w.picks (some ns) selector e = (decide (e.1.ns = some ns) && Selector.admits selector e.2) := by
  have hscope : w.scope (some ns) = some ns := by
    rw [scope, if_pos hw]
    simp [properNamespace, hns]
  rw [picks, hscope]
  rfl

/-- The objects without a namespace in terms of entries. -/
theorem bare_eq (hw : w.store.Keyed) : w.bare selector =
    (w.store.entries.filter fun e => e.1.ns = none && Selector.admits selector e.2).map (·.2) := by
  rw [bare, list_eq, List.filter_map, List.filter_filter]
  congr 1
  refine List.filter_congr fun e he => ?_
  simp only [Function.comp_apply, hw.namespace_of_mem he, picks_none]
  exact Bool.and_true _

/-- **The list of all objects** is that of the objects without a namespace, and then those
of the namespaces in turn. -/
theorem list_union (hw : w.store.Keyed) (hns : w.resource.namespaced = true) :
    w.list none selector = w.bare selector ++
      w.store.namespaces.flatMap fun ns => w.list (some ns) selector := by
  have hsplit := filter_split w.store.ascending w.store.namespaces_ascending
    (fun e he ns hns => Store.mem_namespaces.mpr ⟨e, he, hns⟩) fun e => Selector.admits selector e.2
  have hall : w.store.entries.filter (w.picks none selector) =
      w.store.entries.filter fun e => Selector.admits selector e.2 :=
    List.filter_congr fun e _ => picks_none
  rw [list_eq, hall, hsplit, List.map_append, List.map_flatMap, bare_eq hw]
  congr 1
  refine List.flatMap_congr fun ns hmem => ?_
  rw [list_eq]
  congr 1
  exact List.filter_congr fun e _ => (picks_some hns (hw.namespace_ne hmem)).symm

/-- Objects without a namespace are in the order of their names. -/
theorem bare_ascending (hw : w.store.Keyed) : ∃ names : List String,
    (w.bare selector).map Document.name? = names.map some ∧ names.Pairwise (· < ·) := by
  refine ⟨(w.store.entries.filter fun e =>
    e.1.ns = none && Selector.admits selector e.2).map (·.1.name), ?_, List.pairwise_map.mpr ?_⟩
  · rw [bare_eq hw, List.map_map, List.map_map]
    exact List.map_congr_left fun e he => hw.name_of_mem (List.mem_of_mem_filter he)
  · refine (w.store.ascending.filter _).imp_of_mem fun ha hb hlt => ObjectRef.name_lt hlt ?_
    obtain ⟨hns, -⟩ := Bool.and_eq_true_iff.mp (List.mem_filter.mp ha).2
    obtain ⟨hns', -⟩ := Bool.and_eq_true_iff.mp (List.mem_filter.mp hb).2
    rw [of_decide_eq_true hns, of_decide_eq_true hns']

/-- The namespaces of the store are those of the objects that are listed, so that a reader
can find them. -/
theorem mem_namespaces_iff (hw : w.store.Keyed) {ns : String} :
    ns ∈ w.store.namespaces ↔ ∃ d ∈ w.list none none, d.namespace? = some ns := by
  have hall : w.list none none = w.store.entries.map (·.2) := by
    rw [list_eq, List.filter_eq_self.mpr fun e _ => picks_none]
  rw [Store.mem_namespaces, hall]
  constructor
  · rintro ⟨e, he, hns⟩
    exact ⟨e.2, List.mem_map_of_mem he, (hw.namespace_of_mem he).trans hns⟩
  · rintro ⟨d, hd, hns⟩
    obtain ⟨e, he, rfl⟩ := List.mem_map.mp hd
    exact ⟨e, he, (hw.namespace_of_mem he).symm.trans hns⟩

/-- Lists with the same scope are the same. This is all that a kind without namespaces
needs. -/
theorem list_congr {ns ns' : Option String} (h : w.scope ns = w.scope ns') :
    w.list ns selector = w.list ns' selector := by
  rw [list, list, h]

end

/-! ## How lists fit together -/

/-- What the lists of a watcher for one selector have to do with each other. -/
structure Arranged (w : Watcher) (selector : Option Selector) : Prop where
  /-- the list of all objects is that of the objects without a namespace, and then those of
  the namespaces in turn -/
  union : w.resource.namespaced = true → w.list none selector =
    w.bare selector ++ w.store.namespaces.flatMap fun ns => w.list (some ns) selector
  /-- the objects without a namespace are in the order of their names -/
  bare : ∃ names : List String,
    (w.bare selector).map Document.name? = names.map some ∧ names.Pairwise (· < ·)
  /-- the namespaces are in their order -/
  inTurn : w.store.namespaces.Pairwise (· < ·)
  /-- the namespaces are those of the objects -/
  namespaces : ∀ ns, ns ∈ w.store.namespaces ↔ ∃ d ∈ w.list none none, d.namespace? = some ns
  /-- the empty namespace stands for all -/
  everywhere : w.list (some "") selector = w.list none selector
  /-- the selector takes objects out of a list, and does nothing else -/
  thinned : ∀ ns, w.list ns selector = (w.list ns none).filter (Selector.admits selector)
  /-- every list is in the order of the references, and holds none twice -/
  ascending : ∀ ns, Ascending (w.list ns selector)
  /-- it does not matter in which order the store is gone through -/
  anyOrder : ∀ ns (entries : List Entry), entries.Perm w.store.entries →
    w.listFrom entries ns selector = w.list ns selector
  /-- a kind without namespaces has one list -/
  single : w.resource.namespaced = false → ∀ ns, w.list ns selector = w.list none selector

/-- In every state of a watcher, its lists are in order and do not depend on how the store
is gone through; that of all objects is put together from those of the namespaces. Of the
run that has led to the state only `Store.Keyed` is used. -/
theorem lists_arranged {w : Watcher} (hw : w.Reachable) (selector : Option Selector) :
    w.Arranged selector where
  union := list_union hw.keyed
  bare := bare_ascending hw.keyed
  inTurn := w.store.namespaces_ascending
  namespaces _ := mem_namespaces_iff hw.keyed
  everywhere := list_congr (by rw [scope, scope]; rfl)
  thinned _ := list_filter
  ascending _ := list_ascending hw.keyed
  anyOrder _ _ h := listFrom_of_perm h
  single h ns := list_congr (by rw [scope, scope, h]; rfl)

/-- An object with a namespace, which may be empty, and a label. -/
def labelled (ns name app : String) : Document :=
  .object [("metadata", .object [("namespace", .text ns), ("name", .text name),
    ("labels", .object [("app", .text app)])])]

/-- Pods of two namespaces, and some without a namespace, in no order. -/
def scattered : List Document :=
  [labelled "b" "x" "web", labelled "" "z" "web", labelled "a" "y" "db", labelled "b" "w" "db",
    labelled "" "y" "web", labelled "a" "x" "web"]

/-- The selector of the objects with one label. -/
def web : Option Selector :=
  some ⟨[.equal "app" "web"]⟩

/-- A watcher of these pods. -/
def scatteredPods : Watcher :=
  (starting pods 1 true [.event (.relisted scattered)]).run [.batch 1]

theorem reachable_scatteredPods : scatteredPods.Reachable :=
  ⟨pods, 1, true, _, _, rfl⟩

theorem lists_arranged_scattered :
    scatteredPods.list none web = [labelled "" "y" "web", labelled "" "z" "web"] ++
        (scatteredPods.list (some "a") web ++ scatteredPods.list (some "b") web) ∧
      scatteredPods.list (some "b") web = [labelled "b" "x" "web"] ∧
      scatteredPods.listFrom scatteredPods.store.entries.reverse none web =
        scatteredPods.list none web := by
  have harranged := lists_arranged reachable_scatteredPods web
  refine ⟨harranged.union rfl, rfl, harranged.anyOrder _ _ ?_⟩
  exact List.reverse_perm _

end Watcher

end KindCache
