import KindCache.Proofs.Store.Course
import KindCache.Proofs.Store.LastWriter

/-!
# What a relist tells

A relist should tell the net difference between the store before and after it. What it
does tell about a reference depends on how often the list mentions the reference, because
only the first mention is compared with the store.

* `net` — the net difference of what there is under a reference;
* `told`, `told_relistFrom` — what is told about the documents of a list with one reference,
  also in the middle of the list;
* `Reported`, `relist_reported` — the net difference is told about a reference exactly if
  the list mentions it at most once, and deletions come last;
* `repeated_mention` — a list that mentions a reference twice, and tells it as new.
-/

namespace KindCache

/-- Whether a change is the loss of an object. -/
def Change.isDeletion : Change → Bool
  | .deleted _ => true
  | _ => false

namespace Store

/-! ## One reference -/

/-- The net difference of what there is under a reference before and after. Equal documents
make no difference. -/
def net : Option Document → Option Document → List Change
  | none, none => []
  | none, some d => [.added d]
  | some d, none => [.deleted d]
  | some old, some new => if old.same new then [] else [.updated old new]

/-- What a relist tells about a reference. The first document of the list with this reference
is compared with the one that is known, and all further ones are told as new. -/
def told : Option Document → List Document → List Change
  | none, ds => ds.map .added
  | some known, [] => [.deleted known]
  | some known, d :: ds => (if known.same d then [] else [.updated known d]) ++ ds.map .added

section

variable {r : ObjectRef} {ds : List Document} {before : Option Document}

/-- A list has no document for a reference exactly if it does not mention it. -/
theorem listings_eq_nil_iff : listings r ds = [] ↔ r ∉ mentioned ds := by
  simp [listings, mentioned, List.filter_eq_nil_iff]

/-- What is told is the net difference exactly if there is at most one document. A second
one is told as new, while the net difference has no addition for an object that was there,
and one for an object that was not. -/
theorem told_eq_net_iff (hbefore : ∀ d, before = some d → d.same d = true) :
    told before ds = net before (settled before ds) ↔ ds.length ≤ 1 := by
  rcases ds with _ | ⟨d, _ | ⟨e, ds⟩⟩
  · -- nothing is listed, so what was there is lost
    rcases before with _ | known <;> exact iff_of_true rfl (Nat.zero_le _)
  · refine iff_of_true ?_ (Nat.le_refl _)
    rcases before with _ | known
    · rfl
    · rcases hsame : known.same d with _ | _
      · simp [told, settled, net, hsame]
      · simp [told, settled, net, hsame, hbefore known rfl]
  · -- a second document is told as new, though there was one before
    refine iff_of_false (fun heq => ?_) (by simp)
    obtain ⟨last, hlast⟩ : ∃ last, settled before (d :: e :: ds) = some last := by
      rw [← Option.ne_none_iff_exists', ne_eq, settled_eq_none_iff]
      exact List.cons_ne_nil _ _
    rw [hlast] at heq
    rcases before with _ | known
    · exact absurd (congrArg List.length heq) (by simp [told, net])
    · have hnew : Change.added e ∈ net (some known) (some last) := by
        rw [← heq]
        exact List.mem_append_right _ List.mem_cons_self
      rw [net] at hnew
      split at hnew <;> simp at hnew

end

/-! ## Through the list -/

section

variable {old new : Store} {ds : List Document} {r : ObjectRef}

/-- **What is told about a reference** depends on what is left of the old content there, and
on the documents that are still to come. The new content does not matter: this is why
further mentions are told as new. -/
theorem told_relistFrom (hk : old.Keyed) (r : ObjectRef) (ds : List Document) :
    (relistFrom old new ds).2.filter (·.concerns r) = told (old.find? r) (listings r ds) := by
  induction old, new, ds using relistFrom_induction with
  | nil old new =>
    rw [relistFrom_nil,
      filter_concerns_map .deleted (fun _ => rfl) old.ascending (fun e he => hk.ref_of_mem he) r]
    show ((old.find? r).map Change.deleted).toList = _
    cases old.find? r <;> rfl
  | nameless old new d ds hd ih =>
    rw [relistFrom_nameless hd, listings_nameless hd]
    exact ih hk
  | added old new d ds q hd ho ih =>
    rw [relistFrom_added hd ho, announce]
    by_cases hr : r = q
    · subst hr
      rw [filter_concerns_self (c := .added d) hd, listings_self hd, ih hk, ho]
      rfl
    · rw [filter_concerns_other (c := .added d) hd hr, listings_other hd hr, ih hk]
  | kept old new d ds q known hd ho hs ih =>
    rw [relistFrom_kept hd ho hs, ih (hk.erase q), find?_erase]
    by_cases hr : r = q
    · subst hr
      rw [if_pos rfl, listings_self hd, ho, told, told, if_pos hs, List.nil_append]
    · rw [if_neg hr, listings_other hd hr]
  | updated old new d ds q known hd ho hs ih =>
    have ih := ih (hk.erase q)
    rw [find?_erase] at ih
    rw [relistFrom_updated hd ho hs, announce]
    by_cases hr : r = q
    · subst hr
      rw [if_pos rfl] at ih
      rw [filter_concerns_self (c := .updated known d) hd, listings_self hd, ih, ho, told, told,
        hs]
      rfl
    · rw [if_neg hr] at ih
      rw [filter_concerns_other (c := .updated known d) hd hr, listings_other hd hr, ih]

/-- Everything that is told is about an object with a name, because documents without one
are skipped and nothing is kept of them. -/
theorem ref_of_relistFrom (hk : old.Keyed) :
    ∀ c ∈ (relistFrom old new ds).2, ∃ r, c.document.ref? = some r := by
  induction old, new, ds using relistFrom_induction with
  | nil old new =>
    rw [relistFrom_nil]
    intro c hc
    obtain ⟨e, he, rfl⟩ := List.mem_map.mp hc
    exact ⟨e.1, hk.ref_of_mem he⟩
  | nameless old new d ds hd ih =>
    rw [relistFrom_nameless hd]
    exact ih hk
  | added old new d ds q hd ho ih =>
    rw [relistFrom_added hd ho]
    exact List.forall_mem_cons.mpr ⟨⟨q, hd⟩, ih hk⟩
  | kept old new d ds q known hd ho hs ih =>
    rw [relistFrom_kept hd ho hs]
    exact ih (hk.erase q)
  | updated old new d ds q known hd ho hs ih =>
    rw [relistFrom_updated hd ho hs]
    exact List.forall_mem_cons.mpr ⟨⟨q, hd⟩, ih (hk.erase q)⟩

/-! ## Deletions -/

/-- The entries that a list does not mention. -/
def leftovers (s : Store) (ds : List Document) : List Entry :=
  s.entries.filter fun e => e.1 ∉ mentioned ds

theorem leftovers_nameless {d : Document} (hd : d.ref? = none) :
    old.leftovers (d :: ds) = old.leftovers ds := by
  rw [leftovers, mentioned_nameless hd]
  rfl

/-- A document takes its entry from the leftovers. -/
theorem leftovers_named {d : Document} (hd : d.ref? = some r) :
    old.leftovers (d :: ds) = (old.erase r).leftovers ds := by
  rw [leftovers, leftovers, mentioned_named hd, erase, List.filter_filter]
  refine List.filter_congr fun e _ => ?_
  simp [Bool.and_comm]

/-- The losses come last, and are those of the leftovers, in the order of the store. -/
theorem relistFrom_leftovers (old new : Store) (ds : List Document) :
    ∃ front, (∀ c ∈ front, c.isDeletion = false) ∧
      (relistFrom old new ds).2 = front ++ (old.leftovers ds).map fun e => .deleted e.2 := by
  induction old, new, ds using relistFrom_induction with
  | nil old new =>
    refine ⟨[], fun c hc => absurd hc List.not_mem_nil, ?_⟩
    have hall : old.leftovers [] = old.entries :=
      List.filter_eq_self.mpr fun e _ => decide_eq_true List.not_mem_nil
    rw [relistFrom_nil, hall, List.nil_append]
  | nameless old new d ds hd ih =>
    rw [relistFrom_nameless hd, leftovers_nameless hd]
    exact ih
  | added old new d ds q hd ho ih =>
    obtain ⟨front, hfront, hrest⟩ := ih
    have herase : old.erase q = old := by
      refine ext_find? fun r => ?_
      rw [find?_erase]
      split
      · next hr => rw [hr, ho]
      · rfl
    rw [relistFrom_added hd ho, announce, leftovers_named hd, herase, hrest]
    exact ⟨.added d :: front, List.forall_mem_cons.mpr ⟨rfl, hfront⟩, rfl⟩
  | kept old new d ds q known hd ho hs ih =>
    rw [relistFrom_kept hd ho hs, leftovers_named hd]
    exact ih
  | updated old new d ds q known hd ho hs ih =>
    obtain ⟨front, hfront, hrest⟩ := ih
    rw [relistFrom_updated hd ho hs, announce, leftovers_named hd, hrest]
    exact ⟨.updated known d :: front, List.forall_mem_cons.mpr ⟨rfl, hfront⟩, rfl⟩

end

/-! ## A whole list -/

/-- What a relist tells. -/
structure Reported (s : Store) (ds : List Document) : Prop where
  /-- about a reference, depending on how often the list mentions it -/
  told : ∀ r, (s.relist ds).2.filter (·.concerns r) = told (s.find? r) (listings r ds)
  /-- that is the net difference exactly if the list mentions it at most once -/
  net : ∀ r, (s.relist ds).2.filter (·.concerns r) =
    net (s.find? r) ((s.relist ds).1.find? r) ↔ (listings r ds).length ≤ 1
  /-- nothing is told about objects without a name -/
  named : ∀ c ∈ (s.relist ds).2, ∃ r, c.document.ref? = some r
  /-- the losses come last, in ascending order, and are those of the objects that were there
  before and are not there after -/
  last : ∃ (front : List Change) (gone : List Entry),
    (s.relist ds).2 = front ++ gone.map (fun e => .deleted e.2) ∧
    (∀ c ∈ front, c.isDeletion = false) ∧ (gone.Pairwise fun a b => a.1 < b.1) ∧
    ∀ e : Entry, e ∈ gone ↔ s.find? e.1 = some e.2 ∧ (s.relist ds).1.find? e.1 = none

/-- **What a relist tells.** The net difference of all objects that the list mentions at
most once, and of no others: a further mention is told as new. The losses come last. -/
theorem relist_reported {s : Store} (hs : s.Keyed) (hclean : s.Clean) (ds : List Document) :
    Reported s ds := by
  have htold : ∀ r, (s.relist ds).2.filter (·.concerns r) = told (s.find? r) (listings r ds) :=
    fun r => told_relistFrom hs r ds
  have hsettled : ∀ r, (s.relist ds).1.find? r = settled (s.find? r) (listings r ds) := by
    intro r
    rw [relist, find?_relistFrom, find?_empty, Option.or_none]
  refine ⟨htold, fun r => ?_, ref_of_relistFrom hs, ?_⟩
  · rw [hsettled, htold]
    exact told_eq_net_iff fun d hd => d.same_self (hclean r d hd)
  · obtain ⟨front, hfront, hrest⟩ := relistFrom_leftovers s empty ds
    refine ⟨front, s.leftovers ds, hrest, hfront, s.ascending.filter _, fun e => ?_⟩
    rw [hsettled, settled_eq_none_iff, listings_eq_nil_iff, leftovers, List.mem_filter,
      decide_eq_true_eq]
    exact and_congr_left fun _ => ⟨lookup_of_mem s.ascending, Table.mem_of_lookup⟩

/-- An object in some version. -/
def versioned (name version : String) : Document :=
  .object [("metadata", .object [("name", .text name), ("resourceVersion", .text version)])]

/-- A store of objects in their first versions. -/
def firstVersions (names : List String) : Store :=
  (empty.apply (.relisted (names.map fun name => versioned name "1"))).1

theorem keyed_firstVersions (names : List String) : (firstVersions names).Keyed :=
  keyed_empty.apply _

theorem clean_firstVersions (names : List String) : (firstVersions names).Clean := by
  refine Every.apply every_empty fun d hd _ _ => ?_
  obtain ⟨name, -, rfl⟩ := List.mem_map.mp hd
  simp [versioned, Document.Distinct, Document.DistinctFields]

/-- One object is unchanged, one is replaced, one is gone and one is new. -/
def turnover : List Document :=
  [versioned "a" "1", versioned "b" "2", .object [], versioned "d" "1"]

theorem relist_reported_turnover :
    ((firstVersions ["a", "b", "c"]).relist turnover).2 =
        [.updated (versioned "b" "1") (versioned "b" "2"), .added (versioned "d" "1"),
          .deleted (versioned "c" "1")] ∧
      ((firstVersions ["a", "b", "c"]).relist turnover).2.filter (·.concerns ⟨none, "b"⟩) =
        net (some (versioned "b" "1")) (some (versioned "b" "2")) := by
  have hreported := relist_reported (keyed_firstVersions ["a", "b", "c"])
    (clean_firstVersions _) turnover
  exact ⟨rfl, (hreported.net ⟨none, "b"⟩).mpr (Nat.le_refl 1)⟩

/-- A list that mentions an object twice. -/
def twice : List Document :=
  [versioned "a" "2", versioned "a" "3"]

/-- The object is told as an update and then as new, although it is there all along, and the
difference is one update. -/
theorem repeated_mention :
    ((firstVersions ["a"]).relist twice).2 =
        [.updated (versioned "a" "1") (versioned "a" "2"), .added (versioned "a" "3")] ∧
      net ((firstVersions ["a"]).find? ⟨none, "a"⟩)
          (((firstVersions ["a"]).relist twice).1.find? ⟨none, "a"⟩) =
        [.updated (versioned "a" "1") (versioned "a" "3")] ∧
      ((firstVersions ["a"]).relist twice).2.filter (·.concerns ⟨none, "a"⟩) ≠
        net ((firstVersions ["a"]).find? ⟨none, "a"⟩)
          (((firstVersions ["a"]).relist twice).1.find? ⟨none, "a"⟩) := by
  refine ⟨rfl, rfl, fun h => ?_⟩
  exact absurd (congrArg List.length h) (by decide)

end Store

end KindCache
