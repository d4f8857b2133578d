import KindCache.Proofs.Document.Equality
import KindCache.Proofs.Store.Events

/-!
# The last writer wins

What a store holds under a reference is decided by the last event that concerns
the reference, whatever came before it.

* `WatchEvent.concerns`, `WatchEvent.leaves` — whether an event decides about a
  reference, and what it leaves there; a full list decides about every one;
* `lastWord` — the last event of a history that concerns a reference;
* `Store.applyAll` — the store after a history;
* `find?_applyAll` — the store after a history holds what the last word leaves, up to
  the order of keys: a relist keeps a document that is equal to the new one;
* `find?_relistFrom` — a relist leaves the last document of the list with a reference, or
  what was known there if it is equal and the only one;
* `applyAll_same` — what came before a full list leaves no trace.
-/

namespace KindCache

namespace WatchEvent

/-- No document of the event holds a key twice, as it is with all documents that
are read. -/
def Proper (e : WatchEvent) : Prop :=
  ∀ d ∈ e.documents, d.Distinct

/-- Whether an event decides what there is under a reference. -/
def concerns (r : ObjectRef) : WatchEvent → Bool
  | .applied d => d.ref? = some r
  | .deleted d => d.ref? = some r
  | .relisted _ => true

/-- The last document of a list with a given reference. -/
def lastListed (r : ObjectRef) (ds : List Document) : Option Document :=
  (ds.filter fun d => d.ref? = some r).getLast?

/-- What an event leaves under a reference that it concerns. -/
def leaves (r : ObjectRef) : WatchEvent → Option Document
  | .applied d => some d
  | .deleted _ => none
  | .relisted ds => lastListed r ds

/-- The last event of a history that concerns a reference. -/
def lastWord (r : ObjectRef) (es : List WatchEvent) : Option WatchEvent :=
  (es.filter (·.concerns r)).getLast?

variable {r : ObjectRef}

theorem lastWord_cons (e : WatchEvent) (es : List WatchEvent) :
    lastWord r (e :: es) = (lastWord r es).or (if e.concerns r then some e else none) := by
  by_cases he : e.concerns r
  · simp [lastWord, he, List.getLast?_cons, Option.or_some]
  · simp [lastWord, he]

theorem lastWord_append (es more : List WatchEvent) :
    lastWord r (es ++ more) = (lastWord r more).or (lastWord r es) := by
  rw [lastWord, List.filter_append, List.getLast?_append]
  rfl

/-- Before a full list there is no last word: a list concerns every reference, and so it or
something later has the last word. -/
theorem lastWord_relisted (es later : List WatchEvent) (ds : List Document) :
    ∃ e, lastWord r (es ++ .relisted ds :: later) = some e ∧
      lastWord r (.relisted ds :: later) = some e := by
  have hsome : ∃ e, lastWord r (.relisted ds :: later) = some e := by
    rw [lastWord_cons]
    rcases lastWord r later with _ | e
    · exact ⟨_, rfl⟩
    · exact ⟨e, rfl⟩
  obtain ⟨e, he⟩ := hsome
  refine ⟨e, ?_, he⟩
  rw [lastWord_append, he, Option.some_or]

theorem exists_lastListed_iff {ds : List Document} :
    (∃ x, lastListed r ds = some x) ↔ ∃ d ∈ ds, d.ref? = some r := by
  rw [← Option.isSome_iff_exists, lastListed, List.getLast?_isSome]
  simp

/-- Setting an object leaves something, and so does a list that mentions it. -/
theorem exists_leaves_iff {e : WatchEvent} : (∃ x, e.leaves r = some x) ↔
    (∃ d, e = .applied d) ∨ ∃ ds, e = .relisted ds ∧ ∃ d ∈ ds, d.ref? = some r := by
  cases e with
  | applied d => exact iff_of_true ⟨d, rfl⟩ (.inl ⟨d, rfl⟩)
  | deleted d => simp [leaves]
  | relisted ds => simp [leaves, exists_lastListed_iff]

end WatchEvent

namespace Store

open WatchEvent (lastListed lastWord lastWord_cons lastWord_relisted)

/-- Equality of what there may be under a reference. -/
def Alike (a b : Option Document) : Prop :=
  Option.Rel (fun d e => d.same e = true) a b

theorem Alike.isSome_iff {a b : Option Document} (h : Alike a b) :
    a.isSome = true ↔ ∃ x, b = some x := by
  cases h with
  | none => simp
  | some _ => simp

/-- What is like a document is one that is equal to it. -/
theorem Alike.exists_same {b : Option Document} {d : Document} (h : Alike (some d) b) :
    ∃ x, b = some x ∧ d.same x = true := by
  cases h with
  | some hsame => exact ⟨_, rfl, hsame⟩

/-- Stores with equal documents under the same references. -/
def Same (s t : Store) : Prop :=
  ∀ r, Alike (s.find? r) (t.find? r)

/-- The store after a history. -/
def applyAll (s : Store) (es : List WatchEvent) : Store :=
  es.foldl (fun s e => (s.apply e).1) s

section

variable {s old new : Store} {r q : ObjectRef} {d : Document} {ds : List Document}
  {before : Option Document}

@[simp] theorem applyAll_cons (s : Store) (e : WatchEvent) (es : List WatchEvent) :
    s.applyAll (e :: es) = (s.apply e).1.applyAll es := rfl

theorem applyAll_append (s : Store) (es more : List WatchEvent) :
    s.applyAll (es ++ more) = (s.applyAll es).applyAll more :=
  List.foldl_append

/-- What is stored after a history was there before, or is a document of the history. -/
theorem Every.applyAll {p : ObjectRef → Document → Prop} {es : List WatchEvent} (hs : s.Every p)
    (hes : ∀ e ∈ es, ∀ d ∈ e.documents, ∀ r, d.ref? = some r → p r d) :
    (s.applyAll es).Every p := by
  induction es generalizing s with
  | nil => exact hs
  | cons e es ih =>
    obtain ⟨he, hes⟩ := List.forall_mem_cons.mp hes
    exact ih (hs.apply he) hes

theorem Keyed.applyAll (hs : s.Keyed) (es : List WatchEvent) : (s.applyAll es).Keyed :=
  Every.applyAll hs fun _ _ _ _ _ hr => hr

/-! ## A relist -/

/-- The documents of a list with a given reference. -/
def listings (r : ObjectRef) (ds : List Document) : List Document :=
  ds.filter fun d => d.ref? = some r

/-- What a relist leaves under a reference: the last document of the list with it. The known
document is kept in place of an equal one, unless another one follows. -/
def settled : Option Document → List Document → Option Document
  | none, ds => ds.getLast?
  | some _, [] => none
  | some known, d :: ds => ds.getLast?.or (some (if known.same d then known else d))

theorem listings_nameless (hd : d.ref? = none) : listings r (d :: ds) = listings r ds :=
  List.filter_cons_of_neg (by simp [hd])

theorem listings_self (hd : d.ref? = some r) : listings r (d :: ds) = d :: listings r ds :=
  List.filter_cons_of_pos (by simp [hd])

theorem listings_other (hd : d.ref? = some q) (hr : r ≠ q) :
    listings r (d :: ds) = listings r ds :=
  List.filter_cons_of_neg (by simp [hd, Ne.symm hr])

/-- Nothing is left exactly of what the list does not mention. -/
theorem settled_eq_none_iff : settled before ds = none ↔ ds = [] := by
  rcases before with _ | known
  · exact List.getLast?_eq_none_iff
  · cases ds <;> simp [settled]

/-- **What is left under a reference** depends on what is left of the old content there, and
on the documents that are still to come. If there is nothing, it is what the new content
has. -/
theorem find?_relistFrom (old new : Store) (ds : List Document) (r : ObjectRef) :
    (relistFrom old new ds).1.find? r =
      (settled (old.find? r) (listings r ds)).or (new.find? r) := by
  induction old, new, ds using relistFrom_induction with
  | nil old new =>
    rw [relistFrom_nil]
    cases old.find? r <;> rfl
  | nameless old new d ds hd ih =>
    rw [relistFrom_nameless hd, listings_nameless hd, ih]
  | added old new d ds q hd ho ih =>
    rw [relistFrom_added hd ho, announce, ih, find?_insert]
    by_cases hr : r = q
    · subst hr
      rw [if_pos rfl, listings_self hd, ho, settled, settled, List.getLast?_cons]
      cases (listings r ds).getLast? <;> rfl
    · rw [if_neg hr, listings_other hd hr]
  | kept old new d ds q known hd ho hs ih =>
    rw [relistFrom_kept hd ho hs, ih, find?_insert, find?_erase]
    by_cases hr : r = q
    · subst hr
      rw [if_pos rfl, if_pos rfl, listings_self hd, ho, settled, settled, if_pos hs]
      cases (listings r ds).getLast? <;> rfl
    · rw [if_neg hr, if_neg hr, listings_other hd hr]
  | updated old new d ds q known hd ho hs ih =>
    rw [relistFrom_updated hd ho hs, announce, ih, find?_insert, find?_erase]
    by_cases hr : r = q
    · subst hr
      rw [if_pos rfl, if_pos rfl, listings_self hd, ho, settled, settled, hs]
      cases (listings r ds).getLast? <;> rfl
    · rw [if_neg hr, if_neg hr, listings_other hd hr]

/-- What is left is the last document of the list or one that is equal to it. The known
document is left only if it is equal to the one that is compared with it, and if this one is
the last. -/
theorem settled_same (h : ds.getLast? = some d) (hd : d.Distinct) :
    Alike (settled before ds) (some d) := by
  have hself : Alike (some d) (some d) := .some (d.same_self hd)
  rcases before with _ | known
  · rw [settled, h]
    exact hself
  · rcases ds with _ | ⟨first, rest⟩
    · cases h
    · rw [List.getLast?_cons] at h
      rw [settled]
      rcases hrest : rest.getLast? with _ | last
      · rw [hrest] at h
        obtain rfl : first = d := Option.some.inj h
        rw [Option.none_or]
        split
        · next hsame => exact .some hsame
        · exact hself
      · rw [hrest] at h
        obtain rfl : last = d := Option.some.inj h
        exact hself

/-- What a list makes of one reference: what it has there last, and what was there
before if it has nothing. -/
structure ListedLast (r : ObjectRef) (ds : List Document) (before after : Option Document) :
    Prop where
  listed : ∀ d, lastListed r ds = some d → Alike after (some d)
  unlisted : lastListed r ds = none → after = before

/-- A list decides about each reference that it mentions, and leaves the others to what was
there. -/
theorem relistFrom_listed (hds : ∀ d ∈ ds, d.Distinct) (old new : Store) (r : ObjectRef) :
    ListedLast r ds (new.find? r) ((relistFrom old new ds).1.find? r) := by
  rw [find?_relistFrom]
  refine ⟨fun d hlast => ?_, fun hnone => ?_⟩
  · have hmem : d ∈ ds := List.mem_of_mem_filter (List.mem_of_getLast? hlast)
    have hsame : Alike (settled (old.find? r) (listings r ds)) (some d) :=
      settled_same hlast (hds d hmem)
    rcases hleft : settled (old.find? r) (listings r ds) with _ | kept
    · rw [hleft] at hsame
      cases hsame
    · rwa [Option.some_or, ← hleft]
  · have hnil : listings r ds = [] := List.getLast?_eq_none_iff.mp hnone
    rw [settled_eq_none_iff.mpr hnil, Option.none_or]

/-! ## Any event -/

/-- What there is after setting an object. -/
theorem find?_upsert (hd : d.ref? = some q) (s : Store) (r : ObjectRef) :
    (s.upsert d).1.find? r = if r = q then some d else s.find? r := by
  rcases hs : s.find? q with _ | known
  · rw [upsert_added hd hs, find?_insert]
  · rw [upsert_updated hd hs, find?_insert]

/-- What there is after removing an object. -/
theorem find?_remove (hd : d.ref? = some q) (s : Store) (r : ObjectRef) :
    (s.remove d).1.find? r = if r = q then none else s.find? r := by
  rcases hs : s.find? q with _ | known
  · rw [remove_absent hd hs]
    split
    · next hr => rw [hr, hs]
    · rfl
  · rw [remove_present hd hs, find?_erase]

/-- An event that does not concern a reference leaves it alone. -/
theorem find?_apply_other {e : WatchEvent} (h : e.concerns r = false) :
    (s.apply e).1.find? r = s.find? r := by
  cases e with
  | applied d =>
    have hr : d.ref? ≠ some r := of_decide_eq_false h
    show (s.upsert d).1.find? r = _
    rcases hq : d.ref? with _ | q
    · rw [upsert_nameless hq]
    · rw [find?_upsert hq, if_neg]
      rintro rfl
      exact hr hq
  | deleted d =>
    have hr : d.ref? ≠ some r := of_decide_eq_false h
    show (s.remove d).1.find? r = _
    rcases hq : d.ref? with _ | q
    · rw [remove_nameless hq]
    · rw [find?_remove hq, if_neg]
      rintro rfl
      exact hr hq
  | relisted ds => cases h

/-- After an event that concerns a reference, there is what the event leaves. It need not be
the same document, since a list leaves an equal one in its place. -/
theorem find?_apply_alike {e : WatchEvent} (he : e.Proper) (h : e.concerns r = true) :
    Alike ((s.apply e).1.find? r) (e.leaves r) := by
  cases e with
  | applied d =>
    have hd : d.ref? = some r := of_decide_eq_true h
    show Alike ((s.upsert d).1.find? r) (some d)
    rw [find?_upsert hd, if_pos rfl]
    exact .some (d.same_self (he d List.mem_cons_self))
  | deleted d =>
    have hd : d.ref? = some r := of_decide_eq_true h
    show Alike ((s.remove d).1.find? r) none
    rw [find?_remove hd, if_pos rfl]
    exact .none
  | relisted ds =>
    have hds : ∀ d ∈ ds, d.Distinct := he
    obtain ⟨hlisted, hunlisted⟩ := relistFrom_listed hds s empty r
    show Alike ((relistFrom s empty ds).1.find? r) (lastListed r ds)
    rcases hlast : lastListed r ds with _ | d
    · rw [hunlisted hlast]
      exact .none
    · exact hlisted d hlast

/-! ## A history -/

/-- **The last writer wins.** After a history, there is what its last word leaves, or what
was there before if no event concerns the reference. -/
theorem find?_applyAll {es : List WatchEvent} (hes : ∀ e ∈ es, e.Proper) (s : Store)
    (r : ObjectRef) :
    (∀ e, lastWord r es = some e → Alike ((s.applyAll es).find? r) (e.leaves r)) ∧
      (lastWord r es = none → (s.applyAll es).find? r = s.find? r) := by
  induction es generalizing s with
  | nil => exact ⟨fun e he => (by cases he), fun _ => rfl⟩
  | cons e es ih =>
    obtain ⟨he, hes⟩ := List.forall_mem_cons.mp hes
    obtain ⟨hword, hsilent⟩ := ih hes (s.apply e).1
    rw [applyAll_cons, lastWord_cons]
    rcases hlast : lastWord r es with _ | e'
    · -- the rest of the history is silent, so the first event decides
      rw [hsilent hlast, Option.none_or]
      rcases hc : e.concerns r with _ | _
      · exact ⟨fun e' he' => (by cases he'), fun _ => find?_apply_other hc⟩
      · refine ⟨fun e' he' => ?_, fun hnone => (by cases hnone)⟩
        cases he'
        exact find?_apply_alike he hc
    · refine ⟨fun e'' he'' => ?_, fun hnone => (by cases hnone)⟩
      cases he''
      exact hword _ hlast

/-- From an empty store, a history leads to what its last words leave. Where there is no
last word nothing is there. -/
theorem applyAll_empty {es : List WatchEvent} (hes : ∀ e ∈ es, e.Proper) (r : ObjectRef) :
    Alike ((empty.applyAll es).find? r) ((lastWord r es).bind (·.leaves r)) := by
  obtain ⟨hword, hsilent⟩ := find?_applyAll hes empty r
  rcases hlast : lastWord r es with _ | e
  · rw [hsilent hlast, find?_empty]
    exact .none
  · exact hword e hlast

/-! ## Two histories -/

/-- What an event leaves holds no key twice, so it can be compared. -/
theorem distinct_of_leaves {e : WatchEvent} (he : e.Proper) (h : e.leaves r = some d) :
    d.Distinct := by
  cases e with
  | applied d' =>
    obtain rfl := Option.some.inj h
    exact he _ List.mem_cons_self
  | deleted d' => cases h
  | relisted ds => exact he d (List.mem_of_mem_filter (List.mem_of_getLast? h))

/-- No document of the store holds a key twice. -/
def Clean (s : Store) : Prop :=
  ∀ r d, s.find? r = some d → d.Distinct

theorem clean_empty : empty.Clean :=
  every_empty

theorem Clean.applyAll (hs : s.Clean) {es : List WatchEvent} (hes : ∀ e ∈ es, e.Proper) :
    (s.applyAll es).Clean :=
  Every.applyAll hs fun e he d hd _ _ => hes e he d hd

/-- Documents that equal one and the same third are equal. This takes symmetry, and with it
that keys are not repeated. -/
theorem Alike.join {a b c : Option Document} (hac : Alike a c) (hbc : Alike b c)
    (hb : ∀ d, b = some d → d.Distinct) (hc : ∀ d, c = some d → d.Distinct) : Alike a b := by
  cases hac with
  | none =>
    cases hbc
    exact .none
  | some hxz =>
    cases hbc with
    | some hyz =>
      exact .some (Document.same_trans _ _ _ hxz (Document.same_symm _ _ (hb _ rfl) (hc _ rfl) hyz))

/-- What came before a full list leaves no trace: with the same events after it, equal
stores come of it. Both have what the last words leave, and these are the same. -/
theorem applyAll_same {t : Store} (ht : t.Clean) {es fs later : List WatchEvent}
    (hes : ∀ e ∈ es ++ .relisted ds :: later, e.Proper)
    (hfs : ∀ e ∈ fs ++ .relisted ds :: later, e.Proper) (s : Store) :
    Same (s.applyAll (es ++ .relisted ds :: later)) (t.applyAll (fs ++ .relisted ds :: later)) := by
  intro r
  obtain ⟨e, he, htail⟩ := lastWord_relisted (r := r) es later ds
  obtain ⟨e', he', htail'⟩ := lastWord_relisted (r := r) fs later ds
  obtain rfl : e = e' := Option.some.inj (htail.symm.trans htail')
  have hproper : e.Proper := hes e (List.mem_of_mem_filter (List.mem_of_getLast? he))
  exact ((find?_applyAll hes s r).1 e he).join ((find?_applyAll hfs t r).1 e he')
    (ht.applyAll hfs r) fun d hd => distinct_of_leaves hproper hd

end

end Store

end KindCache
