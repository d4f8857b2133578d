import KindCache.Proofs.Store.Events

/-!
# The course of one object

Told only of the changes of one object, a receiver can follow its life: it
appears, is replaced any number of times and disappears, over and over again.

* `Course` — the legal courses of one object, from the document known before to
  the document known after;
* `Change.concerns` — which changes are about a reference;
* `course_apply` — what an event tells about a reference is a legal course from
  the document before the event to the document after it, provided that a list
  does not mention a reference twice;
* `course_replay` — so is what is told of a store as new.
-/

namespace KindCache

/-- The document that a change is about: the new one, or the last one known. -/
def Change.document : Change → Document
  | .added d => d
  | .updated _ d => d
  | .deleted d => d

/-- Whether a change is about the object with a reference. -/
def Change.concerns (r : ObjectRef) (c : Change) : Bool :=
  c.document.ref? = some r

/-- The legal courses of one object. The indices are the document last told
before and after. -/
inductive Course : Option Document → List Change → Option Document → Prop where
  /-- nothing is told -/
  | still {known : Option Document} : Course known [] known
  /-- an object that is not there appears -/
  | added {d : Document} {cs : List Change} {last : Option Document} :
    Course (some d) cs last → Course none (.added d :: cs) last
  /-- the document last told is replaced -/
  | updated {old new : Document} {cs : List Change} {last : Option Document} :
    Course (some new) cs last → Course (some old) (.updated old new :: cs) last
  /-- an object that is there disappears -/
  | deleted {known d : Document} {cs : List Change} {last : Option Document} :
    Course none cs last → Course (some known) (.deleted d :: cs) last

namespace Course

theorem append {first mid last : Option Document} {cs ds : List Change}
    (h : Course first cs mid) (h' : Course mid ds last) : Course first (cs ++ ds) last := by
  induction h with
  | still => exact h'
  | added _ ih => exact .added (ih h')
  | updated _ ih => exact .updated (ih h')
  | deleted _ ih => exact .deleted (ih h')

/-- A course may be cut short anywhere. A receiver that does not read on has still been told
a legal course. -/
theorem cut {first last : Option Document} {cs ds : List Change}
    (h : Course first (cs ++ ds) last) : ∃ mid, Course first cs mid := by
  induction cs generalizing first with
  | nil => exact ⟨first, .still⟩
  | cons c cs ih =>
    cases h with
    | added h =>
      obtain ⟨mid, hmid⟩ := ih h
      exact ⟨mid, .added hmid⟩
    | updated h =>
      obtain ⟨mid, hmid⟩ := ih h
      exact ⟨mid, .updated hmid⟩
    | deleted h =>
      obtain ⟨mid, hmid⟩ := ih h
      exact ⟨mid, .deleted hmid⟩

end Course

namespace Store

/-! ## Leaving out other references -/

section

variable {c : Change} {cs : List Change} {r : ObjectRef}

theorem filter_concerns_self (h : c.document.ref? = some r) :
    (c :: cs).filter (·.concerns r) = c :: cs.filter (·.concerns r) :=
  List.filter_cons_of_pos (by simp [Change.concerns, h])

theorem filter_concerns_other {q : ObjectRef} (h : c.document.ref? = some q) (hr : r ≠ q) :
    (c :: cs).filter (·.concerns r) = cs.filter (·.concerns r) := by
  refine List.filter_cons_of_neg ?_
  have hq : q ≠ r := Ne.symm hr
  simp [Change.concerns, h, hq]

end

/-- Of the changes of the entries of an ascending list, one at most is about a reference:
that of the document under it. -/
theorem filter_concerns_map (change : Document → Change)
    (hchange : ∀ d, (change d).document = d) {es : List Entry}
    (hasc : es.Pairwise fun a b => a.1 < b.1) (hes : ∀ e ∈ es, e.2.ref? = some e.1)
    (r : ObjectRef) :
    (es.map fun e => change e.2).filter (·.concerns r) =
      ((es.lookup r).map change).toList := by
  induction es with
  | nil => rfl
  | cons e es ih =>
    obtain ⟨hlt, hasc⟩ := List.pairwise_cons.mp hasc
    have he : (change e.2).document.ref? = some e.1 := by
      rw [hchange]
      exact hes e List.mem_cons_self
    have ih := ih hasc fun x hx => hes x (List.mem_cons_of_mem _ hx)
    rw [List.map_cons, Table.lookup_cons]
    by_cases hr : r = e.1
    · rw [if_pos hr, hr, filter_concerns_self he, ← hr, ih, hr, lookup_eq_none_of_lt hlt]
      rfl
    · rw [if_neg hr, filter_concerns_other he hr, ih]

/-! ## A relist -/

/-- The references that a list mentions. -/
def mentioned (ds : List Document) : List ObjectRef :=
  ds.filterMap Document.ref?

theorem mentioned_nameless {d : Document} {ds : List Document} (h : d.ref? = none) :
    mentioned (d :: ds) = mentioned ds :=
  List.filterMap_cons_none h

theorem mentioned_named {d : Document} {ds : List Document} {r : ObjectRef}
    (h : d.ref? = some r) : mentioned (d :: ds) = r :: mentioned ds :=
  List.filterMap_cons_some h

/-- A list mentions no reference twice, and none that the new content has. -/
structure Listed (new : Store) (ds : List Document) : Prop where
  /-- no reference is mentioned twice -/
  nodup : (mentioned ds).Nodup
  /-- what is mentioned is not in the new content -/
  absent : ∀ r ∈ mentioned ds, new.find? r = none

namespace Listed

variable {new : Store} {d : Document} {ds : List Document} {r : ObjectRef}

theorem of_nameless (h : Listed new (d :: ds)) (hd : d.ref? = none) : Listed new ds := by
  obtain ⟨hnodup, habsent⟩ := h
  rw [mentioned_nameless hd] at hnodup habsent
  exact ⟨hnodup, habsent⟩

theorem find?_eq_none (h : Listed new (d :: ds)) (hd : d.ref? = some r) :
    new.find? r = none := by
  refine h.absent r ?_
  rw [mentioned_named hd]
  exact List.mem_cons_self

/-- A document that was mentioned may be added: the rest does not mention it. -/
theorem insert (h : Listed new (d :: ds)) (hd : d.ref? = some r) (e : Document) :
    Listed (new.insert r e) ds := by
  obtain ⟨hnodup, habsent⟩ := h
  rw [mentioned_named hd] at hnodup habsent
  obtain ⟨hr, hnodup⟩ := List.nodup_cons.mp hnodup
  refine ⟨hnodup, fun q hq => ?_⟩
  have hne : q ≠ r := by
    rintro rfl
    exact hr hq
  rw [find?_insert, if_neg hne]
  exact habsent q (List.mem_cons_of_mem _ hq)

end Listed

/-- Of the leftovers, the document under a reference goes, unless the new content has
one. -/
theorem course_leftovers {old new : Store} (hk : old.Keyed) (hp : Parted old new)
    (q : ObjectRef) :
    Course ((new.find? q).or (old.find? q))
      ((old.entries.map fun e => .deleted e.2).filter (·.concerns q)) (new.find? q) := by
  rw [filter_concerns_map .deleted (fun _ => rfl) old.ascending (fun e he => hk.ref_of_mem he) q]
  show Course _ ((old.find? q).map .deleted).toList (new.find? q)
  rcases hp q with ho | hn
  · rw [ho, Option.or_none]
    exact .still
  · rw [hn, Option.none_or]
    rcases old.find? q with _ | d
    · exact .still
    · exact .deleted .still

/-- **In the middle of a relist**, what is still to be told about a reference starts from
the document in the new content, or else in what is left of the old. That the list mentions
nothing twice comes in where a document is added: it must not be known already. -/
theorem course_relistFrom {old new : Store} (hk : old.Keyed) (hp : Parted old new)
    (ds : List Document) (hl : Listed new ds) (q : ObjectRef) :
    Course ((new.find? q).or (old.find? q))
      ((relistFrom old new ds).2.filter (·.concerns q)) ((relistFrom old new ds).1.find? q) := by
  -- a reference is mentioned once, so at most one document of the list concerns it
  induction old, new, ds using relistFrom_induction with
  | nil old new =>
    rw [relistFrom_nil]
    exact course_leftovers hk hp q
  | nameless old new d ds hd ih =>
    rw [relistFrom_nameless hd]
    exact ih hk hp (hl.of_nameless hd)
  | added old new d ds r hd ho ih =>
    have hn := hl.find?_eq_none hd
    have ih := ih hk (hp.insert ho) (hl.insert hd d)
    rw [find?_insert] at ih
    rw [relistFrom_added hd ho, announce]
    by_cases hq : q = r
    · subst hq
      rw [filter_concerns_self (c := .added d) hd, hn, ho]
      rw [if_pos rfl] at ih
      exact .added ih
    · rw [filter_concerns_other (c := .added d) hd hq]
      rwa [if_neg hq] at ih
  | kept old new d ds r known hd ho hs ih =>
    have hn := hl.find?_eq_none hd
    have ih := ih (hk.erase r) (hp.move r known) (hl.insert hd known)
    rw [find?_insert, find?_erase] at ih
    rw [relistFrom_kept hd ho hs]
    by_cases hq : q = r
    · subst hq
      rw [hn, ho]
      rwa [if_pos rfl, if_pos rfl] at ih
    · rwa [if_neg hq, if_neg hq] at ih
  | updated old new d ds r known hd ho hs ih =>
    have hn := hl.find?_eq_none hd
    have ih := ih (hk.erase r) (hp.move r d) (hl.insert hd d)
    rw [find?_insert, find?_erase] at ih
    rw [relistFrom_updated hd ho hs, announce]
    by_cases hq : q = r
    · subst hq
      rw [filter_concerns_self (c := .updated known d) hd, hn, ho]
      rw [if_pos rfl, if_pos rfl] at ih
      exact .updated ih
    · rw [filter_concerns_other (c := .updated known d) hd hq]
      rwa [if_neg hq, if_neg hq] at ih

/-! ## Any event -/

end Store

/-- An event is distinct unless it is a list that mentions a reference twice. -/
def WatchEvent.Distinct : WatchEvent → Prop
  | .relisted ds => (Store.mentioned ds).Nodup
  | _ => True

namespace Store

/-- The change of one object. For all other references nothing is told, and nothing
changes. -/
theorem course_single {s t : Store} {c : Change} {r : ObjectRef}
    (hc : c.document.ref? = some r) (hr : Course (s.find? r) [c] (t.find? r))
    (hother : ∀ q, q ≠ r → t.find? q = s.find? q) (q : ObjectRef) :
    Course (s.find? q) ([c].filter (·.concerns q)) (t.find? q) := by
  by_cases hq : q = r
  · subst hq
    rw [filter_concerns_self hc]
    exact hr
  · rw [filter_concerns_other hc hq, hother q hq]
    exact .still

/-- What an event tells about a reference is a legal course from the document before the
event to the document after it. -/
theorem course_apply {s : Store} (hs : s.Keyed) {e : WatchEvent} (he : e.Distinct)
    (q : ObjectRef) :
    Course (s.find? q) ((s.apply e).2.filter (·.concerns q)) ((s.apply e).1.find? q) := by
  cases e with
  | applied d =>
    show Course _ ((s.upsert d).2.filter _) ((s.upsert d).1.find? q)
    rcases hd : d.ref? with _ | r
    · rw [upsert_nameless hd]
      exact .still
    · have hother : ∀ q, q ≠ r → (s.insert r d).find? q = s.find? q := by
        intro q hq
        rw [find?_insert, if_neg hq]
      rcases hr : s.find? r with _ | known
      · rw [upsert_added hd hr]
        refine course_single (c := .added d) hd ?_ hother q
        rw [hr, find?_insert, if_pos rfl]
        exact .added .still
      · rw [upsert_updated hd hr]
        refine course_single (c := .updated known d) hd ?_ hother q
        rw [hr, find?_insert, if_pos rfl]
        exact .updated .still
  | deleted d =>
    show Course _ ((s.remove d).2.filter _) ((s.remove d).1.find? q)
    rcases hd : d.ref? with _ | r
    · rw [remove_nameless hd]
      exact .still
    · rcases hr : s.find? r with _ | known
      · rw [remove_absent hd hr]
        exact .still
      · rw [remove_present hd hr]
        refine course_single (c := .deleted d) hd ?_ (fun q hq => ?_) q
        · rw [hr, find?_erase, if_pos rfl]
          exact .deleted .still
        · rw [find?_erase, if_neg hq]
  | relisted ds =>
    have h := course_relistFrom hs (parted_empty s) ds ⟨he, fun r _ => find?_empty r⟩ q
    rwa [find?_empty, Option.none_or] at h

/-! ## The first report -/

/-- A store that is told as new is a legal course from nothing to its content. -/
theorem course_replay {s : Store} (hs : s.Keyed) (q : ObjectRef) :
    Course none ((s.entries.map fun e => .added e.2).filter (·.concerns q)) (s.find? q) := by
  rw [filter_concerns_map .added (fun _ => rfl) s.ascending (fun e he => hs.ref_of_mem he) q]
  show Course none ((s.find? q).map .added).toList (s.find? q)
  rcases s.find? q with _ | d
  · exact .still
  · exact .added .still

end Store

end KindCache
