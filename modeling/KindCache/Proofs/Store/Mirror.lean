import KindCache.Proofs.Store.Events

/-!
# Rebuilding a store from its changes

A receiver of changes can keep a copy of the store: `Store.tell` takes in one
change, and `Store.tellAll` a list of them. It looks at nothing but the
documents in the changes.

* `tellAll_apply` — the changes of an event, told to a copy of the store before
  it, give the store after it; also where a list mentions a reference several
  times;
* `tellAll_replay` — a copy is complete when it was told of every object as new.
-/

namespace KindCache

namespace Store

/-- Put a document under its reference. -/
def keep (s : Store) (d : Document) : Store :=
  match d.ref? with
  | some r => s.insert r d
  | none => s

/-- Remove what is under the reference of a document. -/
def forget (s : Store) (d : Document) : Store :=
  match d.ref? with
  | some r => s.erase r
  | none => s

/-- Take in a change. -/
def tell (s : Store) : Change → Store
  | .added d => s.keep d
  | .updated _ d => s.keep d
  | .deleted d => s.forget d

/-- Take in changes in order. -/
def tellAll (s : Store) (changes : List Change) : Store :=
  changes.foldl tell s

section

variable {s : Store} {d : Document} {r : ObjectRef}

theorem keep_of_ref (hd : d.ref? = some r) : s.keep d = s.insert r d := by
  simp only [keep, hd]

theorem forget_of_ref (hd : d.ref? = some r) : s.forget d = s.erase r := by
  simp only [forget, hd]

@[simp] theorem tellAll_nil : s.tellAll [] = s := rfl

@[simp] theorem tellAll_cons (c : Change) (cs : List Change) :
    s.tellAll (c :: cs) = (s.tell c).tellAll cs := rfl

/-- Changes may be told in parts. -/
theorem tellAll_append (cs more : List Change) :
    s.tellAll (cs ++ more) = (s.tellAll cs).tellAll more :=
  List.foldl_append

end

/-! ## Leftovers -/

/-- Told of the loss of all entries of a list, a copy lacks them and no others. -/
theorem find?_tellAll_deleted {es : List Entry} (hes : ∀ e ∈ es, e.2.ref? = some e.1)
    (s : Store) (r : ObjectRef) :
    (s.tellAll (es.map fun e => .deleted e.2)).find? r =
      if (es.lookup r).isSome then none else s.find? r := by
  induction es generalizing s with
  | nil => rfl
  | cons e es ih =>
    have he : e.2.ref? = some e.1 := hes e List.mem_cons_self
    have ih := ih (fun x hx => hes x (List.mem_cons_of_mem _ hx)) (s.erase e.1)
    rw [List.map_cons, tellAll_cons, tell, forget_of_ref he, ih, find?_erase, Table.lookup_cons]
    by_cases hr : r = e.1
    · rw [if_pos hr, if_pos hr, ite_self]
      rfl
    · rw [if_neg hr, if_neg hr]

/-! ## A relist -/

/-- The two parts of the content in the middle of a relist, seen as one: what the
copy of a receiver holds at this point. -/
def Overlay (copy old new : Store) : Prop :=
  ∀ r, copy.find? r = (new.find? r).or (old.find? r)

/-- A copy that is told of a document has it like the new content. -/
theorem Overlay.insert {copy old new : Store} (h : Overlay copy old new) (r : ObjectRef)
    (d : Document) : Overlay (copy.insert r d) old (new.insert r d) := by
  intro q
  rw [find?_insert, find?_insert]
  by_cases hq : q = r
  · rw [if_pos hq, if_pos hq, Option.some_or]
  · rw [if_neg hq, if_neg hq]
    exact h q

/-- What was taken out of the old content is in the new one, so the copy does not have to
hear of it. -/
theorem Overlay.erase {copy old new : Store} (h : Overlay copy old new) {r : ObjectRef}
    {d : Document} (hn : new.find? r = some d) : Overlay copy (old.erase r) new := by
  intro q
  rw [find?_erase, h q]
  by_cases hq : q = r
  · rw [hq, hn, Option.some_or, Option.some_or]
  · rw [if_neg hq]

/-- A document that is kept moves without notice: the copy has it either way. -/
theorem Overlay.move {copy old new : Store} (h : Overlay copy old new) {r : ObjectRef}
    {d : Document} (ho : old.find? r = some d) (hn : new.find? r = none) :
    Overlay copy (old.erase r) (new.insert r d) := by
  intro q
  rw [find?_erase, find?_insert, h q]
  by_cases hq : q = r
  · rw [if_pos hq, hq, hn, ho, Option.none_or, Option.some_or]
  · rw [if_neg hq, if_neg hq]

/-- **In the middle of a relist**, what is still to be told leads a copy from the overlay to
the store that comes of it. At the end of the list the leftovers go, which leaves the new
content. -/
theorem tellAll_relistFrom {copy old new : Store} (hk : old.Keyed) (hp : Parted old new)
    (hc : Overlay copy old new) (ds : List Document) :
    copy.tellAll (relistFrom old new ds).2 = (relistFrom old new ds).1 := by
  -- the copy is the old and the new content together all along
  induction old, new, ds using relistFrom_induction generalizing copy with
  | nil old new =>
    -- what is left of the old content is not in the new one, and goes
    refine ext_find? fun r => ?_
    rw [relistFrom_nil, find?_tellAll_deleted (fun e he => hk.ref_of_mem he), hc r]
    show (if (old.find? r).isSome then none else _) = new.find? r
    rcases hp r with ho | hn
    · rw [ho, Option.or_none]
      rfl
    · rw [hn]
      rcases old.find? r with _ | d <;> rfl
  | nameless old new d ds hd ih =>
    rw [relistFrom_nameless hd]
    exact ih hk hp hc
  | added old new d ds r hd ho ih =>
    rw [relistFrom_added hd ho, announce, tellAll_cons, tell, keep_of_ref hd]
    exact ih hk (hp.insert ho) (hc.insert r d)
  | kept old new d ds r known hd ho hs ih =>
    rw [relistFrom_kept hd ho hs]
    -- the copy is told nothing: it has the document already
    have hn : new.find? r = none := by
      rcases hp r with h | h
      · rw [ho] at h
        cases h
      · exact h
    exact ih (hk.erase r) (hp.move r known) (hc.move ho hn)
  | updated old new d ds r known hd ho hs ih =>
    rw [relistFrom_updated hd ho hs, announce, tellAll_cons, tell, keep_of_ref hd]
    have hfind : (new.insert r d).find? r = some d := by
      rw [find?_insert, if_pos rfl]
    exact ih (hk.erase r) (hp.move r d) ((hc.insert r d).erase hfind)

/-! ## Any event -/

/-- The changes of an event lead from the store before it to the store after it. Also where
a list mentions an object twice: what is told as new replaces what is there. -/
theorem tellAll_apply {s : Store} (hs : s.Keyed) (e : WatchEvent) :
    s.tellAll (s.apply e).2 = (s.apply e).1 := by
  cases e with
  | applied d =>
    show s.tellAll (s.upsert d).2 = (s.upsert d).1
    rcases hd : d.ref? with _ | r
    · rw [upsert_nameless hd, tellAll_nil]
    · rcases hr : s.find? r with _ | known
      · rw [upsert_added hd hr, tellAll_cons, tellAll_nil, tell, keep_of_ref hd]
      · rw [upsert_updated hd hr, tellAll_cons, tellAll_nil, tell, keep_of_ref hd]
  | deleted d =>
    show s.tellAll (s.remove d).2 = (s.remove d).1
    rcases hd : d.ref? with _ | r
    · rw [remove_nameless hd, tellAll_nil]
    · rcases hr : s.find? r with _ | known
      · rw [remove_absent hd hr, tellAll_nil]
      · rw [remove_present hd hr, tellAll_cons, tellAll_nil, tell, forget_of_ref hd]
  | relisted ds =>
    refine tellAll_relistFrom hs (parted_empty s) (fun r => ?_) ds
    rw [find?_empty, Option.none_or]

/-! ## The first report -/

/-- Told of all entries of a list as new, a copy holds them beside what it held. -/
theorem find?_tellAll_added {es : List Entry} (hasc : es.Pairwise fun a b => a.1 < b.1)
    (hes : ∀ e ∈ es, e.2.ref? = some e.1) (s : Store) (r : ObjectRef) :
    (s.tellAll (es.map fun e => .added e.2)).find? r = (es.lookup r).or (s.find? r) := by
  induction es generalizing s with
  | nil => rfl
  | cons e es ih =>
    obtain ⟨hlt, hasc⟩ := List.pairwise_cons.mp hasc
    have he : e.2.ref? = some e.1 := hes e List.mem_cons_self
    have ih := ih hasc (fun x hx => hes x (List.mem_cons_of_mem _ hx)) (s.insert e.1 e.2)
    rw [List.map_cons, tellAll_cons, tell, keep_of_ref he, ih, find?_insert, Table.lookup_cons]
    by_cases hr : r = e.1
    · rw [if_pos hr, if_pos hr, hr, lookup_eq_none_of_lt hlt, Option.none_or, Option.some_or]
    · rw [if_neg hr, if_neg hr]

/-- Told of every object of a store as new, an empty copy is the store. -/
theorem tellAll_replay {s : Store} (hs : s.Keyed) :
    empty.tellAll (s.entries.map fun e => .added e.2) = s := by
  refine ext_find? fun r => ?_
  rw [find?_tellAll_added s.ascending (fun e he => hs.ref_of_mem he), find?_empty,
    Option.or_none]
  rfl

end Store

end KindCache
