import Mathlib.Data.List.Basic
import Mathlib.Data.List.Induction

/-!
# The numbers of items

The items of a list that only grows at its end are known by their numbers. When some of them are
left out of a run, the others get smaller numbers.

* `getElem?_snoc` — the numbers in a list with one more item;
* `rank` — the number that is left of a number: how many smaller ones are kept;
* `Keeps` — two lists that differ in items only that are not kept;
* `Thinned` — a list next to one that lacks the items that are not kept, with related items
  at corresponding places.
-/

namespace KindCache

/-! ## One more item -/

section Snoc

variable {α : Type} {as : List α} {a b : α} {i : Nat}

theorem getElem?_snoc_of_some (h : as[i]? = some b) : (as ++ [a])[i]? = some b := by
  obtain ⟨hi, -⟩ := List.getElem?_eq_some_iff.mp h
  rwa [List.getElem?_append_left hi]

/-- In a list with one more item, everything is an old item or the new one. So an invariant
of all items has to be shown of the new one only. -/
theorem getElem?_snoc (h : (as ++ [a])[i]? = some b) :
    as[i]? = some b ∨ (i = as.length ∧ b = a) := by
  rcases Nat.lt_or_ge i as.length with hi | hi
  · rw [List.getElem?_append_left hi] at h
    exact .inl h
  · rw [List.getElem?_append_right hi] at h
    obtain ⟨hlt, rfl⟩ := List.getElem?_eq_some_iff.mp h
    rw [List.length_singleton] at hlt
    exact .inr ⟨by omega, List.getElem_singleton ..⟩

end Snoc

/-- Where the number does not matter. -/
theorem mapIdx_unnumbered {α β : Type} (f : α → β) (as : List α) :
    as.mapIdx (fun _ a => f a) = as.map f := by
  refine List.ext_getElem? fun i => ?_
  rw [List.getElem?_mapIdx, List.getElem?_map]

/-- A count does not grow if nothing gets the property that has not had it. The items may be
changed by their numbers. -/
theorem countP_mapIdx_le {α β : Type} {f : Nat → α → β} {p : β → Bool} {q : α → Bool}
    {as : List α} (h : ∀ i a, p (f i a) = true → q a = true) :
    (as.mapIdx f).countP p ≤ as.countP q := by
  induction as using List.reverseRecOn with
  | nil => exact Nat.le_refl 0
  | append_singleton as a ih =>
    have hlast : [f as.length a].countP p ≤ [a].countP q := by
      rw [List.countP_singleton, List.countP_singleton]
      split
      · next hp => exact Nat.le_of_eq (if_pos (h _ _ hp)).symm
      · exact Nat.zero_le _
    rw [List.mapIdx_concat, List.countP_append, List.countP_append]
    exact Nat.add_le_add ih hlast

/-! ## Ranks -/

/-- What is kept is not what is left out, so a change to the one leaves the other alone. -/
theorem ne_of_kept {α : Type} {keep : α → Bool} {a b : α} (ha : keep a = false)
    (hb : keep b = true) : ¬ b = a := by
  rintro rfl
  rw [ha] at hb
  cases hb

/-- How many smaller numbers are kept. -/
def rank (keep : Nat → Bool) (n : Nat) : Nat :=
  (List.range n).countP keep

section

variable {keep : Nat → Bool} {n m : Nat}

/-- The rank grows by one behind each number that is kept, and by nothing behind the
others. -/
theorem rank_succ (keep : Nat → Bool) (n : Nat) :
    rank keep (n + 1) = rank keep n + if keep n = true then 1 else 0 := by
  rw [rank, rank, List.range_succ, List.countP_append, List.countP_singleton]

theorem rank_succ_kept (h : keep n = true) : rank keep (n + 1) = rank keep n + 1 := by
  rw [rank_succ, if_pos h]

theorem rank_succ_left (h : keep n = false) : rank keep (n + 1) = rank keep n := by
  rw [rank_succ, h]
  rfl

theorem rank_le (h : n ≤ m) : rank keep n ≤ rank keep m := by
  induction h with
  | refl => exact Nat.le_refl _
  | step h ih =>
    rw [rank_succ]
    omega

theorem rank_lt (h : n < m) (hn : keep n = true) : rank keep n < rank keep m := by
  have hle : rank keep (n + 1) ≤ rank keep m := rank_le h
  rw [rank_succ_kept hn] at hle
  exact hle

/-- Numbers that are kept stay different. So they can be told apart in the run without the
others as well. -/
theorem rank_inj (hn : keep n = true) (hm : keep m = true) :
    rank keep n = rank keep m ↔ n = m := by
  constructor
  · intro heq
    rcases Nat.lt_trichotomy n m with h | h | h
    · exact absurd heq (Nat.ne_of_lt (rank_lt h hn))
    · exact h
    · exact absurd heq.symm (Nat.ne_of_lt (rank_lt h hm))
  · rintro rfl
    rfl

end

/-- Every number below the rank is the rank of one that is kept: no number is left out in
the new list. -/
theorem exists_rank_eq {j : Nat} (h : j < rank keep n) :
    ∃ i < n, keep i = true ∧ rank keep i = j := by
  induction n with
  | zero => exact absurd h (Nat.not_lt_zero j)
  | succ n ih =>
    rcases Nat.lt_or_ge j (rank keep n) with hlt | hge
    · obtain ⟨i, hi, hrest⟩ := ih hlt
      exact ⟨i, Nat.lt_succ_of_lt hi, hrest⟩
    · rcases hkeep : keep n with _ | _
      · rw [rank_succ_left hkeep] at h
        exact absurd h (Nat.not_lt_of_le hge)
      · rw [rank_succ_kept hkeep] at h
        exact ⟨n, Nat.lt_succ_self n, hkeep, Nat.le_antisymm hge (Nat.le_of_lt_succ h)⟩

/-! ## Lists that differ in what is not kept -/

/-- Two lists have the same items where items are kept, and as many. -/
structure Keeps {α : Type} (keep : Nat → Bool) (as bs : List α) : Prop where
  rank : rank keep bs.length = rank keep as.length
  get : ∀ i, keep i = true → bs[i]? = as[i]?

namespace Keeps

variable {α : Type} {keep : Nat → Bool} {as bs cs : List α} {i : Nat}

theorem refl (keep : Nat → Bool) (as : List α) : Keeps keep as as :=
  ⟨rfl, fun _ _ => rfl⟩

theorem trans (h : Keeps keep as bs) (h' : Keeps keep bs cs) : Keeps keep as cs :=
  ⟨h'.rank.trans h.rank, fun i hi => (h'.get i hi).trans (h.get i hi)⟩

/-- An item that is left out may be changed at will. -/
theorem modify (as : List α) (hi : keep i = false) (f : α → α) :
    Keeps keep as (as.modify i f) := by
  refine ⟨by rw [List.length_modify], ?_⟩
  intro j hj
  have hij : i ≠ j := Ne.symm (ne_of_kept hi hj)
  rw [List.getElem?_modify]
  simp [hij]

theorem set (as : List α) (hi : keep i = false) (a : α) : Keeps keep as (as.set i a) := by
  rw [List.set_eq_modify]
  exact modify as hi _

/-- An item that is left out may be added. The rank of the length stays, for the new number
is none that is kept. -/
theorem snoc (hkeep : keep as.length = false) (a : α) : Keeps keep as (as ++ [a]) := by
  refine ⟨?_, ?_⟩
  · rw [List.length_append, List.length_singleton, rank_succ_left hkeep]
  · intro i hi
    rcases Nat.lt_trichotomy i as.length with hlt | rfl | hgt
    · exact List.getElem?_append_left hlt
    · exact absurd rfl (ne_of_kept hkeep hi)
    · rw [List.getElem?_eq_none (Nat.le_of_lt hgt), List.getElem?_eq_none]
      rw [List.length_append, List.length_singleton]
      exact hgt

end Keeps

/-! ## Lists without some of their items -/

/-- The second list lacks the items of the first one that are not kept, and has related
items instead of the others. -/
structure Thinned {α : Type} (keep : Nat → Bool) (R : α → α → Prop) (as as' : List α) :
    Prop where
  length : as'.length = rank keep as.length
  get : ∀ (i : Nat) (a : α), as[i]? = some a → keep i = true →
    ∃ a', as'[rank keep i]? = some a' ∧ R a a'

namespace Thinned

variable {α : Type} {keep : Nat → Bool} {R : α → α → Prop} {as as' : List α} {a a' : α}
  {f f' : α → α} {i : Nat}

theorem nil (keep : Nat → Bool) (R : α → α → Prop) : Thinned keep R [] [] :=
  ⟨rfl, fun _ _ h => absurd h (Option.some_ne_none _).symm⟩

/-- What is not there is not there under its new number, since ranks do not get smaller. -/
theorem get_none (h : Thinned keep R as as') (hi : as[i]? = none) :
    as'[rank keep i]? = none := by
  refine List.getElem?_eq_none ?_
  rw [h.length]
  exact rank_le (List.getElem?_eq_none_iff.mp hi)

/-- A kept item at the end of the one list gets the number of a new item at the end of the
other, which is what the rank is for. -/
theorem snoc (h : Thinned keep R as as') (hkeep : keep as.length = true) (ha : R a a') :
    Thinned keep R (as ++ [a]) (as' ++ [a']) := by
  refine ⟨?_, ?_⟩
  · simp [h.length, rank_succ_kept hkeep]
  · intro i b hb hi
    rcases getElem?_snoc hb with hold | ⟨rfl, rfl⟩
    · obtain ⟨b', hb', hR⟩ := h.get i b hold hi
      exact ⟨b', getElem?_snoc_of_some hb', hR⟩
    · rw [← h.length]
      exact ⟨a', List.getElem?_concat_length .., ha⟩

/-- What is not kept does not matter, so anything may happen to it while the other list
stays as it is. -/
theorem left {bs : List α} (h : Thinned keep R as as') (hbs : Keeps keep as bs) :
    Thinned keep R bs as' := by
  refine ⟨h.length.trans hbs.rank.symm, ?_⟩
  intro i a ha hi
  exact h.get i a ((hbs.get i hi).symm.trans ha) hi

/-- An item and its counterpart may be changed side by side, if they stay related. -/
theorem modify (h : Thinned keep R as as') (hi : keep i = true)
    (hf : ∀ a a', as[i]? = some a → R a a' → R (f a) (f' a')) :
    Thinned keep R (as.modify i f) (as'.modify (rank keep i) f') := by
  refine ⟨?_, ?_⟩
  · simp [h.length]
  · intro j b hb hj
    rw [List.getElem?_modify] at hb ⊢
    obtain ⟨a, ha, rfl⟩ := Option.map_eq_some_iff.mp hb
    obtain ⟨a', ha', hR⟩ := h.get j a ha hj
    rw [ha']
    by_cases hij : i = j
    · subst hij
      rw [if_pos rfl]
      exact ⟨f' a', by simp, hf a a' ha hR⟩
    · have hne : ¬ rank keep i = rank keep j := mt (rank_inj hi hj).mp hij
      rw [if_neg hij]
      exact ⟨a', by simp [hne], hR⟩

theorem set (h : Thinned keep R as as') (hi : keep i = true) (ha : R a a') :
    Thinned keep R (as.set i a) (as'.set (rank keep i) a') := by
  rw [List.set_eq_modify, List.set_eq_modify]
  exact h.modify hi fun _ _ _ _ => ha

theorem map (h : Thinned keep R as as') (hf : ∀ a a', R a a' → R (f a) (f' a')) :
    Thinned keep R (as.map f) (as'.map f') := by
  refine ⟨?_, ?_⟩
  · simp [h.length]
  · intro i b hb hi
    rw [List.getElem?_map] at hb ⊢
    obtain ⟨a, ha, rfl⟩ := Option.map_eq_some_iff.mp hb
    obtain ⟨a', ha', hR⟩ := h.get i a ha hi
    exact ⟨f' a', by rw [ha']; rfl, hf a a' hR⟩

/-- Numbers may be kept with their items, if it depends on the item whether it is kept. -/
theorem filter {p : α → Bool} (h : ∀ (i : Nat) (a : α), as[i]? = some a → keep i = p a)
    (f : α → α) : Thinned keep (fun a a' => a' = f a) as ((as.filter p).map f) := by
  induction as using List.reverseRecOn with
  | nil => exact .nil keep _
  | append_singleton as a ih =>
    have hlast : keep as.length = p a := h _ a (List.getElem?_concat_length ..)
    have hbefore := ih fun i b hb => h i b (getElem?_snoc_of_some hb)
    rw [List.filter_append, List.map_append]
    rcases hp : p a with _ | _
    · simpa [hp] using hbefore.left (.snoc (hlast.trans hp) a)
    · simpa [hp] using hbefore.snoc (hlast.trans hp) rfl

/-- All items may be changed side by side, also depending on their numbers, which are not
the same in both lists. -/
theorem mapIdx {g g' : Nat → α → α} (h : Thinned keep R as as')
    (hg : ∀ i a a', keep i = true → as[i]? = some a → R a a' →
      R (g i a) (g' (rank keep i) a')) : Thinned keep R (as.mapIdx g) (as'.mapIdx g') := by
  refine ⟨?_, ?_⟩
  · simp [h.length]
  · intro i b hb hi
    rw [List.getElem?_mapIdx] at hb ⊢
    obtain ⟨a, ha, rfl⟩ := Option.map_eq_some_iff.mp hb
    obtain ⟨a', ha', hR⟩ := h.get i a ha hi
    exact ⟨g' (rank keep i) a', by rw [ha']; rfl, hg i a a' hi ha hR⟩

/-- Items that are the same are found under their new numbers. -/
theorem getElem?_eq (h : Thinned keep Eq as as') (hi : keep i = true) :
    as'[rank keep i]? = as[i]? := by
  rcases ha : as[i]? with _ | a
  · exact h.get_none ha
  · obtain ⟨a', ha', rfl⟩ := h.get i a ha hi
    exact ha'

/-- What is left is determined by what is kept. Every number of the new list is the rank of
an old one, so the items are given. -/
theorem unique {bs : List α} (h : Thinned keep Eq as as') (h' : Thinned keep Eq as bs) :
    as' = bs := by
  refine List.ext_getElem? fun j => ?_
  rcases Nat.lt_or_ge j (rank keep as.length) with hlt | hge
  · obtain ⟨i, -, hi, rfl⟩ := exists_rank_eq hlt
    rw [h.getElem?_eq hi, h'.getElem?_eq hi]
  · rw [List.getElem?_eq_none (h.length ▸ hge), List.getElem?_eq_none (h'.length ▸ hge)]

/-- If the items with a property are kept, they are what is left. Here the numbers are gone
from the statement. -/
theorem eq_filter {p : α → Bool} (h : Thinned keep Eq as as')
    (hp : ∀ (i : Nat) (a : α), as[i]? = some a → keep i = p a) : as' = as.filter p := by
  have hfilter := Thinned.filter hp id
  rw [List.map_id] at hfilter
  exact h.unique ⟨hfilter.length, fun i a ha hi =>
    let ⟨a', ha', hsame⟩ := hfilter.get i a ha hi
    ⟨a', ha', hsame.symm⟩⟩

end Thinned

/-- The numbers that are kept stand under their ranks. -/
theorem getElem?_filter_range {keep : Nat → Bool} {n m : Nat} (hn : keep n = true) (h : n < m) :
    ((List.range m).filter keep)[rank keep n]? = some n := by
  have hsame : ∀ i a, (List.range m)[i]? = some a → keep i = keep a := by
    intro i a ha
    obtain ⟨-, rfl⟩ := List.getElem?_eq_some_iff.mp ha
    rw [List.getElem_range]
  obtain ⟨a, ha, rfl⟩ := (Thinned.filter hsame id).get n n (List.getElem?_range h) hn
  rwa [List.map_id] at ha

end KindCache
