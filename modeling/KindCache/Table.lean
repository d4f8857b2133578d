/-!
# Tables

A `Table` is a list of keys with their values, each key once, in the order in
which the keys were first set. It is read with `List.lookup`.

`Table.put` sets a key, which keeps its place if it is there already. What it does,
and what taking out a key does, is one equation through `List.lookup` each. That each key
is there once is preserved by it (`nodup_keys_put`), and makes an entry the one that is
looked up (`lookup_of_mem`).
-/

namespace KindCache

/-- Keys with their values. -/
abbrev Table (κ α : Type) := List (κ × α)

namespace Table

variable {κ α : Type} [DecidableEq κ]

/-- Set a key: in place if the key is there, at the end otherwise. -/
def put (key : κ) (value : α) : Table κ α → Table κ α
  | [] => [(key, value)]
  | (k, v) :: rest =>
    if k = key then (k, value) :: rest else (k, v) :: put key value rest

/-- The keys of a table. -/
def keys (t : Table κ α) : List κ :=
  t.map (·.1)

/-! ## The equation through the view -/

theorem lookup_cons (key k : κ) (v : α) (t : Table κ α) :
    List.lookup key ((k, v) :: t) = if key = k then some v else t.lookup key := by
  by_cases h : key = k
  · simp [h]
  · have hk : (key == k) = false := by simpa using h
    simp [List.lookup_cons, hk, h]

theorem lookup_put (key k : κ) (v : α) (t : Table κ α) :
    (put k v t).lookup key = if key = k then some v else t.lookup key := by
  induction t with
  | nil => rw [put, lookup_cons]
  | cons e t ih =>
    obtain ⟨k', v'⟩ := e
    unfold put
    split
    · next h => subst h; rw [lookup_cons, lookup_cons]; split <;> rfl
    · next h =>
      rw [lookup_cons, lookup_cons, ih]
      by_cases hk : key = k
      · have hne : key ≠ k' := fun e => h (e.symm.trans hk)
        rw [if_neg hne, if_pos hk, if_pos hk]
      · rw [if_neg hk, if_neg hk]

/-- A new key comes last. -/
theorem put_of_absent {k : κ} {t : Table κ α} (h : k ∉ keys t) (v : α) :
    put k v t = t ++ [(k, v)] := by
  induction t with
  | nil => rfl
  | cons e t ih =>
    obtain ⟨k', v'⟩ := e
    obtain ⟨hk, ht⟩ := List.ne_and_not_mem_of_not_mem_cons h
    rw [put, if_neg fun he => hk he.symm, ih ht]
    rfl

/-- When a key is taken out, all others are looked up as before. -/
theorem lookup_filter_ne (key k : κ) (t : Table κ α) :
    (t.filter fun e => e.1 ≠ k).lookup key = if key = k then none else t.lookup key := by
  induction t with
  | nil => simp
  | cons e t ih =>
    obtain ⟨l, v⟩ := e
    by_cases hl : l = k
    · rw [List.filter_cons_of_neg (by simp [hl]), ih, lookup_cons, hl]
      split <;> rfl
    · rw [List.filter_cons_of_pos (by simp [hl]), lookup_cons, ih, lookup_cons]
      by_cases hkey : key = k
      · rw [if_pos hkey, if_pos hkey, if_neg fun h => hl (h.symm.trans hkey)]
      · rw [if_neg hkey, if_neg hkey]

/-- The keys are those under which something is looked up. -/
theorem mem_keys_iff {k : κ} {t : Table κ α} : k ∈ keys t ↔ (t.lookup k).isSome = true := by
  induction t with
  | nil => simp [keys]
  | cons e t ih =>
    rw [keys, List.map_cons, List.mem_cons, lookup_cons]
    split
    · next hk => simp [hk]
    · next hk =>
      rw [← ih]
      exact or_iff_right hk

/-! ## Each key once -/

section

variable {k k' : κ} {v : α} {t : Table κ α}

theorem mem_of_lookup (h : t.lookup k = some v) : (k, v) ∈ t := by
  obtain ⟨before, after, rfl, -⟩ := List.lookup_eq_some_iff.mp h
  exact List.mem_append_right _ List.mem_cons_self

/-- Where each key is there once, an entry is the one that is looked up; otherwise an earlier
one of its key would hide it. -/
theorem lookup_of_mem (hkeys : (keys t).Nodup) (h : (k, v) ∈ t) : t.lookup k = some v := by
  induction t with
  | nil => cases h
  | cons e t ih =>
    obtain ⟨l, w⟩ := e
    obtain ⟨hl, hkeys⟩ := List.nodup_cons.mp hkeys
    rw [lookup_cons]
    rcases List.mem_cons.mp h with heq | h
    · cases heq
      exact if_pos rfl
    · rw [if_neg fun he => hl (List.mem_map.mpr ⟨_, h, he⟩)]
      exact ih hkeys h

theorem mem_put {e : κ × α} (h : e ∈ put k v t) : e = (k, v) ∨ e ∈ t := by
  induction t with
  | nil => exact .inl (List.mem_singleton.mp h)
  | cons f t ih =>
    obtain ⟨l, w⟩ := f
    unfold put at h
    split at h
    · next hl =>
      rcases List.mem_cons.mp h with rfl | h
      · exact .inl (by rw [hl])
      · exact .inr (List.mem_cons_of_mem _ h)
    · rcases List.mem_cons.mp h with rfl | h
      · exact .inr List.mem_cons_self
      · exact (ih h).imp id (List.mem_cons_of_mem _)

theorem mem_keys_put : k' ∈ keys (put k v t) ↔ k' = k ∨ k' ∈ keys t := by
  rw [mem_keys_iff, mem_keys_iff, lookup_put]
  split
  · next hk => exact iff_of_true rfl (.inl hk)
  · next hk => exact (or_iff_right hk).symm

/-- Setting a key keeps each key once: one that is there gets its new value in place. -/
theorem nodup_keys_put (h : (keys t).Nodup) : (keys (put k v t)).Nodup := by
  induction t with
  | nil => exact List.nodup_cons.mpr ⟨List.not_mem_nil, List.nodup_nil⟩
  | cons e t ih =>
    obtain ⟨l, w⟩ := e
    obtain ⟨hl, ht⟩ := List.nodup_cons.mp h
    unfold put
    split
    · exact h
    · next hne =>
      refine List.nodup_cons.mpr ⟨fun hmem => ?_, ih ht⟩
      rcases mem_keys_put.mp hmem with hsame | hmem
      · exact hne hsame
      · exact hl hmem

end

end Table

end KindCache
