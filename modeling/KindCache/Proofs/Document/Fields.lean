import Mathlib.Data.List.Nodup
import KindCache.Proofs.Document.Equality

/-!
# Setting and removing keys

What the two operations on the fields of an object do, as long as no key is repeated.

* `lookup_putAbsent` — a key is set where it is missing, and everything else stays;
* `dropSwapping_perm`, `lookup_dropSwapping` — a key is removed, and everything else stays, if
  in another order;
* `distinct_putAbsent`, `distinct_dropSwapping` — no key is repeated afterwards either.
-/

namespace KindCache

namespace Field

variable {fields more : List Field} {key k : String} {value : Document}

/-- Among distinct keys, looking up and being there are the same. -/
theorem lookup_eq_some_iff (h : (fields.map (·.1)).Nodup) :
    fields.lookup k = some value ↔ (k, value) ∈ fields :=
  ⟨Table.mem_of_lookup, Table.lookup_of_mem h⟩

/-- The order of distinct keys does not matter to what is looked up. This is how removing,
which changes the order, is brought back to filtering. -/
theorem lookup_perm (h : (fields.map (·.1)).Nodup) (hperm : fields.Perm more) (k : String) :
    fields.lookup k = more.lookup k := by
  have hmore : (more.map (·.1)).Nodup := (hperm.map _).nodup_iff.mp h
  refine Option.ext fun value => ?_
  rw [lookup_eq_some_iff h, lookup_eq_some_iff hmore, hperm.mem_iff]

theorem mem_keys_of_lookup (h : fields.lookup key = some value) : key ∈ fields.map (·.1) :=
  List.mem_map_of_mem (Table.mem_of_lookup h)

theorem lookup_eq_none_iff : fields.lookup key = none ↔ key ∉ fields.map (·.1) := by
  show _ ↔ key ∉ Table.keys fields
  rw [Table.mem_keys_iff, Bool.not_eq_true, Option.isSome_eq_false_iff, Option.isNone_iff_eq_none]

/-- A key that is not there is not taken out. -/
theorem filter_of_absent (h : key ∉ fields.map (·.1)) :
    (fields.filter fun f => f.1 ≠ key) = fields :=
  List.filter_eq_self.mpr fun _ hf => decide_eq_true fun he => h (he ▸ List.mem_map_of_mem hf)

/-! ## Setting -/

/-- A key is set where it is missing. What was there comes first, so it is not changed. -/
theorem lookup_putAbsent (key k : String) (value : Document) (fields : List Field) :
    (putAbsent key value fields).lookup k =
      (fields.lookup k).or (if k = key then some value else none) := by
  unfold putAbsent
  split
  · next v hv =>
    split
    · next hk => rw [hk, hv, Option.some_or]
    · rw [Option.or_none]
  · rw [List.lookup_append, Table.lookup_cons]
    rfl

theorem putAbsent_of_present (h : (fields.lookup key).isSome = true) :
    putAbsent key value fields = fields := by
  obtain ⟨v, hv⟩ := Option.isSome_iff_exists.mp h
  simp [putAbsent, hv]

/-- A key is put in only if it is not there, so it does not come to be there twice. -/
theorem distinct_putAbsent (h : (Document.object fields).Distinct) (hvalue : value.Distinct) :
    (Document.object (putAbsent key value fields)).Distinct := by
  unfold putAbsent
  split
  · exact h
  · next hnone =>
    refine ⟨?_, Document.distinctFields_iff.mpr fun f hf => ?_⟩
    · rw [List.map_append, List.map_singleton, List.nodup_append]
      refine ⟨h.1, List.nodup_singleton key, fun k hk k' hk' he => ?_⟩
      obtain rfl := List.mem_singleton.mp hk'
      exact lookup_eq_none_iff.mp hnone (he ▸ hk)
    · rcases List.mem_append.mp hf with hf | hf
      · exact Document.distinctFields_iff.mp h.2 f hf
      · exact List.mem_singleton.mp hf ▸ hvalue

/-! ## Removing -/

/-- The field that is put in the place of another one is there instead of it. The removed
field leaves a gap that the last one fills, and this lemma is about the filling. -/
theorem swapIn_perm (other : Field) (hkeys : (fields.map (·.1)).Nodup)
    (hkey : key ∈ fields.map (·.1)) :
    (swapIn key other fields).Perm (other :: fields.filter fun f => f.1 ≠ key) := by
  induction fields with
  | nil => cases hkey
  | cons f fields ih =>
    obtain ⟨hf, hkeys⟩ := List.nodup_cons.mp hkeys
    unfold swapIn
    split
    · next he => rw [List.filter_cons_of_neg (by simp [he]), filter_of_absent (he ▸ hf)]
    · next he =>
      have hkey : key ∈ fields.map (·.1) :=
        (List.mem_cons.mp hkey).resolve_left fun h => he h.symm
      rw [List.filter_cons_of_pos (by simp [he])]
      exact ((ih hkeys hkey).cons f).trans (.swap other f _)

/-- **Removing a key leaves all other fields**, if in another order. The last field is taken
off, and put in the place of the one to remove unless it is that one itself. -/
theorem dropSwapping_perm (key : String) (hkeys : (fields.map (·.1)).Nodup) :
    (dropSwapping key fields).Perm (fields.filter fun f => f.1 ≠ key) := by
  unfold dropSwapping
  split
  · next value last hlookup hlast =>
    obtain ⟨front, rfl⟩ := List.getLast?_eq_some_iff.mp hlast
    rw [List.dropLast_concat]
    rw [List.map_append, List.map_singleton, List.nodup_append] at hkeys
    obtain ⟨hfront, -, hlastkey⟩ := hkeys
    rw [List.filter_append]
    split
    · next he =>
      have habsent : key ∉ front.map (·.1) :=
        fun h => hlastkey key h last.1 List.mem_cons_self he.symm
      rw [filter_of_absent habsent, List.filter_cons_of_neg (by simp [he]), List.filter_nil,
        List.append_nil]
    · next he =>
      have hkey : key ∈ front.map (·.1) := by
        have hmem := mem_keys_of_lookup hlookup
        rw [List.map_append, List.map_singleton, List.mem_append, List.mem_singleton] at hmem
        exact hmem.resolve_right fun h => he h.symm
      rw [List.filter_cons_of_pos (by simp [he]), List.filter_nil]
      exact (swapIn_perm last hfront hkey).trans (List.perm_append_singleton last _).symm
  · next hnone =>
    have hkey : key ∉ fields.map (·.1) := by
      intro hmem
      obtain ⟨f, hf, rfl⟩ := List.mem_map.mp hmem
      obtain ⟨last, hlast⟩ : ∃ last, fields.getLast? = some last := by
        rw [← Option.ne_none_iff_exists', ne_eq, List.getLast?_eq_none_iff]
        exact List.ne_nil_of_mem hf
      exact hnone _ _ (Table.lookup_of_mem hkeys hf) hlast
    rw [filter_of_absent hkey]

/-- So what is looked up afterwards is what was there before, except under the key
itself. -/
theorem lookup_dropSwapping (hkeys : (fields.map (·.1)).Nodup) (key k : String) :
    (dropSwapping key fields).lookup k = if k = key then none else fields.lookup k := by
  have hperm := dropSwapping_perm key hkeys
  have hfilter : ((fields.filter fun f => f.1 ≠ key).map (·.1)).Nodup :=
    hkeys.sublist (List.filter_sublist.map _)
  rw [lookup_perm ((hperm.map _).nodup_iff.mpr hfilter) hperm, Table.lookup_filter_ne]

theorem dropSwapping_of_absent (h : fields.lookup key = none) :
    dropSwapping key fields = fields := by
  simp [dropSwapping, h]

/-- A rearrangement of some of the fields has no key twice. -/
theorem distinct_dropSwapping (h : (Document.object fields).Distinct) :
    (Document.object (dropSwapping key fields)).Distinct := by
  have hperm := dropSwapping_perm key h.1
  refine ⟨?_, Document.distinctFields_iff.mpr fun f hf => ?_⟩
  · exact (hperm.map _).nodup_iff.mpr (h.1.sublist (List.filter_sublist.map _))
  · exact Document.distinctFields_iff.mp h.2 f (List.mem_of_mem_filter (hperm.mem_iff.mp hf))

end Field

end KindCache
