import Mathlib.Data.List.Perm.Subperm
import KindCache.Document.Reader

/-!
# Equality of documents

Equality that ignores the order of keys is an equivalence of documents that hold
no key twice (`same_self`, `same_symm`, `same_trans`), and every document that is
read from a text is one (`distinct_of_read`).

An object with a repeated key would not even equal itself, since a field is
compared with the first one of its key.
-/

namespace KindCache

namespace Document

variable {as bs : List Field}

/-- The comparison of fields in terms of their keys: each one on the left has its like on
the right. -/
theorem sameFields_iff : sameFields as bs = true ↔
    ∀ f ∈ as, ∃ b, bs.lookup f.1 = some b ∧ f.2.same b = true := by
  induction as with
  | nil => exact iff_of_true rfl fun _ hf => absurd hf List.not_mem_nil
  | cons f as ih =>
    obtain ⟨k, a⟩ := f
    rw [sameFields, Bool.and_eq_true, ih, List.forall_mem_cons]
    refine and_congr_left fun _ => ?_
    rcases bs.lookup k with _ | b <;> simp

theorem distinctFields_iff : DistinctFields as ↔ ∀ f ∈ as, f.2.Distinct := by
  induction as with
  | nil => exact iff_of_true trivial fun _ hf => absurd hf List.not_mem_nil
  | cons f as ih => rw [DistinctFields, ih, List.forall_mem_cons]

/-- Two objects with equally many keys, all distinct, have the same keys if the second one
has those of the first. So comparing from one side and counting is enough. -/
theorem exists_mem_of_keys (hlength : as.length = bs.length) (has : (as.map (·.1)).Nodup)
    (hkeys : ∀ f ∈ as, ∃ b, bs.lookup f.1 = some b) {f : Field} (hf : f ∈ bs) :
    ∃ a, (f.1, a) ∈ as := by
  have hsub : as.map (·.1) ⊆ bs.map (·.1) := by
    intro k hk
    obtain ⟨e, he, rfl⟩ := List.mem_map.mp hk
    obtain ⟨b, hb⟩ := hkeys e he
    exact List.mem_map.mpr ⟨_, Table.mem_of_lookup hb, rfl⟩
  have hperm : (as.map (·.1)).Perm (bs.map (·.1)) := by
    refine (List.subperm_of_subset has hsub).perm_of_length_le (Nat.le_of_eq ?_)
    rw [List.length_map, List.length_map, hlength]
  obtain ⟨e, he, hkey⟩ := List.mem_map.mp (hperm.mem_iff.mpr (List.mem_map.mpr ⟨f, hf, rfl⟩))
  exact ⟨e.2, hkey ▸ he⟩

/-! ## Reflexivity -/

mutual

/-- A document equals itself. This is where a repeated key would get in the way, for its
second field would be compared with the first. -/
theorem same_self : ∀ d : Document, d.Distinct → d.same d = true
  | .null, _ => rfl
  | .bool _, _ | .integer _, _ | .text _, _ => by simp [same]
  | .float _, _ => by simp [same, Decimal.Binary64.sameValue]
  | .array items, h => by
    rw [same]
    exact sameItems_self items h
  | .object fields, h => by
    obtain ⟨hkeys, hvalues⟩ := h
    rw [same, beq_self_eq_true, Bool.true_and, sameFields_iff]
    intro f hf
    exact ⟨f.2, Table.lookup_of_mem hkeys hf, sameValues_self fields hvalues f hf⟩

theorem sameItems_self : ∀ ds : List Document, DistinctItems ds → sameItems ds ds = true
  | [], _ => rfl
  | d :: ds, h => by
    rw [sameItems, same_self d h.1, sameItems_self ds h.2]
    rfl

theorem sameValues_self : ∀ fs : List Field, DistinctFields fs →
    ∀ f ∈ fs, f.2.same f.2 = true
  | [], _, _, hf => absurd hf List.not_mem_nil
  | (_, d) :: fs, h, f, hf => by
    rcases List.mem_cons.mp hf with rfl | hf
    · exact same_self d h.1
    · exact sameValues_self fs h.2 f hf

end

/-! ## Symmetry -/

mutual

/-- Equality is symmetric. For objects the fields are compared from the other side now,
which `exists_mem_of_keys` makes up for. -/
theorem same_symm : ∀ a b : Document, a.Distinct → b.Distinct → a.same b = true →
    b.same a = true
  | .null, b, _, _, h => by cases b <;> simp_all [same]
  | .bool _, b, _, _, h => by cases b <;> simp_all [same]
  | .integer _, b, _, _, h => by cases b <;> simp_all [same]
  | .float _, b, _, _, h => by
    cases b <;> simp_all [same, Decimal.Binary64.sameValue]
    exact h.imp Eq.symm And.symm
  | .text _, b, _, _, h => by cases b <;> simp_all [same]
  | .array as, b, ha, hb, h => by
    cases b with
    | array bs =>
      rw [same] at h ⊢
      exact sameItems_symm as bs ha hb h
    | _ => simp [same] at h
  | .object as, b, ha, hb, h => by
    cases b with
    | object bs =>
      obtain ⟨hakeys, havalues⟩ := ha
      obtain ⟨hbkeys, hbvalues⟩ := hb
      rw [same, Bool.and_eq_true, sameFields_iff] at h
      obtain ⟨hlength, hfields⟩ := h
      have hlength : as.length = bs.length := eq_of_beq hlength
      rw [same, hlength, beq_self_eq_true, Bool.true_and, sameFields_iff]
      intro f hf
      -- the key of a field of the second object is one of the first object too
      obtain ⟨a, hmem⟩ := exists_mem_of_keys hlength hakeys
        (fun e he => (hfields e he).imp fun _ hb => hb.1) hf
      obtain ⟨b, hlookup, hsame⟩ := hfields _ hmem
      obtain rfl : b = f.2 :=
        Option.some.inj (hlookup.symm.trans (Table.lookup_of_mem hbkeys hf))
      exact ⟨a, Table.lookup_of_mem hakeys hmem,
        sameValues_symm as havalues _ hmem _ (distinctFields_iff.mp hbvalues f hf) hsame⟩
    | _ => simp [same] at h

theorem sameItems_symm : ∀ as bs : List Document, DistinctItems as → DistinctItems bs →
    sameItems as bs = true → sameItems bs as = true
  | [], [], _, _, _ => rfl
  | a :: as, b :: bs, ha, hb, h => by
    rw [sameItems, Bool.and_eq_true] at h ⊢
    exact ⟨same_symm a b ha.1 hb.1 h.1, sameItems_symm as bs ha.2 hb.2 h.2⟩
  | [], _ :: _, _, _, h => by simp [sameItems] at h
  | _ :: _, [], _, _, h => by simp [sameItems] at h

theorem sameValues_symm : ∀ fs : List Field, DistinctFields fs → ∀ f ∈ fs, ∀ b : Document,
    b.Distinct → f.2.same b = true → b.same f.2 = true
  | [], _, _, hf, _, _, _ => absurd hf List.not_mem_nil
  | (_, d) :: fs, hd, f, hf, b, hb, h => by
    rcases List.mem_cons.mp hf with rfl | hf
    · exact same_symm d b hd.1 hb h
    · exact sameValues_symm fs hd.2 f hf b hb h

end

/-! ## Transitivity -/

mutual

/-- Equality is transitive, whatever the keys. Each field of the first has its like in the
second, and this one in the third. -/
theorem same_trans : ∀ a b c : Document, a.same b = true → b.same c = true → a.same c = true
  | .null, b, c, h, h' => by cases b <;> cases c <;> simp_all [same]
  | .bool _, b, c, h, h' => by cases b <;> cases c <;> simp_all [same]
  | .integer _, b, c, h, h' => by cases b <;> cases c <;> simp_all [same]
  | .float _, b, c, h, h' => by
    cases b <;> cases c <;> simp_all [same, Decimal.Binary64.sameValue]
    grind
  | .text _, b, c, h, h' => by cases b <;> cases c <;> simp_all [same]
  | .array as, b, c, h, h' => by
    cases b with
    | array bs =>
      cases c with
      | array cs =>
        rw [same] at h h' ⊢
        exact sameItems_trans as bs cs h h'
      | _ => simp [same] at h'
    | _ => simp [same] at h
  | .object as, b, c, h, h' => by
    cases b with
    | object bs =>
      cases c with
      | object cs =>
        rw [same, Bool.and_eq_true, sameFields_iff] at h h' ⊢
        obtain ⟨hlength, hfields⟩ := h
        obtain ⟨hlength', hfields'⟩ := h'
        refine ⟨?_, fun f hf => ?_⟩
        · rw [beq_iff_eq] at hlength hlength' ⊢
          exact hlength.trans hlength'
        · obtain ⟨b, hb, hsame⟩ := hfields f hf
          obtain ⟨c, hc, hsame'⟩ := hfields' _ (Table.mem_of_lookup hb)
          exact ⟨c, hc, sameValues_trans as f hf b c hsame hsame'⟩
      | _ => simp [same] at h'
    | _ => simp [same] at h

theorem sameItems_trans : ∀ as bs cs : List Document, sameItems as bs = true →
    sameItems bs cs = true → sameItems as cs = true
  | [], [], [], _, _ => rfl
  | a :: as, b :: bs, c :: cs, h, h' => by
    rw [sameItems, Bool.and_eq_true] at h h' ⊢
    exact ⟨same_trans a b c h.1 h'.1, sameItems_trans as bs cs h.2 h'.2⟩
  | [], [], _ :: _, _, h' => by simp [sameItems] at h'
  | [], _ :: _, _, h, _ => by simp [sameItems] at h
  | _ :: _, [], _, h, _ => by simp [sameItems] at h
  | _ :: _, _ :: _, [], _, h' => by simp [sameItems] at h'

theorem sameValues_trans : ∀ fs : List Field, ∀ f ∈ fs, ∀ b c : Document,
    f.2.same b = true → b.same c = true → f.2.same c = true
  | [], _, hf, _, _, _, _ => absurd hf List.not_mem_nil
  | (_, d) :: fs, f, hf, b, c, h, h' => by
    rcases List.mem_cons.mp hf with rfl | hf
    · exact same_trans d b c h h'
    · exact sameValues_trans fs f hf b c h h'

end

/-! ## Documents that are read -/

/-- Setting a key keeps keys distinct, and brings in no value but the one that is set. -/
theorem distinct_put (key : String) {d : Document} {fields : List Field}
    (h : (Document.object fields).Distinct) (hd : d.Distinct) :
    (Document.object (Table.put key d fields)).Distinct := by
  refine ⟨Table.nodup_keys_put h.1, distinctFields_iff.mpr fun f hf => ?_⟩
  rcases Table.mem_put hf with rfl | hf
  · exact hd
  · exact distinctFields_iff.mp h.2 f hf

/-- A number holds no keys. -/
theorem distinct_of_readUnsigned {negative : Bool} {cs rest : List Char} {d : Document}
    (h : readUnsigned? negative cs = some (d, rest)) : d.Distinct := by
  unfold readUnsigned? at h
  dsimp only at h
  split at h
  · cases h
  · obtain ⟨⟨fraction, rest₁⟩, -, h⟩ := Option.bind_eq_some_iff.mp h
    obtain ⟨⟨power, rest₂⟩, -, h⟩ := Option.bind_eq_some_iff.mp h
    split at h
    · cases h
      trivial
    · obtain ⟨x, hx, h⟩ := Option.bind_eq_some_iff.mp h
      obtain ⟨y, -, hx⟩ := Option.bind_eq_some_iff.mp hx
      obtain ⟨z, -, hx⟩ := Option.bind_eq_some_iff.mp hx
      cases hx
      cases h
      trivial

theorem distinct_of_readNumber {cs rest : List Char} {d : Document}
    (h : readNumber? cs = some (d, rest)) : d.Distinct := by
  unfold readNumber? at h
  split at h <;> exact distinct_of_readUnsigned h

/-- Whatever is read in so many steps holds no key twice. The fields of an object are read
onto those that were read before, so these come into the statement. -/
structure ReadsDistinct (n : Nat) : Prop where
  value : ∀ {cs rest d}, readValue? n cs = some (d, rest) → d.Distinct
  items : ∀ {cs rest ds}, readItems? n cs = some (ds, rest) → (Document.array ds).Distinct
  fields : ∀ {sofar cs rest fields}, readFields? n sofar cs = some (fields, rest) →
    (Document.object sofar).Distinct → (Document.object fields).Distinct

namespace ReadsDistinct

variable {n : Nat} {cs rest : List Char}

/-- One more step at the start of a value: an array and an object are read in the steps that
are left. -/
theorem value_succ (ih : ReadsDistinct n) {d : Document}
    (h : readValue? (n + 1) cs = some (d, rest)) : d.Distinct := by
  unfold readValue? at h
  split at h
  · cases h
    trivial
  · cases h
    trivial
  · cases h
    trivial
  · obtain ⟨⟨s, rest'⟩, -, h⟩ := Option.bind_eq_some_iff.mp h
    cases h
    trivial
  · split at h
    · cases h
      trivial
    · obtain ⟨⟨ds, rest'⟩, hds, h⟩ := Option.bind_eq_some_iff.mp h
      cases h
      exact ih.items hds
  · split at h
    · cases h
      exact ⟨List.nodup_nil, trivial⟩
    · obtain ⟨⟨fields, rest'⟩, hfs, h⟩ := Option.bind_eq_some_iff.mp h
      cases h
      exact ih.fields hfs ⟨List.nodup_nil, trivial⟩
  · exact distinct_of_readNumber h

theorem items_succ (ih : ReadsDistinct n) {ds : List Document}
    (h : readItems? (n + 1) cs = some (ds, rest)) : (Document.array ds).Distinct := by
  unfold readItems? at h
  obtain ⟨⟨d, rest₁⟩, hd, h⟩ := Option.bind_eq_some_iff.mp h
  have hd := ih.value hd
  dsimp only at h
  split at h
  · obtain ⟨⟨ds', rest₂⟩, hds, h⟩ := Option.bind_eq_some_iff.mp h
    cases h
    exact ⟨hd, ih.items hds⟩
  · cases h
    exact ⟨hd, trivial⟩
  · cases h

/-- One more step at a field: its value is read, and the key is set. A key that comes twice
is set twice, and the later value stays. -/
theorem fields_succ (ih : ReadsDistinct n) {sofar fields : List Field}
    (h : readFields? (n + 1) sofar cs = some (fields, rest))
    (hsofar : (Document.object sofar).Distinct) : (Document.object fields).Distinct := by
  unfold readFields? at h
  split at h
  · obtain ⟨⟨key, rest₁⟩, -, h⟩ := Option.bind_eq_some_iff.mp h
    dsimp only at h
    split at h
    · obtain ⟨⟨d, rest₂⟩, hd, h⟩ := Option.bind_eq_some_iff.mp h
      -- a key that comes again replaces the value that it had
      have hput := distinct_put key hsofar (ih.value hd)
      dsimp only at h
      split at h
      · exact ih.fields h hput
      · cases h
        exact hput
      · cases h
    · cases h
  · cases h

end ReadsDistinct

/-- By induction on the steps, for values, items and fields together. -/
theorem readsDistinct (n : Nat) : ReadsDistinct n := by
  induction n with
  | zero =>
    refine ⟨fun h => ?_, fun h => ?_, fun h => ?_⟩
    · simp [readValue?] at h
    · simp [readItems?] at h
    · simp [readFields?] at h
  | succ n ih => exact ⟨ih.value_succ, ih.items_succ, ih.fields_succ⟩

/-- **A document that is read holds no key twice**, whatever the text. So equality is an
equivalence of all documents that ever come in as texts. -/
theorem distinct_of_read {s : String} {d : Document} (h : read? s = some d) : d.Distinct := by
  obtain ⟨⟨e, rest⟩, he, h⟩ := Option.bind_eq_some_iff.mp h
  dsimp only at h
  split at h
  · cases h
    exact (readsDistinct _).value he
  · cases h

end Document

end KindCache
