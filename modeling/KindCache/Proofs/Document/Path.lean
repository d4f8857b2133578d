import Mathlib.Data.List.Perm.Basic
import KindCache.Object
import KindCache.Proofs.Document.Equality

/-!
# Paths into documents

A document is what stands at the ends of all paths into it, as long as the order of keys does
not matter.

* `Document.at?` — what stands at the end of a path of keys and positions;
* `Document.outline` — the same without what is inside it: at each path a null, a truth value,
  a number or a text, or the mere fact that an array or an object is there;
* `same_iff_outline` — documents without repeated keys are equal exactly if their outlines are.
-/

namespace KindCache

namespace Document

/-- A step into a document: to the value under a key, or to an item of an array. -/
inductive Step where
  | key (k : String)
  | item (i : Nat)
deriving DecidableEq

/-- What one step leads to. -/
def child? : Document → Step → Option Document
  | .object fields, .key k => fields.lookup k
  | .array items, .item i => items[i]?
  | _, _ => none

/-- What stands at the end of a path. -/
def at? : List Step → Document → Option Document
  | [], d => some d
  | s :: path, d => (d.child? s).bind (at? path)

/-- A document without what is inside it, and zero without its sign. -/
def bare : Document → Document
  | .float x => .float (if x.significand = 0 then .zero false else x)
  | .array _ => .array []
  | .object _ => .object []
  | d => d

/-- What stands at the end of a path, without what is inside it. -/
def outline (d : Document) (path : List Step) : Option Document :=
  (d.at? path).map bare

variable {a b c d : Document} {s : Step} {path more : List Step}

theorem at?_cons (s : Step) (path : List Step) (d : Document) :
    d.at? (s :: path) = (d.child? s).bind (at? path) := rfl

@[simp] theorem at?_singleton (s : Step) (d : Document) : d.at? [s] = d.child? s :=
  Option.bind_fun_some _

theorem get?_eq_at? (key : String) (d : Document) : d.get? key = d.at? [.key key] := by
  rw [at?_singleton]
  cases d <;> rfl

/-- The accessors of metadata follow a path of two keys. -/
theorem get?_get?_eq_at? (key key' : String) (d : Document) :
    (d.get? key).bind (·.get? key') = d.at? [.key key, .key key'] := by
  rw [at?_cons, get?_eq_at?, at?_singleton]
  exact Option.bind_congr fun c _ => get?_eq_at? key' c

theorem metaText?_eq_at? (field : String) (d : Document) :
    d.metaText? field = (d.at? [.key "metadata", .key field]).bind text? := by
  rw [← get?_get?_eq_at?, Option.bind_assoc]
  rfl

/-- A path can be followed in two parts. -/
theorem at?_append (path more : List Step) (d : Document) :
    d.at? (path ++ more) = (d.at? path).bind (at? more) := by
  induction path generalizing d with
  | nil => rfl
  | cons s path ih =>
    rw [List.cons_append, at?_cons, at?_cons, Option.bind_assoc]
    exact Option.bind_congr fun c _ => ih c

/-- There is nothing beyond the end of a path that leads nowhere. -/
theorem at?_eq_none_of_prefix (h : d.at? path = none) (hmore : path <+: more) :
    d.at? more = none := by
  obtain ⟨rest, rfl⟩ := hmore
  rw [at?_append, h]
  rfl

@[simp] theorem outline_nil (d : Document) : d.outline [] = some d.bare := rfl

theorem outline_cons (s : Step) (path : List Step) (d : Document) :
    d.outline (s :: path) = (d.child? s).bind (·.outline path) := by
  rw [outline, at?_cons, Option.map_bind]
  rfl

/-- A step that leads somewhere leads there for the outline too. So outlines tell which keys
an object has and how long an array is. -/
theorem isSome_outline_singleton (d : Document) (s : Step) :
    (d.outline [s]).isSome = (d.child? s).isSome := by
  rw [outline_cons]
  cases d.child? s <;> rfl

theorem distinctItems_iff {ds : List Document} : DistinctItems ds ↔ ∀ d ∈ ds, d.Distinct := by
  induction ds with
  | nil => exact iff_of_true trivial fun _ hd => absurd hd List.not_mem_nil
  | cons d ds ih => rw [DistinctItems, ih, List.forall_mem_cons]

theorem Distinct.child (h : d.Distinct) (hc : d.child? s = some c) : c.Distinct := by
  unfold child? at hc
  split at hc
  · exact distinctFields_iff.mp h.2 _ (Table.mem_of_lookup hc)
  · exact distinctItems_iff.mp h _ (List.mem_of_getElem? hc)
  · cases hc

/-! ## Equal documents have one outline -/

/-- Equal documents are of one sort, and equal numbers and texts are the same but for the
sign of zero. -/
theorem bare_of_same (h : a.same b = true) : a.bare = b.bare := by
  cases a <;> cases b <;> simp_all [same, bare, Decimal.Binary64.sameValue]
  next x y =>
    rcases h with rfl | ⟨hx, hy⟩
    · rfl
    · rw [if_pos hx, if_pos hy]

/-- Equal arrays have equal items at each position, and equally many. -/
theorem getElem?_sameItems {as bs : List Document} (h : sameItems as bs = true) (i : Nat) :
    Option.Rel (fun a b => a.same b = true) as[i]? bs[i]? := by
  induction as generalizing bs i with
  | nil =>
    cases bs with
    | nil => exact .none
    | cons b bs => simp [sameItems] at h
  | cons a as ih =>
    cases bs with
    | nil => simp [sameItems] at h
    | cons b bs =>
      rw [sameItems, Bool.and_eq_true] at h
      cases i with
      | zero => exact .some h.1
      | succ i => exact ih h.2 i

/-- Equal objects have equal values under each key, and no other keys. This takes the count,
for the values are compared from one side only. -/
theorem lookup_same {as bs : List Field} (has : (as.map (·.1)).Nodup)
    (h : (Document.object as).same (.object bs) = true) (k : String) :
    Option.Rel (fun a b => a.same b = true) (as.lookup k) (bs.lookup k) := by
  rw [same, Bool.and_eq_true, sameFields_iff, beq_iff_eq] at h
  obtain ⟨hlength, hfields⟩ := h
  rcases hb : bs.lookup k with _ | b
  · rcases ha : as.lookup k with _ | a
    · exact .none
    · obtain ⟨b, hb', -⟩ := hfields _ (Table.mem_of_lookup ha)
      rw [hb] at hb'
      cases hb'
  · obtain ⟨a, hmem⟩ := exists_mem_of_keys hlength has
      (fun f hf => (hfields f hf).imp fun _ h => h.1) (Table.mem_of_lookup hb)
    obtain ⟨b', hb', hsame⟩ := hfields _ hmem
    obtain rfl : b' = b := Option.some.inj (hb'.symm.trans hb)
    rw [Table.lookup_of_mem has hmem]
    exact .some hsame

/-- Hence equal documents lead to equal ones by each step. -/
theorem child?_same (ha : a.Distinct) (h : a.same b = true) (s : Step) :
    Option.Rel (fun a b => a.same b = true) (a.child? s) (b.child? s) := by
  cases a <;> cases b <;> try simp [same] at h
  case array as bs =>
    cases s with
    | key k => exact .none
    | item i => exact getElem?_sameItems (by simpa [same] using h) i
  case object as bs =>
    cases s with
    | key k => exact lookup_same ha.1 (by simpa [same] using h) k
    | item i => exact .none
  all_goals exact .none

/-- By induction on the path. -/
theorem outline_of_same (ha : a.Distinct) (h : a.same b = true) (path : List Step) :
    a.outline path = b.outline path := by
  induction path generalizing a b with
  | nil => rw [outline_nil, outline_nil, bare_of_same h]
  | cons s path ih =>
    rw [outline_cons, outline_cons]
    have hchild := child?_same ha h s
    generalize b.child? s = y at hchild
    rcases hx : a.child? s with _ | a'
    · rw [hx] at hchild
      cases hchild
      rfl
    · rw [hx] at hchild
      cases hchild with
      | some hsame => exact ih (ha.child hx) hsame

/-! ## Documents with one outline are equal -/

/-- Documents with one outline have children with one outline, because a path into a child
is one into the document with a step in front. -/
theorem outline_children (h : a.outline = b.outline) (s : Step) :
    (a.child? s).map outline = (b.child? s).map outline := by
  have hthere : (a.child? s).isSome = (b.child? s).isSome := by
    rw [← isSome_outline_singleton, h, isSome_outline_singleton]
  rcases ha : a.child? s with _ | a' <;> rcases hb : b.child? s with _ | b'
  · rfl
  · rw [ha, hb] at hthere
    cases hthere
  · rw [ha, hb] at hthere
    cases hthere
  · refine congrArg some (funext fun path => ?_)
    have hpath := congrFun h (s :: path)
    rwa [outline_cons, outline_cons, ha, hb] at hpath

/-- Objects with one outline have the same keys, so equally many. Which keys there are is
seen at the paths of one step. -/
theorem length_of_outline {as bs : List Field} (has : (as.map (·.1)).Nodup)
    (hbs : (bs.map (·.1)).Nodup) (h : (Document.object as).outline = (Document.object bs).outline) :
    as.length = bs.length := by
  have hkeys : (as.map (·.1)).Perm (bs.map (·.1)) := by
    rw [List.perm_ext_iff_of_nodup has hbs]
    intro k
    show k ∈ Table.keys as ↔ k ∈ Table.keys bs
    rw [Table.mem_keys_iff, Table.mem_keys_iff]
    have hone : (as.lookup k).map outline = (bs.lookup k).map outline :=
      outline_children h (.key k)
    rw [← Option.isSome_map, hone, Option.isSome_map]
  simpa using hkeys.length_eq

mutual

/-- The induction is on the first document: what is compared at its top is the bare
document, and each child is compared by its own outline. -/
theorem same_of_outline : ∀ a b : Document, a.Distinct → b.Distinct → a.outline = b.outline →
    a.same b = true
  | .null, b, _, _, h => by
    have hbare := congrFun h []
    cases b <;> simp_all [same, bare]
  | .bool _, b, _, _, h => by
    have hbare := congrFun h []
    cases b <;> simp_all [same, bare]
  | .integer _, b, _, _, h => by
    have hbare := congrFun h []
    cases b <;> simp_all [same, bare]
  | .float x, b, _, _, h => by
    have hbare := congrFun h []
    cases b <;> simp_all [same, bare, Decimal.Binary64.sameValue]
    next y => grind [Decimal.Binary64.zero]
  | .text _, b, _, _, h => by
    have hbare := congrFun h []
    cases b <;> simp_all [same, bare]
  | .array as, b, ha, hb, h => by
    have hbare := congrFun h []
    cases b with
    | array bs => exact sameItems_of_outline as bs ha hb fun i => outline_children h (.item i)
    | _ => simp [bare] at hbare
  | .object as, b, ha, hb, h => by
    have hbare := congrFun h []
    cases b with
    | object bs =>
      rw [same, length_of_outline ha.1 hb.1 h, beq_self_eq_true, Bool.true_and, sameFields_iff]
      intro f hf
      have hchild : (as.lookup f.1).map outline = (bs.lookup f.1).map outline :=
        outline_children h (.key f.1)
      rw [Table.lookup_of_mem ha.1 hf, Option.map_some, eq_comm, Option.map_eq_some_iff] at hchild
      obtain ⟨b, hlookup, houtline⟩ := hchild
      have hdistinct : b.Distinct :=
        distinctFields_iff.mp hb.2 _ (Table.mem_of_lookup hlookup)
      exact ⟨b, hlookup, sameValues_of_outline as ha.2 f hf b hdistinct houtline.symm⟩
    | _ => simp [bare] at hbare

theorem sameItems_of_outline : ∀ as bs : List Document, DistinctItems as → DistinctItems bs →
    (∀ i : Nat, as[i]?.map outline = bs[i]?.map outline) → sameItems as bs = true
  | [], [], _, _, _ => rfl
  | a :: as, b :: bs, ha, hb, h => by
    rw [sameItems, Bool.and_eq_true]
    refine ⟨same_of_outline a b ha.1 hb.1 (by simpa using h 0), ?_⟩
    exact sameItems_of_outline as bs ha.2 hb.2 fun i => by simpa using h (i + 1)
  | [], _ :: _, _, _, h => by simpa using h 0
  | _ :: _, [], _, _, h => by simpa using h 0

theorem sameValues_of_outline : ∀ fs : List Field, DistinctFields fs → ∀ f ∈ fs, ∀ b : Document,
    b.Distinct → f.2.outline = b.outline → f.2.same b = true
  | [], _, _, hf, _, _, _ => absurd hf List.not_mem_nil
  | (_, d) :: fs, hd, f, hf, b, hb, h => by
    rcases List.mem_cons.mp hf with rfl | hf
    · exact same_of_outline d b hd.1 hb h
    · exact sameValues_of_outline fs hd.2 f hf b hb h

end

/-- **Documents are equal, whatever the order of their keys, exactly if the same stands at
the end of each path.** So a statement about an equal document can be made path by path. -/
theorem same_iff_outline (ha : a.Distinct) (hb : b.Distinct) :
    a.same b = true ↔ a.outline = b.outline :=
  ⟨fun h => funext (outline_of_same ha h), same_of_outline a b ha hb⟩

end Document

end KindCache
