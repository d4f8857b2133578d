import Mathlib.Data.List.Forall2
import KindCache.ApiServer.Conversion
import KindCache.Proofs.Document.Fields
import KindCache.Proofs.Document.Path
import KindCache.Proofs.Store.Events

/-!
# What is kept of an object

An object that an API server sends is kept without the notes on its managed fields, and with
a type. Nothing else about it changes.

* `managed`, `typeFor`, `supplied` — the one place where something is taken away, and the two
  where something may be added;
* `at?_toObject`, `outline_toObject` — what stands at the end of each path of the document that
  is kept;
* `Kept`, `kept_toObject` — all that is promised of a document that is kept;
* `Converts`, `converts_event` — the same for an event, document by document.
-/

namespace KindCache.ApiServer.Conversion

open Document (Step)

/-- An object as it comes from an API server: no key stands in it twice. -/
structure Sent (d : Document) : Prop where
  distinct : d.Distinct
  object : ∃ fields, d = .object fields

/-- The place of the notes on managed fields. -/
def managed : List Step :=
  [.key "metadata", .key "managedFields"]

/-- What stands for a key that an object of a resource lacks. -/
def typeFor (r : Resource) (key : String) : Option Document :=
  if key = "apiVersion" then some (.text r.gvk.apiVersion)
  else if key = "kind" then some (.text r.gvk.kind)
  else none

/-- What stands at the end of a path if an object of a resource has nothing there. -/
def supplied (r : Resource) : List Step → Option Document
  | [.key key] => typeFor r key
  | _ => none

variable {r : Resource} {d c : Document} {fields : List Field} {key : String} {s : Step}
  {path : List Step}

/-- A type is a text, so that no path leads through it. -/
theorem typeFor_text (h : typeFor r key = some d) : ∃ t, d = .text t := by
  unfold typeFor at h
  split at h
  · exact ⟨_, (Option.some.inj h).symm⟩
  · split at h
    · exact ⟨_, (Option.some.inj h).symm⟩
    · cases h

/-- Texts are bare already: what is put in looks the same in the outline as in the
document. -/
theorem bare_supplied (r : Resource) (path : List Step) :
    (supplied r path).map Document.bare = supplied r path := by
  rcases hsupplied : supplied r path with _ | d
  · rfl
  · unfold supplied at hsupplied
    split at hsupplied
    · obtain ⟨t, rfl⟩ := typeFor_text hsupplied
      rfl
    · cases hsupplied

/-! ## Metadata -/

/-- Metadata lose one key and nothing else. That no key stands in them twice matters here,
since only the first such key would be dropped. -/
theorem child?_stripMetadata (hd : d.Distinct) (s : Step) :
    (stripMetadata d).child? s = if s = .key "managedFields" then none else d.child? s := by
  cases d with
  | object fields =>
    cases s with
    | key k =>
      show (Field.dropSwapping "managedFields" fields).lookup k = _
      rw [Field.lookup_dropSwapping hd.1]
      simp only [Step.key.injEq]
      rfl
    | item i => rfl
  | _ => cases s <;> simp [stripMetadata, Document.child?]

/-- Seen from above, metadata are metadata: the outline of the place itself does not tell
which keys there are. -/
theorem bare_stripMetadata (d : Document) : (stripMetadata d).bare = d.bare := by
  cases d <;> rfl

theorem distinct_stripMetadata (hd : d.Distinct) : (stripMetadata d).Distinct := by
  cases d with
  | object fields => exact Field.distinct_dropSwapping hd
  | _ => exact hd

theorem stripMetadata_of_absent (h : d.child? (.key "managedFields") = none) :
    stripMetadata d = d := by
  cases d with
  | object fields => exact congrArg _ (Field.dropSwapping_of_absent h)
  | _ => rfl

/-! ## The fields of an object -/

theorem keys_stripFields (fields : List Field) :
    (stripFields fields).map (·.1) = fields.map (·.1) := by
  rw [stripFields, List.map_map]
  refine List.map_congr_left fun f _ => ?_
  simp only [Function.comp]
  split <;> rfl

/-- Only what stands under `metadata` is changed, at whatever place among the fields. -/
theorem lookup_stripFields (key : String) (fields : List Field) :
    (stripFields fields).lookup key =
      (fields.lookup key).map fun d => if key = "metadata" then stripMetadata d else d := by
  induction fields with
  | nil => rfl
  | cons f fields ih =>
    obtain ⟨k, d⟩ := f
    have hcons : stripFields ((k, d) :: fields) =
        (k, if k = "metadata" then stripMetadata d else d) :: stripFields fields := by
      rw [stripFields, List.map_cons]
      dsimp only
      split <;> rfl
    rw [hcons, Table.lookup_cons, Table.lookup_cons, ih]
    split
    · next h => rw [h]; rfl
    · rfl

theorem distinct_stripFields (h : (Document.object fields).Distinct) :
    (Document.object (stripFields fields)).Distinct := by
  refine ⟨?_, Document.distinctFields_iff.mpr fun f hf => ?_⟩
  · rw [keys_stripFields]
    exact h.1
  · obtain ⟨g, hg, rfl⟩ := List.mem_map.mp hf
    have hdistinct := Document.distinctFields_iff.mp h.2 g hg
    dsimp only
    split
    · exact distinct_stripMetadata hdistinct
    · exact hdistinct

/-- Nothing is dropped from an object without notes on managed fields, so that what is kept
is not stripped any further. -/
theorem stripFields_of_absent (hkeys : (fields.map (·.1)).Nodup)
    (h : (Document.object fields).at? managed = none) : stripFields fields = fields := by
  refine (List.map_congr_left fun f hf => ?_).trans (List.map_id fields)
  obtain ⟨k, d⟩ := f
  dsimp only
  split
  · next hk =>
    subst hk
    have hchild : (Document.object fields).child? (.key "metadata") = some d :=
      Table.lookup_of_mem hkeys hf
    rw [managed, Document.at?_cons, hchild, Option.bind_some, Document.at?_singleton] at h
    rw [stripMetadata_of_absent h]
    rfl
  · rfl

/-- What stands under a key of a document that is kept: what the object has there, stripped
if it is the metadata, and else a type. The statements about paths below go through this
one. -/
theorem child?_toObject (r : Resource) (fields : List Field) (key : String) :
    (toObject r (.object fields)).child? (.key key) =
      ((fields.lookup key).map fun d => if key = "metadata" then stripMetadata d else d).or
        (typeFor r key) := by
  show (Field.putAbsent "kind" _ (Field.putAbsent "apiVersion" _ (stripFields fields))).lookup
    key = _
  rw [Field.lookup_putAbsent, Field.lookup_putAbsent, lookup_stripFields, Option.or_assoc]
  congr 1
  unfold typeFor
  split
  · next h => simp [h]
  · simp

theorem distinct_toObject (hd : d.Distinct) : (toObject r d).Distinct := by
  cases d with
  | object fields =>
    exact Field.distinct_putAbsent (Field.distinct_putAbsent (distinct_stripFields hd) trivial)
      trivial
  | _ => exact hd

/-! ## Paths into a document that is kept -/

/-- The notes on managed fields are gone, whether there were any or not. -/
theorem at?_toObject_managed (hd : d.Distinct) : (toObject r d).at? managed = none := by
  cases d with
  | object fields =>
    rw [managed, Document.at?_cons, child?_toObject]
    rcases hm : fields.lookup "metadata" with _ | m
    · rfl
    · have hdistinct : m.Distinct := hd.child (s := .key "metadata") hm
      rw [Option.map_some, if_pos rfl, Option.some_or, Option.bind_some, Document.at?_singleton,
        child?_stripMetadata hdistinct, if_pos rfl]
  | _ => rfl

/-- A type that is put in is a text, which leads no further. So it makes no difference
whether the type is put in before a path is followed or after. -/
theorem bind_typeFor (there : Option Document) (key : String) (path : List Step) :
    (there.or (typeFor r key)).bind (Document.at? path) =
      (there.bind (Document.at? path)).or (supplied r (.key key :: path)) := by
  rcases path with _ | ⟨s, path⟩
  · show (there.or (typeFor r key)).bind some = (there.bind some).or (typeFor r key)
    rw [Option.bind_fun_some, Option.bind_fun_some]
  · show _ = (there.bind _).or none
    rw [Option.or_none]
    rcases there with _ | v
    · rcases htype : typeFor r key with _ | t
      · rfl
      · obtain ⟨t, rfl⟩ := typeFor_text htype
        rfl
    · rfl

/-- **Off the way to the notes on managed fields**, the document that is kept has what the
object has, down to the order of keys. Only a type may be put in. -/
theorem at?_toObject (hd : Sent d) (hoff : ¬ path <+: managed) (hbeyond : ¬ managed <+: path) :
    (toObject r d).at? path = (d.at? path).or (supplied r path) := by
  obtain ⟨hdistinct, fields, rfl⟩ := hd
  rcases path with _ | ⟨_ | i, rest⟩
  · exact absurd (List.nil_prefix) hoff
  · next key =>
    rw [Document.at?_cons, Document.at?_cons, child?_toObject, bind_typeFor]
    congr 1
    show _ = (fields.lookup key).bind _
    rcases hv : fields.lookup key with _ | v
    · rfl
    · rw [Option.map_some, Option.bind_some, Option.bind_some]
      split
      · next hkey =>
        -- inside the metadata, but at another field
        subst hkey
        rcases rest with _ | ⟨s, rest⟩
        · exact absurd (by decide) hoff
        · have hs : s ≠ .key "managedFields" := by
            rintro rfl
            exact hbeyond ⟨rest, rfl⟩
          have hdistinct : v.Distinct := hdistinct.child (s := .key "metadata") hv
          rw [Document.at?_cons, child?_stripMetadata hdistinct, if_neg hs, Document.at?_cons]
      · rfl
  · rfl

/-- There are two places on the way to the notes on managed fields, and at these the
document itself does change. -/
theorem on_the_way (hway : path <+: managed) (hbefore : ¬ managed <+: path) :
    path = [] ∨ path = [.key "metadata"] := by
  rcases path with _ | ⟨s, _ | ⟨s', rest⟩⟩
  · exact .inl rfl
  · obtain ⟨hs, -⟩ := List.cons_prefix_cons.mp hway
    exact .inr (by rw [hs])
  · have hall : s :: s' :: rest = managed :=
      hway.eq_of_length_le (Nat.le_add_left 2 rest.length)
    exact absurd (hall ▸ List.prefix_rfl) hbefore

/-- The document that is kept has what the object has, apart from the notes and but for the
order of keys. Only a type may be put in. The outline of a place does not tell the keys
below it, which is why this holds on the way to the notes as well. -/
theorem outline_toObject (hd : Sent d) (r : Resource) (path : List Step) :
    (toObject r d).outline path =
      if managed <+: path then none else (d.outline path).or (supplied r path) := by
  split
  · next h =>
    rw [Document.outline, Document.at?_eq_none_of_prefix (at?_toObject_managed hd.distinct) h]
    rfl
  · next hbeyond =>
    by_cases hway : path <+: managed
    · obtain ⟨-, fields, rfl⟩ := hd
      rcases on_the_way hway hbeyond with rfl | rfl
      · rfl
      · -- the metadata are what they were, with a field less
        have hnone : typeFor r "metadata" = none := by simp [typeFor]
        have hsupplied : supplied r [.key "metadata"] = none := hnone
        rw [Document.outline, Document.at?_singleton, child?_toObject, hnone, hsupplied,
          Option.or_none, Option.or_none, Document.outline, Document.at?_singleton]
        show _ = (fields.lookup "metadata").map Document.bare
        rcases fields.lookup "metadata" with _ | m
        · rfl
        · exact congrArg some (bare_stripMetadata m)
    · rw [Document.outline, at?_toObject hd hway hbeyond, Document.outline, Option.map_or,
        bare_supplied]

/-! ## All that is promised -/

/-- A document without the notes and with a type is kept as it is: there is nothing to drop,
and nothing to put in. -/
theorem toObject_of_kept (hd : Sent d) (hmanaged : d.at? managed = none)
    (hversion : (d.get? "apiVersion").isSome = true) (hkind : (d.get? "kind").isSome = true) :
    toObject r d = d := by
  obtain ⟨hdistinct, fields, rfl⟩ := hd
  have hstrip := stripFields_of_absent hdistinct.1 hmanaged
  show Document.object (Field.putAbsent "kind" _ (Field.putAbsent "apiVersion" _
    (stripFields fields))) = _
  rw [hstrip, Field.putAbsent_of_present hversion, Field.putAbsent_of_present hkind]

/-- What is promised of the document that is kept for an object of a resource. -/
structure Kept (r : Resource) (d kept : Document) : Prop where
  /-- it is an object without repeated keys again -/
  sent : Sent kept
  /-- it has no notes on managed fields -/
  unmanaged : kept.at? managed = none
  /-- it names its type: as the object does, or that of the resource where the object does not -/
  version : kept.get? "apiVersion" =
    some ((d.get? "apiVersion").getD (.text r.gvk.apiVersion))
  kind : kept.get? "kind" = some ((d.get? "kind").getD (.text r.gvk.kind))
  /-- at every other place and at any depth it has what the object has, and nothing else -/
  outline : ∀ path, ¬ managed <+: path →
    kept.outline path = (d.outline path).or (supplied r path)
  /-- but for the order of keys on the way to the notes it is even the same document there -/
  elsewhere : ∀ path, ¬ path <+: managed → ¬ managed <+: path →
    kept.at? path = (d.at? path).or (supplied r path)
  /-- it would be kept as it is -/
  settled : toObject r kept = kept
  name : kept.name? = d.name?
  ns : kept.namespace? = d.namespace?
  uid : kept.uid? = d.uid?
  resourceVersion : kept.resourceVersion? = d.resourceVersion?
  labels : kept.labels = d.labels
  ref : kept.ref? = d.ref?

/-- A field of the metadata other than the notes is what it was. All accessors but that of
the type read such a field. -/
theorem metadata_toObject (hd : Sent d) {field : String} (hfield : field ≠ "managedFields") :
    (toObject r d).at? [.key "metadata", .key field] =
      d.at? [.key "metadata", .key field] := by
  have hother : [.key "metadata", .key field] ≠ managed := by simp [managed, hfield]
  rw [at?_toObject hd (fun h => hother (h.eq_of_length rfl))
    (fun h => hother (h.eq_of_length rfl).symm)]
  exact Option.or_none

/-- **The document that is kept is what is promised**, all of it, for every object that a
server can send. -/
theorem kept_toObject (hd : Sent d) (r : Resource) : Kept r d (toObject r d) := by
  have hsent : Sent (toObject r d) := by
    obtain ⟨hdistinct, fields, rfl⟩ := hd
    exact ⟨distinct_toObject hdistinct, _, rfl⟩
  have hmanaged := at?_toObject_managed (r := r) hd.distinct
  have hversion : (toObject r d).get? "apiVersion" =
      some ((d.get? "apiVersion").getD (.text r.gvk.apiVersion)) := by
    rw [Document.get?_eq_at?, at?_toObject hd (by decide) (by decide), Document.get?_eq_at?]
    exact Option.or_some
  have hkind : (toObject r d).get? "kind" =
      some ((d.get? "kind").getD (.text r.gvk.kind)) := by
    rw [Document.get?_eq_at?, at?_toObject hd (by decide) (by decide), Document.get?_eq_at?]
    exact Option.or_some
  have htext : ∀ field, field ≠ "managedFields" →
      (toObject r d).metaText? field = d.metaText? field := by
    intro field hfield
    rw [Document.metaText?_eq_at?, metadata_toObject hd hfield, Document.metaText?_eq_at?]
  have hname : (toObject r d).name? = d.name? := htext "name" (by decide)
  have hns : (toObject r d).namespace? = d.namespace? :=
    congrArg properNamespace (htext "namespace" (by decide))
  refine
    { sent := hsent
      unmanaged := hmanaged
      version := hversion
      kind := hkind
      outline := fun path hpath => by rw [outline_toObject hd, if_neg hpath]
      elsewhere := fun path => at?_toObject hd
      settled := toObject_of_kept hsent hmanaged (by rw [hversion]; rfl) (by rw [hkind]; rfl)
      name := hname
      ns := hns
      uid := htext "uid" (by decide)
      resourceVersion := htext "resourceVersion" (by decide)
      labels := ?_
      ref := by rw [Document.ref?, Document.ref?, hname, hns] }
  rw [Document.labels, Document.labels, Document.get?_get?_eq_at?, Document.get?_get?_eq_at?,
    metadata_toObject hd (by decide)]

/-! ## Events -/

/-- An event next to the one that is told of it: of the same kind, with the document that is
kept for each of its objects, in the same order. -/
inductive Converts (r : Resource) : WatchEvent → WatchEvent → Prop where
  | applied {d kept : Document} (h : Kept r d kept) : Converts r (.applied d) (.applied kept)
  | deleted {d kept : Document} (h : Kept r d kept) : Converts r (.deleted d) (.deleted kept)
  | relisted {ds kept : List Document} (h : List.Forall₂ (Kept r) ds kept) :
    Converts r (.relisted ds) (.relisted kept)

/-- An event is converted document by document. It stays of its kind, and a list keeps its
length and its order. -/
theorem converts_event {e : WatchEvent} (he : ∀ d ∈ e.documents, Sent d) (r : Resource) :
    Converts r e (event r e) := by
  cases e with
  | applied d => exact .applied (kept_toObject (he d List.mem_cons_self) r)
  | deleted d => exact .deleted (kept_toObject (he d List.mem_cons_self) r)
  | relisted ds =>
    refine .relisted ?_
    rw [List.forall₂_map_right_iff, List.forall₂_same]
    exact fun d hd => kept_toObject (he d hd) r

end KindCache.ApiServer.Conversion
