import KindCache.Proofs.ApiServer.Conversion
import KindCache.Proofs.Store.Difference

/-!
# Relists of kept objects

A relist compares what is kept with what would be kept. So an object is told as an update
exactly if the list has something else at a place that counts (`Conversion.Unchanged`): the
notes on managed fields do not count, nor does a type that the list leaves out.

* `same_toObject_iff` — when an object of a list is equal to what is kept;
* `stored_kept`, `listings_map` — behind any events, the store holds documents that are kept,
  under the references of the objects they are kept of;
* `filter_relist` — what a relist tells about one reference;
* `objects_kept` — this, and the promises for single documents and events.
-/

namespace KindCache.ApiServer.Conversion

open Document (Step)

variable {r : Resource} {kept d : Document} {es : List WatchEvent} {ds : List Document}
  {ref : ObjectRef}

/-- What is kept of an object and an object of a list have the same at all places that
count: not where the notes on managed fields are, nor where the list leaves out the type. -/
def Unchanged (r : Resource) (kept listed : Document) : Prop :=
  ∀ path, ¬ managed <+: path →
    kept.outline path = (listed.outline path).or (supplied r path)

/-- That is the case exactly if what is kept would be kept again. So the comparison of a
relist, which is one of whole documents, asks what it should. -/
theorem same_toObject_iff (hkept : kept.Distinct) (hmanaged : kept.at? managed = none)
    (hd : Sent d) : kept.same (toObject r d) = true ↔ Unchanged r kept d := by
  rw [Document.same_iff_outline hkept (kept_toObject hd r).sent.distinct]
  constructor
  · intro h path hpath
    rw [h, outline_toObject hd, if_neg hpath]
  · refine fun h => funext fun path => ?_
    rw [outline_toObject hd]
    split
    · next hpath =>
      rw [Document.outline, Document.at?_eq_none_of_prefix hmanaged hpath]
      rfl
    · next hpath => exact h path hpath

/-- The documents of the event that is told are those that are kept of its objects. -/
theorem documents_event (r : Resource) (e : WatchEvent) :
    (event r e).documents = e.documents.map (toObject r) := by
  cases e <;> rfl

/-- Everything that is stored is a document that is kept of an object. Events have no other
documents, and a store does not change what it is given. -/
theorem stored_kept (hes : ∀ e ∈ es, ∀ d ∈ e.documents, Sent d) (r : Resource) :
    (Store.empty.applyAll (es.map (event r))).Every fun _ kept =>
      ∃ d, Sent d ∧ kept = toObject r d := by
  refine Store.Every.applyAll Store.every_empty fun e he kept hkept _ _ => ?_
  obtain ⟨e, hmem, rfl⟩ := List.mem_map.mp he
  rw [documents_event] at hkept
  obtain ⟨d, hd, rfl⟩ := List.mem_map.mp hkept
  exact ⟨d, hes e hmem d hd, rfl⟩

/-- The objects of a list with a reference are kept under it, since what is kept has the
name and the namespace of the object. -/
theorem listings_map (hds : ∀ d ∈ ds, Sent d) (r : Resource) (ref : ObjectRef) :
    Store.listings ref (ds.map (toObject r)) = (Store.listings ref ds).map (toObject r) := by
  rw [Store.listings, List.filter_map, Store.listings]
  congr 1
  refine List.filter_congr fun d hd => ?_
  rw [Function.comp, (kept_toObject (hds d hd) r).ref]

/-- What a relist tells about a reference, of which something is kept and which the list
mentions. -/
structure Relisted (r : Resource) (kept listed : Document) (more : List Document)
    (told : List Change) : Prop where
  /-- nothing about an object that is unchanged -/
  quiet : Unchanged r kept listed → told = more.map fun d => .added (toObject r d)
  /-- an update of an object that has changed -/
  update : ¬ Unchanged r kept listed →
    told = .updated kept (toObject r listed) :: more.map fun d => .added (toObject r d)

/-- What a relist tells about a reference that is in the store and in the list. The first
mention is compared with what is kept; each further one is told as added. -/
theorem filter_relist (hes : ∀ e ∈ es, ∀ d ∈ e.documents, Sent d) (hds : ∀ d ∈ ds, Sent d)
    {listed : Document} {more : List Document}
    (hkept : (Store.empty.applyAll (es.map (event r))).find? ref = some kept)
    (hlisted : Store.listings ref ds = listed :: more) :
    Relisted r kept listed more
      (((Store.empty.applyAll (es.map (event r))).apply (event r (.relisted ds))).2.filter
        (·.concerns ref)) := by
  have hkeyed := Store.keyed_empty.applyAll (es.map (event r))
  have htold : ((Store.empty.applyAll (es.map (event r))).relist (ds.map (toObject r))).2.filter
      (·.concerns ref) = Store.told (some kept) ((listed :: more).map (toObject r)) := by
    rw [← hkept, ← hlisted, ← listings_map hds]
    exact Store.told_relistFrom hkeyed ref _
  obtain ⟨d, hd, rfl⟩ := stored_kept hes r ref kept hkept
  have hsent := kept_toObject hd r
  have hlisted : Sent listed :=
    hds listed (List.mem_of_mem_filter (hlisted ▸ List.mem_cons_self))
  have hsame := same_toObject_iff (r := r) hsent.sent.distinct hsent.unmanaged hlisted
  constructor
  · intro h
    refine htold.trans ?_
    rw [List.map_cons, Store.told, if_pos (hsame.mpr h), List.map_map]
    rfl
  · intro h
    refine htold.trans ?_
    rw [List.map_cons, Store.told, if_neg fun hs => h (hsame.mp hs), List.map_map]
    rfl

/-! ## All together -/

/-- **All together.** Of every object of a resource what is promised is kept, in a document
and in an event. A relist tells about an object that is kept only if it has changed. -/
theorem objects_kept (r : Resource) :
    (∀ d, Sent d → Kept r d (toObject r d)) ∧
    (∀ e : WatchEvent, (∀ d ∈ e.documents, Sent d) → Converts r e (event r e)) ∧
    ∀ (es : List WatchEvent) (ds : List Document) (ref : ObjectRef) (kept listed : Document)
      (more : List Document), (∀ e ∈ es, ∀ d ∈ e.documents, Sent d) → (∀ d ∈ ds, Sent d) →
      (Store.empty.applyAll (es.map (event r))).find? ref = some kept →
      Store.listings ref ds = listed :: more →
      Relisted r kept listed more
        (((Store.empty.applyAll (es.map (event r))).apply (event r (.relisted ds))).2.filter
          (·.concerns ref)) :=
  ⟨fun _ hd => kept_toObject hd r, fun _ he => converts_event he r,
    fun _ _ _ _ _ _ hes hds hkept hlisted => filter_relist hes hds hkept hlisted⟩

/-- The resource of daemon sets. -/
def daemons : Resource :=
  ⟨⟨"apps", "v1", "DaemonSet"⟩, "daemonsets", true⟩

/-- A daemon set with a type, as a watch has it. -/
def watched : Document :=
  .object [("apiVersion", .text "apps/v1"), ("kind", .text "DaemonSet"),
    ("metadata", .object [("managedFields", .array [.object [("manager", .text "a")]]),
      ("name", .text "web"), ("resourceVersion", .text "1")]),
    ("spec", .object [("paused", .bool true)])]

/-- The same without a type, as a list has it, and with other notes. -/
def listed : Document :=
  .object [("metadata", .object [("managedFields", .array []), ("name", .text "web"),
      ("resourceVersion", .text "1")]),
    ("spec", .object [("paused", .bool true)])]

theorem sent_watched : Sent watched :=
  ⟨by simp [watched, Document.Distinct, Document.DistinctFields, Document.DistinctItems], _, rfl⟩

theorem sent_listed : Sent listed :=
  ⟨by simp [listed, Document.Distinct, Document.DistinctFields, Document.DistinctItems], _, rfl⟩

theorem objects_kept_daemon :
    Kept daemons listed (toObject daemons listed) ∧
    Converts daemons (.relisted [watched, listed])
      (.relisted [toObject daemons watched, toObject daemons listed]) ∧
    ((Store.empty.apply (event daemons (.applied watched))).1.apply
      (event daemons (.relisted [listed]))).2.filter (·.concerns ⟨none, "web"⟩) = [] := by
  obtain ⟨hdocument, hevent, hrelist⟩ := objects_kept daemons
  have hkept := hdocument watched sent_watched
  have hunchanged : Unchanged daemons (toObject daemons watched) listed :=
    (same_toObject_iff hkept.sent.distinct hkept.unmanaged sent_listed).mp (by decide)
  refine ⟨hdocument listed sent_listed, hevent (.relisted [watched, listed]) ?_,
    (hrelist [.applied watched] [listed] ⟨none, "web"⟩ _ listed [] ?_ ?_ rfl rfl).quiet
      hunchanged⟩
  · simp [WatchEvent.documents, sent_watched, sent_listed]
  · simp [WatchEvent.documents, sent_watched]
  · simp [sent_listed]

end KindCache.ApiServer.Conversion
