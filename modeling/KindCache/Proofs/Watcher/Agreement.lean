import KindCache.Proofs.Watcher.Absence
import KindCache.Proofs.Watcher.Lists

/-!
# Lists and single reads agree

A list goes through the store and compares namespaces, a single read looks up one
reference. The two answer alike because every document is kept under its own reference,
and because an empty namespace counts as none on the way in, in a request and in a
document.

* `within_scope` — the reference that is looked up lies within the scope of the request;
* `scope_of_stored` — a request for the namespace of a stored object leads to its
  reference, if objects of a kind without namespaces have none;
* `Watcher.Agrees`, `list_get_agree` — in every run, what is listed can be read, what is
  read is listed, and what is excluded is in the list without the selector only.
-/

namespace KindCache

/-- No object of the item has a namespace. -/
def Arrival.Clusterwide : Arrival → Prop
  | .event e => ∀ d ∈ e.documents, d.namespace? = none
  | .fault _ => True

namespace Watcher

/-! ## The scope of a request -/

section

variable {w : Watcher} {ns : Option String}

/-- A scope is no empty namespace, as an empty one in a request stands for none. -/
theorem properNamespace_scope : properNamespace (w.scope ns) = w.scope ns := by
  rw [scope]
  split
  · simp [properNamespace, Option.filter_filter]
  · rfl

/-- The reference that is looked up lies within the scope of the request. So what is found
is not left out of the list. -/
theorem within_scope (name : String) :
    within (w.scope ns) (ObjectRef.of (w.scope ns) name) = true := by
  rw [ObjectRef.of, properNamespace_scope]
  rcases w.scope ns with _ | ns
  · rfl
  · exact decide_eq_true rfl

/-- The namespace of an object is in scope as it is, if the kind has namespaces or the
object has none. A kind without namespaces would ignore the namespace of an object that has
one, and look it up elsewhere. -/
theorem scope_of_stored {d : Document}
    (hd : w.resource.namespaced = false → d.namespace? = none) :
    w.scope d.namespace? = d.namespace? := by
  rw [scope]
  split
  · simp [Document.namespace?, properNamespace, Option.filter_filter]
  · next hns => exact (hd (Bool.not_eq_true _ ▸ hns)).symm

end

/-! ## One object in a list -/

section

variable {w : Watcher} {ns : Option String} {selector : Option Selector}

/-- **A list holds an object with the reference that is looked up** exactly if the store has
it there and the selector admits it. That documents are kept under their own references
makes the two ways to look the same. -/
theorem mem_list_of_ref_iff (hw : w.store.Keyed) {name : String} {d : Document} :
    d ∈ w.list ns selector ∧ d.ref? = some (ObjectRef.of (w.scope ns) name) ↔
      w.store.find? (ObjectRef.of (w.scope ns) name) = some d ∧
        Selector.admits selector d = true := by
  rw [mem_list_iff]
  constructor
  · rintro ⟨⟨r, hr, -, hadmits⟩, href⟩
    obtain rfl := Option.some.inj ((hw r d hr).symm.trans href)
    exact ⟨hr, hadmits⟩
  · rintro ⟨hr, hadmits⟩
    exact ⟨⟨_, hr, within_scope name, hadmits⟩, hw _ d hr⟩

/-- What is listed is read under its own namespace and name. It has a name, for otherwise it
would have no reference. -/
theorem get_of_mem_list (hw : w.store.Keyed) (hsynced : w.synced = true) {d : Document}
    (hd : w.resource.namespaced = false → d.namespace? = none) (h : d ∈ w.list ns selector) :
    ∃ name, d.name? = some name ∧ w.get d.namespace? name selector = .ok d := by
  obtain ⟨r, hr, -, hadmits⟩ := mem_list_iff.mp h
  obtain ⟨name, hname, rfl⟩ := Option.map_eq_some_iff.mp (hw r d hr)
  refine ⟨name, hname, ((get_classified w _ name selector).found d).mpr ⟨hsynced, ?_, hadmits⟩⟩
  have hns : properNamespace (w.scope d.namespace?) = d.namespace? := by
    rw [properNamespace_scope, scope_of_stored hd]
  rw [ObjectRef.of, hns]
  exact hr

/-- What is read is listed, and has the name that was asked for. -/
theorem mem_list_of_get (hw : w.store.Keyed) {name : String} {d : Document}
    (h : w.get ns name selector = .ok d) :
    d ∈ w.list ns selector ∧ d.name? = some name := by
  obtain ⟨-, hr, hadmits⟩ := ((get_classified w ns name selector).found d).mp h
  obtain ⟨hmem, href⟩ := (mem_list_of_ref_iff hw).mpr ⟨hr, hadmits⟩
  obtain ⟨name', hname, heq⟩ := Option.map_eq_some_iff.mp href
  exact ⟨hmem, hname.trans (congrArg some (congrArg ObjectRef.name heq))⟩

/-- What is excluded is in the list without the selector, and not in that with it. Only the
store is asked, so this holds also while the stream is degraded. -/
theorem filteredOut_iff (hw : w.store.Keyed) (hsynced : w.synced = true) {name : String} :
    w.Fails ns name selector .filteredOut ↔
      (∃ d ∈ w.list ns none, d.ref? = some (ObjectRef.of (w.scope ns) name)) ∧
        ¬ ∃ d ∈ w.list ns selector, d.ref? = some (ObjectRef.of (w.scope ns) name) := by
  rw [(get_classified w ns name selector).filtered]
  simp only [mem_list_of_ref_iff hw]
  constructor
  · rintro ⟨-, d, hd, hadmits⟩
    refine ⟨⟨d, hd, rfl⟩, ?_⟩
    rintro ⟨d', hd', hadmits'⟩
    obtain rfl := Option.some.inj (hd.symm.trans hd')
    rw [hadmits] at hadmits'
    cases hadmits'
  · rintro ⟨⟨d, hd, -⟩, hnone⟩
    refine ⟨hsynced, d, hd, ?_⟩
    by_contra hadmits
    exact hnone ⟨d, hd, Bool.not_eq_false _ ▸ hadmits⟩

end

/-! ## Any run -/

/-- Lists and single reads answer alike, whatever namespace and selector are given. -/
structure Agrees (w : Watcher) : Prop where
  /-- what is listed can be read -/
  listed : ∀ ns selector, ∀ d ∈ w.list ns selector,
    ∃ name, d.name? = some name ∧ w.get d.namespace? name selector = .ok d
  /-- what can be read is listed -/
  found : ∀ ns name selector d, w.get ns name selector = .ok d →
    d ∈ w.list ns selector ∧ d.name? = some name
  /-- what is excluded is listed without the selector only -/
  filtered : ∀ ns name selector, w.Fails ns name selector .filteredOut ↔
    (∃ d ∈ w.list ns none, d.ref? = some (ObjectRef.of (w.scope ns) name)) ∧
      ¬ ∃ d ∈ w.list ns selector, d.ref? = some (ObjectRef.of (w.scope ns) name)

/-- If no object that arrives has a namespace, no stored one has. -/
theorem run_clusterwide {w : Watcher} {moves : List Move} (hw : w.store = .empty)
    (hinbox : ∀ a ∈ w.inbox, a.Clusterwide) (hmoves : ∀ m ∈ moves, m.Brings Arrival.Clusterwide) :
    (w.run moves).store.Every fun _ d => d.namespace? = none := by
  rw [run_store, hw]
  refine Store.every_empty.applyAll fun e he d hd r hr => ?_
  obtain ⟨a, ha, hevent⟩ := List.mem_filterMap.mp he
  have hclusterwide := consumed_brings hinbox hmoves a ha
  cases a with
  | event e' =>
    obtain rfl := Option.some.inj hevent
    exact hclusterwide d hd
  | fault _ => cases hevent

/-- **Lists and single reads agree.** In every state of a watcher that has had a list, what
it lists and what it reads fit together, provided that objects of a kind without namespaces
have none. -/
theorem list_get_agree {resource : Resource} {cap : Nat} {tied : Bool} {inbox : List Arrival}
    {moves : List Move}
    (hcluster : resource.namespaced = false →
      (∀ a ∈ inbox, a.Clusterwide) ∧ ∀ m ∈ moves, m.Brings Arrival.Clusterwide)
    (hsynced : ((starting resource cap tied inbox).run moves).synced = true) :
    ((starting resource cap tied inbox).run moves).Agrees := by
  have hkeyed := Reachable.keyed ⟨resource, cap, tied, inbox, moves, rfl⟩
  refine ⟨fun ns selector d hd => ?_, fun ns name selector d => mem_list_of_get hkeyed,
    fun ns name selector => filteredOut_iff hkeyed hsynced⟩
  refine get_of_mem_list hkeyed hsynced (fun hresource => ?_) hd
  rw [(run_later _ _).resource] at hresource
  obtain ⟨hinbox, hmoves⟩ := hcluster hresource
  obtain ⟨r, hr, -⟩ := mem_list_iff.mp hd
  exact run_clusterwide rfl hinbox hmoves r d hr

/-- The resource of nodes, which have no namespaces. -/
def nodes : Resource :=
  ⟨⟨"", "v1", "Node"⟩, "nodes", false⟩

/-- A node is listed, and another one comes. -/
def arrivals : List Move :=
  [.batch 1, .arrive [.event (.applied (labelled "" "n" "db"))], .batch 1]

/-- A watcher of these nodes. -/
def twoNodes : Watcher :=
  (starting nodes 1 true [.event (.relisted [labelled "" "m" "web"])]).run arrivals

theorem list_get_agree_nodes :
    twoNodes.list (some "a") web = [labelled "" "m" "web"] ∧
      (∃ name, (labelled "" "m" "web").name? = some name ∧
        twoNodes.get none name web = .ok (labelled "" "m" "web")) ∧
      twoNodes.Fails (some "a") "n" web .filteredOut := by
  have hagrees : twoNodes.Agrees := by
    refine list_get_agree (fun _ => ⟨?_, ?_⟩) rfl
    · simp [Arrival.Clusterwide, WatchEvent.documents]
      rfl
    · simp [arrivals, Move.Brings, Arrival.Clusterwide, WatchEvent.documents]
      rfl
  refine ⟨rfl, hagrees.listed (some "a") web _ (List.mem_singleton.mpr rfl), ?_⟩
  refine (hagrees.filtered _ _ _).mpr ⟨⟨labelled "" "n" "db", ?_, rfl⟩, ?_⟩
  · exact List.mem_cons_of_mem _ (List.mem_singleton.mpr rfl)
  · rintro ⟨d, hd, hr⟩
    obtain rfl := List.mem_singleton.mp hd
    exact absurd hr (by decide)

end Watcher

end KindCache
