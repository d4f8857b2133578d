import KindCache.Proofs.Cache.Replies

/-!
# A cluster that always lists the same

If every discovery gives one listing, a kind is resolved to the same resource by every
registry that has learned from nothing else, and however often the cluster was asked.

* `served` — the resource of a kind in a listing;
* `Registry.Tells`, `Registry.Tells.resolve` — a registry that has learned from one listing, and
  what it says of a kind;
* `Cluster.uncounted`, `Cluster.Blind` — a cluster apart from what it has counted, and the
  changes of a cluster that leave its listing alone and do not look at what was counted;
* `Knows`, `Knows.perform` — a cache over a cluster with one listing stays one.
-/

namespace KindCache

/-- The resource of a kind in a listing; of several entries the last one counts. -/
def served (listing : List Resource) (g : GroupVersionKind) : Option Resource :=
  listing.reverse.find? fun r => r.gvk = g

/-- What is served is an entry of the listing, and one for the kind that was asked for. -/
theorem served_mem {listing : List Resource} {g : GroupVersionKind} {r : Resource}
    (h : served listing g = some r) : r ∈ listing ∧ r.gvk = g := by
  unfold served at h
  refine ⟨List.mem_reverse.mp (List.mem_of_find?_eq_some h), ?_⟩
  simpa using List.find?_some h

/-! ## Registries -/

namespace Registry

/-- A registry that has learned from one listing, if from anything. It may have been asked
for any kinds before; what differs between two such registries is only what they still have
to find out. -/
structure Tells (reg : Registry) (listing : List Resource) : Prop where
  latest : reg.listing = [] ∨ reg.listing = listing
  lacks : ∀ m ∈ reg.misses, served listing m.1 = none

variable {reg : Registry} {listing : List Resource}

theorem tells_starting (missTtl : Nat) (listing : List Resource) :
    (starting missTtl).Tells listing :=
  ⟨.inl rfl, fun _ h => absurd h List.not_mem_nil⟩

/-- What the registry knows, the listing says. -/
theorem Tells.served_of_find? (h : reg.Tells listing) {g : GroupVersionKind} {r : Resource}
    (hfind : reg.find? g = some r) : served listing g = some r := by
  rcases h.latest with hnone | hsame
  · rw [find?, hnone] at hfind
    cases hfind
  · rw [← hsame]
    exact hfind

/-- What the registry remembers as missing, the listing lacks. The time that has passed
since does not matter, because a new discovery would give the same listing. -/
theorem Tells.lacks_of_missed (h : reg.Tells listing) {now : Nat} {g : GroupVersionKind}
    (hmissed : reg.recentlyMissed now g = true) : served listing g = none := by
  simp only [recentlyMissed] at hmissed
  split at hmissed
  · next since hlookup =>
    exact h.lacks (g, since) (Table.mem_of_lookup hlookup)
  · cases hmissed

/-- **It answers for a kind what the listing says**, and goes on doing so. Hence the answer
depends neither on the time nor on the questions before, which is why two caches with
different pasts get the same one. -/
theorem Tells.resolve (h : reg.Tells listing) (now : Nat) (g : GroupVersionKind) :
    (reg.resolve now g (.ok listing)).1.Tells listing ∧
      (reg.resolve now g (.ok listing)).2 =
        (served listing g).elim (.error (unknown g)) .ok := by
  have hresolved := reg.resolved now now g (.ok listing)
  rw [Registry.resolve]
  generalize reg.resolveUntil now now g (.ok listing) = answer at hresolved
  cases hresolved with
  | known hfind =>
    rw [h.served_of_find? hfind]
    exact ⟨h, rfl⟩
  | remembered _ hmissed =>
    rw [h.lacks_of_missed hmissed]
    exact ⟨h, rfl⟩
  | failed _ hfail => cases hfail
  | found _ hdiscovered hfound =>
    obtain rfl := Except.ok.inj hdiscovered
    have hserved : served listing g = some _ := hfound
    rw [hserved]
    exact ⟨⟨.inr rfl, fun m hm => h.lacks m (List.mem_filter.mp hm).1⟩, rfl⟩
  | lacking _ hdiscovered hnone =>
    obtain rfl := Except.ok.inj hdiscovered
    have hserved : served listing g = none := hnone
    rw [hserved]
    refine ⟨⟨.inr rfl, ?_⟩, rfl⟩
    intro m hm
    rcases List.mem_cons.mp hm with rfl | hm
    · exact hserved
    · exact h.lacks m (List.mem_filter.mp hm).1

end Registry

/-! ## Clusters -/

namespace Cluster

/-- A cluster as if nothing had been counted. -/
def uncounted (c : Cluster) : Cluster :=
  { c with discoveries := 0, reviews := fun _ => 0, streams := fun _ => 0 }

/-- A change of a cluster that leaves its listing alone and does not depend on what was
counted. -/
structure Blind (f : Cluster → Cluster) : Prop where
  resources : ∀ c, (f c).resources = c.resources
  fault : ∀ c, (f c).discoveryFault = c.discoveryFault
  counts : ∀ c c', c.uncounted = c'.uncounted → (f c).uncounted = (f c').uncounted

variable {c c' : Cluster}

/-- What is answered to a review does not depend on what was counted. -/
theorem answer_of_uncounted (h : c.uncounted = c'.uncounted) (review : AccessReview) :
    c.answer review = c'.answer review :=
  (congrArg (answer · review) h : c.uncounted.answer review = c'.uncounted.answer review)

/-- Nor does what a new stream begins with. -/
theorem opening_of_uncounted (h : c.uncounted = c'.uncounted) (plural : String) :
    c.opening plural = c'.opening plural :=
  (congrArg (opening · plural) h : c.uncounted.opening plural = c'.uncounted.opening plural)

end Cluster

namespace Cache

/-! ## The invariant -/

/-- All changes of the cluster are blind. -/
def Move.Blind : Move → Prop
  | .program f => Cluster.Blind f
  | _ => True

/-- A cache over a cluster with one listing, which has learned of nothing else. -/
structure Knows (s : Cache) (listing : List Resource) : Prop where
  resources : s.cluster.resources = listing
  fault : s.cluster.discoveryFault = []
  tells : s.registry.Tells listing

/-- Nothing was learned, whatever the cluster has counted. -/
structure Unlearned (s s' : Cache) : Prop where
  registry : s'.registry = s.registry
  cluster : s'.cluster.uncounted = s.cluster.uncounted

section

variable {s s' s'' : Cache} {listing : List Resource}

namespace Unlearned

theorem refl (s : Cache) : Unlearned s s :=
  ⟨rfl, rfl⟩

theorem trans (h : Unlearned s s') (h' : Unlearned s' s'') : Unlearned s s'' :=
  ⟨h'.registry.trans h.registry, h'.cluster.trans h.cluster⟩

theorem leaveSlot (h : Unlearned s s') (t : Ticket) : Unlearned s (s'.leaveSlot t) := by
  obtain ⟨slots, slotOf, heq⟩ := s'.leaveSlot_eq t
  rw [heq]
  exact ⟨h.registry, h.cluster⟩

theorem watcherFor (s : Cache) (r : Resource) : Unlearned s (s.watcherFor r).1 := by
  simp only [Cache.watcherFor]
  split
  · exact .refl s
  · exact ⟨rfl, rfl⟩

/-- Looking for the relist teaches nothing about kinds. -/
theorem awaitSync (s : Cache) (c : CallId) (t : Ticket) (w : WatcherId)
    (deadline : Option Nat) : Unlearned s (s.awaitSync c t w deadline).1 := by
  simp only [Cache.awaitSync]
  split
  · exact (Unlearned.refl s).leaveSlot t
  · next watcher hget =>
    split
    · have hmarked : Unlearned s (s.markSeen t.query.gvk watcher.resource.streamName) := ⟨rfl, rfl⟩
      exact hmarked.leaveSlot t
    · exact (Unlearned.refl s).leaveSlot t
    · split
      · exact (Unlearned.refl s).leaveSlot t
      · exact ⟨rfl, rfl⟩

/-- To ask for rights teaches nothing about kinds either, and neither does opening a
stream. -/
theorem probeRights (s : Cache) (c : CallId) (t : Ticket) (r : Resource) (access : Access)
    (left : List Verb) : Unlearned s (s.probeRights c t r access left).1 := by
  cases left with
  | cons verb left => exact ⟨rfl, rfl⟩
  | nil =>
    simp only [Cache.probeRights]
    split
    · exact (Unlearned.refl s).leaveSlot t
    · exact (Unlearned.watcherFor s r).trans (.awaitSync ..)

end Unlearned

theorem Knows.unlearned (h : s.Knows listing) (hs' : Unlearned s s') : s'.Knows listing := by
  have hresources := congrArg Cluster.resources hs'.cluster
  have hfault := congrArg Cluster.discoveryFault hs'.cluster
  exact ⟨hresources.trans h.resources, hfault.trans h.fault, hs'.registry ▸ h.tells⟩

/-- A discovery gives the listing, as none fails. -/
theorem Knows.discovery (h : s.Knows listing) : s.cluster.discovery = .ok listing := by
  simp only [Cluster.discovery, h.fault, h.resources]

/-- To resolve a kind may cost a discovery, which the cluster counts; nothing else of it
changes. -/
theorem resolveKind_cluster (s : Cache) (g : GroupVersionKind) :
    (s.resolveKind g).1.cluster.uncounted = s.cluster.uncounted := by
  simp only [Cache.resolveKind, Cluster.resolve, Cluster.resolveUntil]
  split <;> rfl

/-- A kind is resolved as the listing says, at whatever time. -/
theorem Knows.resolveKind (h : s.Knows listing) (g : GroupVersionKind) :
    (s.resolveKind g).1.Knows listing ∧
      (s.resolveKind g).2 = (served listing g).elim (.error (Registry.unknown g)) .ok := by
  obtain ⟨htells, hresult⟩ := h.tells.resolve s.now g
  rw [← h.discovery] at htells hresult
  have hcluster := resolveKind_cluster s g
  exact ⟨⟨(congrArg Cluster.resources hcluster).trans h.resources,
    (congrArg Cluster.discoveryFault hcluster).trans h.fault, htells⟩, hresult⟩

/-- Only a call that asks for the resource of its kind learns anything. -/
theorem current_unlearned {c : CallId} (h : ∀ t, s.call c ≠ .resolving t) :
    Unlearned s (s.current c).1 := by
  simp only [Cache.current]
  split
  · next use q hcall =>
    simp only [approach]
    split
    · exact .refl s
    · split
      · exact .refl s
      · obtain ⟨slots, slotOf, i, heq⟩ := s.enqueue_eq c use q
        rw [heq]
        exact ⟨rfl, rfl⟩
  · next t hcall =>
    split
    · simp only [enter]
      split
      · exact (Unlearned.refl s).leaveSlot t
      · exact ⟨rfl, rfl⟩
    · exact .refl s
  · next t hcall => exact absurd hcall (h t)
  · exact .probeRights ..
  · exact .awaitSync ..
  · exact .refl s

/-- It learns no more than that. -/
theorem current_learned {c : CallId} {t : Ticket} (h : s.call c = .resolving t) :
    Unlearned (s.resolveKind t.query.gvk).1 (s.current c).1 := by
  simp only [Cache.current, h, findResource]
  split
  · exact (Unlearned.refl _).leaveSlot t
  · exact ⟨rfl, rfl⟩

/-- A leg of a search changes nothing about the cluster but what it has counted. -/
theorem current_cluster (s : Cache) (c : CallId) :
    (s.current c).1.cluster.uncounted = s.cluster.uncounted := by
  by_cases h : ∃ t, s.call c = .resolving t
  · obtain ⟨t, hcall⟩ := h
    exact (current_learned hcall).cluster.trans (resolveKind_cluster s _)
  · exact (current_unlearned fun t hcall => h ⟨t, hcall⟩).cluster

theorem Knows.current (h : s.Knows listing) (c : CallId) : (s.current c).1.Knows listing := by
  by_cases hcall : ∃ t, s.call c = .resolving t
  · obtain ⟨t, hcall⟩ := hcall
    exact (h.resolveKind t.query.gvk).1.unlearned (current_learned hcall)
  · exact h.unlearned (current_unlearned fun t ht => hcall ⟨t, ht⟩)

theorem Knows.ends {c : CallId} (h : s.Knows listing) (hs' : Ends s c s') :
    s'.Knows listing :=
  h.unlearned ⟨hs'.registry, congrArg _ hs'.cluster⟩

theorem Knows.advance {c : CallId} (h : s.Knows listing) (hs' : Advance s c s') :
    s'.Knows listing := by
  cases hs' with
  | idle hcall => exact h
  | onward hleg =>
    have hleads := h.current c
    rwa [hleg] at hleads
  | answered herrand hleg hend =>
    have hleads := h.current c
    rw [hleg] at hleads
    exact hleads.ends hend
  | aside hcall hend => exact h.ends hend

/-- Nor does a leg of any other call. -/
theorem advance_cluster (s : Cache) (c : CallId) :
    (s.advance c).cluster.uncounted = s.cluster.uncounted := by
  have hcurrent := current_cluster s c
  have hcases := s.advance_cases c
  generalize s.advance c = s' at hcases
  cases hcases with
  | idle hcall => rfl
  | onward hleg =>
    rw [hleg] at hcurrent
    exact hcurrent
  | answered herrand hleg hend =>
    rw [hleg] at hcurrent
    rw [hend.cluster]
    exact hcurrent
  | aside hcall hend => rw [hend.cluster]

/-- Nor does any move that is no change of the cluster itself. -/
theorem perform_cluster {m : Move} (hm : ∀ f, m ≠ .program f) (s : Cache) :
    (s.perform m).cluster.uncounted = s.cluster.uncounted := by
  cases m with
  | advance c => exact advance_cluster s c
  | cancel c =>
    obtain ⟨slots, heq⟩ := s.cancel_eq c
    rw [perform, heq]
  | gauge w =>
    obtain ⟨meters, heq⟩ := s.gaugeOf_eq w
    rw [perform, heq]
  | watcherFor r => exact (Unlearned.watcherFor s r).cluster
  | program f => exact absurd rfl (hm f)
  | submit | watch | standalone | shutDown | tick => rfl

/-- A move preserves the invariant, if it is no other change of the cluster. The changes
that are allowed may still do much else, such as granting rights or seeding objects. -/
theorem Knows.perform {m : Move} (h : s.Knows listing) (hm : m.Blind) :
    (s.perform m).Knows listing := by
  cases m with
  | advance c => exact h.advance (s.advance_cases c)
  | cancel c =>
    obtain ⟨slots, heq⟩ := s.cancel_eq c
    rw [Cache.perform, heq]
    exact h.unlearned ⟨rfl, rfl⟩
  | gauge w =>
    obtain ⟨meters, heq⟩ := s.gaugeOf_eq w
    rw [Cache.perform, heq]
    exact h.unlearned ⟨rfl, rfl⟩
  | watcherFor r => exact h.unlearned (.watcherFor s r)
  | program f => exact ⟨(hm.resources _).trans h.resources, (hm.fault _).trans h.fault, h.tells⟩
  | submit | watch | standalone | shutDown | tick => exact h.unlearned ⟨rfl, rfl⟩

theorem knows_starting {cluster : Cluster} (hresources : cluster.resources = listing)
    (hfault : cluster.discoveryFault = []) (settings : Settings) :
    (starting cluster settings).Knows listing :=
  ⟨hresources, hfault, Registry.tells_starting _ _⟩

end

end Cache

end KindCache
