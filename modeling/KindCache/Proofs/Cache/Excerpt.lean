import KindCache.Proofs.Cache.Unseen

/-!
# A cache next to what is kept of it

Two caches are run side by side. The second one holds what is kept of the first one,
under smaller numbers, and whatever a call that is kept does in the one it does in the other.

* `Cut.callNo`, `Cut.watcherNo` — the numbers in the second cache;
* `Similar` — calls at the same point;
* `Excerpt` — what the second cache holds;
* `Excerpt.left` — it does not matter what is left out;
* `Inside` — a call that has its turn in both caches;
* `Follows`, `Paired`, `Paired.current` — legs of a search in both, with the same answer.
-/

namespace KindCache

/-! ## Numbers -/

namespace Cache

/-- The number of a call among those that are kept. It is by how many of the kept ones were
made before it, so it does not change when more calls come. -/
abbrev Cut.callNo (K : Cut) (c : CallId) : CallId :=
  rank K.call c

/-- The number of a watcher among those that are kept. -/
abbrev Cut.watcherNo (K : Cut) (w : WatcherId) : WatcherId :=
  rank K.watcher w

end Cache

/-- A request whose watcher has another number. -/
def Request.rename (f : WatcherId → WatcherId) : Request → Request
  | .use intent q => .use intent q
  | .sync w => .sync (f w)

/-- An outcome whose watcher has another number. -/
def Outcome.rename (f : WatcherId → WatcherId) : Outcome → Outcome
  | .watcher w => .watcher (f w)
  | outcome => outcome

namespace Cache

/-- The end of a call, under other numbers. -/
def Cut.renumber (K : Cut) (done : Completion) : Completion :=
  ⟨K.callNo done.call, done.outcome.rename K.watcherNo, done.time⟩

/-- What is kept of a log. -/
def Cut.excerpt (K : Cut) (log : List Completion) : List Completion :=
  (log.filter fun done => K.call done.call).map K.renumber

/-- Shares in slots with other numbers. What matters of a ticket is what the call is for;
the numbers of slots differ because the slots of kinds that are left out are missing on one
side. -/
structure Twin (t t' : Ticket) : Prop where
  use : t'.use = t.use
  query : t'.query = t.query

/-- The same point of a call, where watchers and slots have other numbers. -/
inductive Similar (f : WatcherId → WatcherId) : Call → Call → Prop where
  | fresh (request : Request) : Similar f (.fresh request) (.fresh (request.rename f))
  | queued {t t' : Ticket} (h : Twin t t') : Similar f (.queued t) (.queued t')
  | resolving {t t' : Ticket} (h : Twin t t') : Similar f (.resolving t) (.resolving t')
  | probing {t t' : Ticket} (h : Twin t t') (r : Resource) (access : Access)
    (left : List Verb) : Similar f (.probing t r access left) (.probing t' r access left)
  | syncing {t t' : Ticket} (h : Twin t t') (w : WatcherId) (deadline : Option Nat) :
    Similar f (.syncing t w deadline) (.syncing t' (f w) deadline)
  | pausing (counted : Bool) (q : Query) (name : String) (w : WatcherId) (tries wake : Nat) :
    Similar f (.pausing counted q name w tries wake) (.pausing counted q name (f w) tries wake)
  | waiting (w : WatcherId) : Similar f (.waiting w) (.waiting (f w))
  | ended : Similar f .over .over

/-! ## Both caches -/

/-- The second cache holds what is kept of the first one. What the cluster has counted does
not matter, nor do the meters: they count for all kinds together, and the calls that are
left out have had their share in them. -/
structure Excerpt (K : Cut) (s s' : Cache) : Prop where
  calls : Thinned K.call (Similar K.watcherNo) s.calls s'.calls
  watchers : Thinned K.watcher Eq s.watchers s'.watchers
  slots : ∀ g, K.kind g = true → s'.slotFor g = (s.slotFor g).map (Slot.rename K.callNo)
  streams : ∀ name, K.stream name = true →
    s'.streams.lookup name = (s.streams.lookup name).map K.watcherNo
  seen : ∀ g, K.kind g = true → s'.seen.lookup g = s.seen.lookup g
  log : s'.log = K.excerpt s.log
  cluster : s'.cluster.uncounted = s.cluster.uncounted
  settings : s'.settings = s.settings
  shutdown : s'.shutdown = s.shutdown
  now : s'.now = s.now

section

variable {K : Cut} {s s' s₁ s₁' : Cache} {c : CallId} {t t' : Ticket} {w : WatcherId}
  {r : Resource} {g : GroupVersionKind}

/-- At the start there is nothing to keep or to leave out. -/
theorem excerpt_starting (K : Cut) (cluster : Cluster) (settings : Settings) :
    Excerpt K (starting cluster settings) (starting cluster settings) :=
  ⟨.nil _ _, .nil _ _, fun _ _ => rfl, fun _ _ => rfl, fun _ _ => rfl, rfl, rfl, rfl, rfl, rfl⟩

namespace Excerpt

/-- What is left out does not matter: a move that changes nothing kept in the first cache
needs no counterpart in the second one. -/
theorem left (h : Excerpt K s s') (hs₁ : Unseen K s s₁)
    (hcluster : s₁.cluster.uncounted = s.cluster.uncounted) : Excerpt K s₁ s' where
  calls := h.calls.left hs₁.calls
  watchers := h.watchers.left hs₁.watchers
  slots g hg := (hs₁.slots g hg).symm ▸ h.slots g hg
  streams name hname := (hs₁.streams name hname).symm ▸ h.streams name hname
  seen g hg := (h.seen g hg).trans (hs₁.seen g hg).symm
  log := by
    rw [h.log, Cut.excerpt, Cut.excerpt, hs₁.log]
  cluster := h.cluster.trans hcluster.symm
  settings := h.settings.trans hs₁.settings.symm
  shutdown := h.shutdown.trans hs₁.shutdown.symm
  now := h.now.trans hs₁.now.symm

/-- A call that is kept stands at the same point in both. Where it has a watcher, it is the
one of the same rank. -/
theorem call (h : Excerpt K s s') (hc : K.call c = true) :
    Similar K.watcherNo (s.call c) (s'.call (K.callNo c)) := by
  rcases hget : s.calls[c]? with _ | point
  · rw [Cache.call, Cache.call, hget, h.calls.get_none hget]
    exact .ended
  · obtain ⟨point', hget', hsimilar⟩ := h.calls.get c point hget hc
    rw [Cache.call, Cache.call, hget, hget']
    exact hsimilar

/-- A watcher that is kept is the same in both, with its stream, its store and its
subscribers. -/
theorem watcher (h : Excerpt K s s') (hw : K.watcher w = true) :
    s'.watchers[K.watcherNo w]? = s.watchers[w]? :=
  h.watchers.getElem?_eq hw

/-! ### Changes of both -/

/-- A call that is kept moves in both. The points only have to be the same up to numbers. -/
theorem setCall (h : Excerpt K s s') (hc : K.call c = true) {point point' : Call}
    (hpoint : Similar K.watcherNo point point') :
    Excerpt K (s.setCall c point) (s'.setCall (K.callNo c) point') :=
  { h with calls := h.calls.set hc hpoint }

/-- A call that is kept ends in both, with the same outcome up to the number of a watcher
that is handed out. The logs stay excerpts, as both grow at the end. -/
theorem complete (h : Excerpt K s s') (hc : K.call c = true) (outcome : Outcome) :
    Excerpt K (s.complete c outcome)
      (s'.complete (K.callNo c) (outcome.rename K.watcherNo)) := by
  refine { h.setCall hc .ended with log := ?_ }
  show s'.log ++ [_] = K.excerpt (s.log ++ [_])
  rw [h.log, h.now, Cut.excerpt, Cut.excerpt, List.filter_append, List.map_append]
  simp [hc, Cut.renumber]

theorem modifyWatcher (h : Excerpt K s s') (hw : K.watcher w = true) (f : Watcher → Watcher) :
    Excerpt K (s.modifyWatcher w f) (s'.modifyWatcher (K.watcherNo w) f) := by
  refine { h with watchers := h.watchers.modify hw ?_ }
  rintro a a' - rfl
  rfl

/-- Both clusters are asked something, and what was counted may differ. This is where calls
that are left out would show if the counts belonged to an excerpt. -/
theorem asked (h : Excerpt K s s') {cluster cluster' : Cluster} {registry registry' : Registry}
    {meters meters' : Meters} (hcluster : cluster'.uncounted = cluster.uncounted) :
    Excerpt K { s with cluster, registry, meters }
      { s' with cluster := cluster', registry := registry', meters := meters' } :=
  { h with cluster := hcluster }

theorem markSeen (h : Excerpt K s s') (g : GroupVersionKind) (name : String) :
    Excerpt K (s.markSeen g name) (s'.markSeen g name) := by
  refine { h with seen := fun k hk => ?_ }
  show (Table.put g name s'.seen).lookup k = (Table.put g name s.seen).lookup k
  rw [Table.lookup_put, Table.lookup_put, h.seen k hk]

/-- A call that is kept joins the slot of its kind. Whether the slot is new is the same on
both sides, because the slots of kept kinds are held by kept calls alone. -/
theorem enqueue (h : Excerpt K s s') (hl : Lanes s) (hl' : Lanes s') (hc : K.call c = true)
    (use : Use) (q : Query) :
    Excerpt K (s.enqueue c use q) (s'.enqueue (K.callNo c) use q) := by
  have hslots := slotFor_enqueue hl c use q
  have hslots' := slotFor_enqueue hl' (K.callNo c) use q
  obtain ⟨slots, slotOf, i, heq⟩ := s.enqueue_eq c use q
  obtain ⟨slots', slotOf', i', heq'⟩ := s'.enqueue_eq (K.callNo c) use q
  rw [heq] at hslots ⊢
  rw [heq'] at hslots' ⊢
  refine { h with calls := h.calls.set hc (.queued ⟨rfl, rfl⟩), slots := fun k hk => ?_ }
  rw [hslots, hslots', h.slots k hk]
  split
  · rcases s.slotFor k with _ | slot
    · rfl
    · exact congrArg some (Slot.rename_join ..).symm
  · rfl

end Excerpt

/-! ## Slots of kinds that are kept -/

/-- Whoever is in the slot of a kind that is kept is kept: calls come into a slot by their
kind. -/
theorem Parts.kept_of_mem (h : Parts K s) (ho : Orderly s) {slot : Slot}
    (hslot : s.slotFor g = some slot) (hg : K.kind g = true) {d : CallId}
    (hd : d ∈ slot.members) : K.call d = true := by
  obtain ⟨u, hu, rfl⟩ := (ho.mem_slotFor hslot).mp hd
  rw [(h.calls d).of_ticket hu, hg]

/-- Numbers tell the calls in a slot apart. Ranks are told apart among kept calls only, and
there are no others in the slot. -/
theorem Parts.callNo_inj (h : Parts K s) (ho : Orderly s) {slot : Slot}
    (hslot : s.slotFor g = some slot) (hg : K.kind g = true) (hc : K.call c = true) :
    ∀ d ∈ slot.members, K.callNo d = K.callNo c ↔ d = c :=
  fun _ hd => rank_inj (h.kept_of_mem ho hslot hg hd) hc

/-- A call has its turn in both or in none. The slot of its kind has the same order of calls
on both sides, under other numbers. -/
theorem Excerpt.hasTurn (h : Excerpt K s s') (hp : Parts K s) (ho : Orderly s)
    (ho' : Orderly s') (hc : K.call c = true) (ht : (s.call c).ticket? = some t)
    (ht' : (s'.call (K.callNo c)).ticket? = some t') (htwin : Twin t t') :
    s'.hasTurn (K.callNo c) t'.slot = s.hasTurn c t.slot := by
  have hg : K.kind t.query.gvk = true := by rw [← (hp.calls c).of_ticket ht, hc]
  obtain ⟨slot, hslot, -⟩ := ho.exists_slotFor ht
  have hslot' : s'.slotFor t'.query.gvk = some (slot.rename K.callNo) := by
    rw [htwin.query, h.slots _ hg, hslot]
    rfl
  have hiff := Slot.holder_rename (hp.callNo_inj ho hslot hg hc)
  rw [Bool.eq_iff_iff, ho.hasTurn_iff ht hslot, ho'.hasTurn_iff ht' hslot', hiff]

/-- A call that is kept has its turn in both caches. All legs of a start happen in this
situation; it is kept together here so that each of them is stated with one hypothesis. -/
structure Inside (K : Cut) (s s' : Cache) (c : CallId) (t t' : Ticket) : Prop where
  orderly : Orderly s
  orderly' : Orderly s'
  kept : K.call c = true
  kind : K.kind t.query.gvk = true
  ticket : (s.call c).ticket? = some t
  ticket' : (s'.call (K.callNo c)).ticket? = some t'
  twin : Twin t t'
  turn : s.hasTurn c t.slot = true
  turn' : s'.hasTurn (K.callNo c) t'.slot = true

namespace Inside

/-- Asking the cluster or opening a stream leaves the turn where it is. -/
theorem apart (h : Inside K s s' c t t') (hs₁ : Apart s s₁) (hs₁' : Apart s' s₁') :
    Inside K s₁ s₁' c t t' where
  orderly := h.orderly.apart hs₁
  orderly' := h.orderly'.apart hs₁'
  kept := h.kept
  kind := h.kind
  ticket := hs₁.call c ▸ h.ticket
  ticket' := hs₁'.call (K.callNo c) ▸ h.ticket'
  twin := h.twin
  turn := (hs₁.hasTurn ..).trans h.turn
  turn' := (hs₁'.hasTurn ..).trans h.turn'

/-- Its turn ends in both. The last call through takes the slot off the table, and it is the
last one in both or in none. -/
theorem leaveSlot (h : Inside K s s' c t t') (he : Excerpt K s s') :
    Excerpt K (s.leaveSlot t) (s'.leaveSlot t') := by
  have hslots := h.orderly.slotFor_leaveSlot h.ticket h.turn
  have hslots' := h.orderly'.slotFor_leaveSlot h.ticket' h.turn'
  obtain ⟨slots, slotOf, heq⟩ := s.leaveSlot_eq t
  obtain ⟨slots', slotOf', heq'⟩ := s'.leaveSlot_eq t'
  rw [heq] at hslots ⊢
  rw [heq'] at hslots' ⊢
  refine { he with slots := fun k hk => ?_ }
  rw [hslots, hslots', he.slots k hk, h.twin.query]
  split
  · rcases s.slotFor k with _ | slot
    · rfl
    · exact Slot.rename_handOn ..
  · rfl

end Inside

/-! ## Streams that are kept -/

namespace Excerpt

/-- The watcher of a stream that is kept runs in both or in none. A kept stream belongs to a
kept watcher, which is the same on both sides. -/
theorem runningStream? (h : Excerpt K s s') (hp : K.Watches s) (hs : Streams s) {name : String}
    (hname : K.stream name = true) :
    s'.runningStream? name = (s.runningStream? name).map K.watcherNo := by
  rw [Cache.runningStream?, Cache.runningStream?, h.streams name hname]
  rcases hlookup : s.streams.lookup name with _ | w
  · rfl
  · obtain ⟨watcher, hget, -, rfl⟩ := hs.tabled name w hlookup
    have hw : K.watcher w = true := (hp w watcher hget).trans hname
    have hrunning : s'.isRunning (K.watcherNo w) = s.isRunning w := by
      rw [isRunning, isRunning, h.watcher hw]
    simp only [Option.map_some, Option.filter_some, hrunning]
    split <;> rfl

/-- The watcher that is known for a kind that is kept is the same in both. That the stream
of a kept kind is kept as well is part of `Parts`. -/
theorem seenWatcher? (h : Excerpt K s s') (hp : Parts K s) (hs : Streams s)
    (hg : K.kind g = true) : s'.seenWatcher? g = (s.seenWatcher? g).map K.watcherNo := by
  rw [Cache.seenWatcher?, Cache.seenWatcher?, h.seen g hg]
  rcases hlookup : s.seen.lookup g with _ | name
  · rfl
  · exact h.runningStream? hp.watches hs ((hp.seen g name hlookup).trans hg)

/-- A stream is opened in both. The new watcher is the last one on either side, so its rank
is its number on the other side. -/
theorem spawn (h : Excerpt K s s') (hkeep : K.watcher s.watchers.length = true) (r : Resource)
    (cap : Nat) (tied : Bool) :
    Excerpt K (s.spawn r cap tied).1 (s'.spawn r cap tied).1 := by
  have hopening := Cluster.opening_of_uncounted h.cluster r.plural
  refine { h with cluster := h.cluster, watchers := h.watchers.snoc hkeep ?_ }
  rw [hopening, h.shutdown]

/-- The watcher of a resource that is kept is the same in both, whether it is there or has
to be made. -/
theorem watcherFor (h : Excerpt K s s') (hs : Streams s) (hr : K.stream r.streamName = true)
    (hwatches : K.Watches (s.watcherFor r).1) :
    Excerpt K (s.watcherFor r).1 (s'.watcherFor r).1 ∧
      (s'.watcherFor r).2 = K.watcherNo (s.watcherFor r).2 ∧
      K.watcher (s.watcherFor r).2 = true := by
  have hbefore : K.Watches s := hwatches.before (watcherFor_grows s r)
  have hrunning := h.runningStream? hbefore hs hr
  obtain ⟨-, watcher, hget, -⟩ := hs.watcherFor r
  have hkept : K.watcher (s.watcherFor r).2 = true := by
    rw [hwatches _ watcher hget, streamName_watcherFor hs hget, hr]
  rcases hrun : s.runningStream? r.streamName with _ | w
  · rw [hrun, Option.map_none] at hrunning
    have hnew : K.watcher s.watchers.length = true := by
      simp only [Cache.watcherFor, hrun] at hkept
      exact hkept
    have hspawned := h.spawn hnew r s.settings.eventQueueCap.toNat true
    simp only [Cache.watcherFor, hrun, hrunning, h.settings]
    refine ⟨{ hspawned with streams := fun name hname => ?_ }, h.watchers.length, hnew⟩
    show (Table.put r.streamName s'.watchers.length s'.streams).lookup name =
      ((Table.put r.streamName s.watchers.length s.streams).lookup name).map K.watcherNo
    rw [Table.lookup_put, Table.lookup_put, h.streams name hname]
    split
    · exact congrArg some h.watchers.length
    · rfl
  · rw [hrun, Option.map_some] at hrunning
    rw [watcherFor_running hrun] at hkept ⊢
    rw [watcherFor_running hrunning]
    exact ⟨h, rfl, hkept⟩

end Excerpt

/-! ## Legs of a search -/

/-- Legs that lead to the same on both sides, with the same answer. The answer is part of
it, since it is what the next leg and the log depend on. -/
structure Follows (K : Cut) (leg leg' : Leg) : Prop where
  excerpt : Excerpt K leg.1 leg'.1
  answer : leg'.2 = leg.2.map (Except.map K.watcherNo)

/-- To look for the relist changes no watcher. So all that a leg opens is open before it
looks. -/
theorem awaitSync_watchers (s : Cache) (c : CallId) (t : Ticket) (w : WatcherId)
    (deadline : Option Nat) : (s.awaitSync c t w deadline).1.watchers = s.watchers := by
  simp only [awaitSync]
  split
  · exact leaveSlot_watchers ..
  · split
    · exact leaveSlot_watchers ..
    · exact leaveSlot_watchers ..
    · split
      · exact leaveSlot_watchers ..
      · rfl

namespace Inside

/-- The turn ends with the same answer. -/
theorem leave (h : Inside K s s' c t t') (he : Excerpt K s s')
    (answer : Except CacheError WatcherId) :
    Follows K (s.leave t answer) (s'.leave t' (answer.map K.watcherNo)) :=
  ⟨h.leaveSlot he, rfl⟩

/-- The turn ends with the same error. Errors name kinds and resources, and no numbers that
could differ. -/
theorem fails (h : Inside K s s' c t t') (he : Excerpt K s s') (e : CacheError) :
    Follows K (s.leave t (.error e)) (s'.leave t' (.error e)) :=
  h.leave he (.error e)

/-- The same relist is awaited: both sides look at the same watcher, and have the same time
and the same deadline. -/
theorem awaitSync (h : Inside K s s' c t t') (he : Excerpt K s s') (hw : K.watcher w = true)
    (deadline : Option Nat) :
    Follows K (s.awaitSync c t w deadline)
      (s'.awaitSync (K.callNo c) t' (K.watcherNo w) deadline) := by
  simp only [Cache.awaitSync, he.watcher hw]
  split
  · exact h.fails he _
  · next watcher hget =>
    rw [he.shutdown]
    split
    · have hmarked := he.markSeen t.query.gvk watcher.resource.streamName
      rw [h.twin.query]
      exact (h.apart (.markSeen ⟨rfl, rfl, rfl⟩ _ _) (.markSeen ⟨rfl, rfl, rfl⟩ _ _)).leave
        hmarked (.ok w)
    · exact h.fails he _
    · rw [he.now]
      split
      · have htext : s'.timedOut watcher.kindText = s.timedOut watcher.kindText := by
          rw [timedOut, timedOut, he.settings]
        rw [htext]
        exact h.fails he _
      · exact ⟨he.setCall h.kept (.syncing h.twin w deadline), rfl⟩

/-- The same rights are asked for. The answers agree because the clusters differ in their
counts only; when all are granted, the stream is opened on both sides. -/
theorem probeRights (h : Inside K s s' c t t') (he : Excerpt K s s') (hs : Streams s)
    (hr : K.stream r.streamName = true) {access : Access} {left : List Verb}
    (hwatches : K.Watches (s.probeRights c t r access left).1) :
    Follows K (s.probeRights c t r access left)
      (s'.probeRights (K.callNo c) t' r access left) := by
  cases left with
  | cons verb left =>
    have hanswer := Cluster.answer_of_uncounted he.cluster (.about r verb)
    simp only [Cache.probeRights, review, Cluster.review, hanswer]
    refine ⟨Excerpt.setCall (he.asked ?_) h.kept (.probing h.twin r _ left), rfl⟩
    exact he.cluster
  | nil =>
    simp only [Cache.probeRights] at hwatches ⊢
    split
    · exact h.fails he _
    · next hgranted =>
      simp only [hgranted, openStream] at hwatches ⊢
      have hbefore : K.Watches (s.watcherFor r).1 := by
        intro v watcher hget
        refine hwatches v watcher ?_
        rw [awaitSync_watchers]
        exact hget
      obtain ⟨he₁, hsame, hw⟩ := he.watcherFor hs hr hbefore
      rw [hsame, he₁.settings, he₁.now]
      exact (h.apart (.watcherFor s r) (.watcherFor s' r)).awaitSync he₁ hw _

end Inside

/-- Two caches over clusters with one listing, of which the second one holds what is kept of
the first one. The invariants of both sides come along, as each leg needs some of them. -/
structure Paired (K : Cut) (listing : List Resource) (s s' : Cache) : Prop where
  excerpt : Excerpt K s s'
  parts : Parts K s
  streams : Streams s
  orderly : Orderly s
  orderly' : Orderly s'
  knows : s.Knows listing
  knows' : s'.Knows listing

namespace Paired

variable {listing : List Resource}

/-- A kept call with a ticket that has its turn in the one cache has it in the other one. -/
theorem inside (h : Paired K listing s s') (hc : K.call c = true)
    (ht : (s.call c).ticket? = some t) (ht' : (s'.call (K.callNo c)).ticket? = some t')
    (htwin : Twin t t') (hturn : s.hasTurn c t.slot = true) : Inside K s s' c t t' where
  orderly := h.orderly
  orderly' := h.orderly'
  kept := hc
  kind := by rw [← (h.parts.calls c).of_ticket ht, hc]
  ticket := ht
  ticket' := ht'
  twin := htwin
  turn := hturn
  turn' := (h.excerpt.hasTurn h.parts h.orderly h.orderly' hc ht ht' htwin).trans hturn

/-- The same watcher is known, or the call joins the slot. -/
theorem approach (h : Paired K listing s s') (hc : K.call c = true) (use : Use) {q : Query}
    (hg : K.kind q.gvk = true) :
    Follows K (s.approach c use q) (s'.approach (K.callNo c) use q) := by
  simp only [Cache.approach, h.excerpt.seenWatcher? h.parts h.streams hg, h.excerpt.shutdown]
  rcases s.seenWatcher? q.gvk with _ | w
  · simp only [Option.map_none]
    split
    · exact ⟨h.excerpt, rfl⟩
    · exact ⟨h.excerpt.enqueue h.orderly.lanes h.orderly'.lanes hc use q, rfl⟩
  · exact ⟨h.excerpt, rfl⟩

/-- The same watcher is known, or the kind is started. The call before it has left the same
mark in both. -/
theorem enter (h : Paired K listing s s') (hi : Inside K s s' c t t') :
    Follows K (s.enter c t) (s'.enter (K.callNo c) t') := by
  simp only [Cache.enter, hi.twin.query, h.excerpt.seenWatcher? h.parts h.streams hi.kind]
  rcases s.seenWatcher? t.query.gvk with _ | w
  · exact ⟨h.excerpt.setCall hi.kept (.resolving hi.twin), rfl⟩
  · exact hi.leave h.excerpt (.ok w)

/-- The same resource serves the kind. The registries may have been asked for different
kinds before, and agree all the same, because both know one listing. -/
theorem findResource (h : Paired K listing s s') (hi : Inside K s s' c t t') :
    Follows K (s.findResource c t) (s'.findResource (K.callNo c) t') := by
  have hresult := (h.knows.resolveKind t.query.gvk).2
  have hresult' := (h.knows'.resolveKind t.query.gvk).2
  have he : Excerpt K (s.resolveKind t.query.gvk).1 (s'.resolveKind t.query.gvk).1 := by
    have hcluster := resolveKind_cluster s t.query.gvk
    have hcluster' := resolveKind_cluster s' t.query.gvk
    exact h.excerpt.asked (hcluster'.trans (h.excerpt.cluster.trans hcluster.symm))
  have hi' : Inside K (s.resolveKind t.query.gvk).1 (s'.resolveKind t.query.gvk).1 c t t' :=
    hi.apart ⟨rfl, rfl, rfl⟩ ⟨rfl, rfl, rfl⟩
  simp only [Cache.findResource, hi.twin.query, hresult, hresult']
  rcases served listing t.query.gvk with _ | r
  · exact hi'.fails he _
  · exact ⟨he.setCall hi.kept (.probing hi.twin r .denied Verb.required), rfl⟩

/-- **A leg of a search leads to the same on both sides.** The hypothesis is that the
watchers of the first cache stay divided into kept ones and others after the leg. -/
theorem current (h : Paired K listing s s') (hc : K.call c = true)
    (hwatches : K.Watches (s.current c).1) :
    Follows K (s.current c) (s'.current (K.callNo c)) := by
  have hsimilar := h.excerpt.call hc
  have hfits := h.parts.calls c
  have hinside : ∀ t t', (s.call c).ticket? = some t →
      (s'.call (K.callNo c)).ticket? = some t' → Twin t t' → s.hasTurn c t.slot = true →
      Inside K s s' c t t' := fun _ _ => h.inside hc
  have hturns : ∀ t t', (s.call c).ticket? = some t →
      (s'.call (K.callNo c)).ticket? = some t' → Twin t t' →
      s'.hasTurn (K.callNo c) t'.slot = s.hasTurn c t.slot :=
    fun _ _ => h.excerpt.hasTurn h.parts h.orderly h.orderly' hc
  have hholds := h.orderly.turns.holds c
  simp only [Cache.current] at hwatches ⊢
  generalize s.call c = point at hsimilar hfits hinside hturns hholds hwatches ⊢
  generalize s'.call (K.callNo c) = point' at hsimilar hinside hturns ⊢
  cases hsimilar with
  | fresh request =>
    cases request with
    | use use q => exact h.approach hc use (hfits.symm.trans hc)
    | sync w => exact ⟨h.excerpt, rfl⟩
  | @queued t t' htwin =>
    dsimp only
    rw [hturns t t' rfl rfl htwin]
    split
    · next hturn => exact h.enter (hinside t t' rfl rfl htwin hturn)
    · exact ⟨h.excerpt, rfl⟩
  | @resolving t t' htwin =>
    exact h.findResource (hinside t t' rfl rfl htwin (hholds t rfl))
  | @probing t t' htwin r access left =>
    have hi := hinside t t' rfl rfl htwin (hholds t rfl)
    exact hi.probeRights h.excerpt h.streams (hfits.2.trans hi.kind) hwatches
  | @syncing t t' htwin w deadline =>
    have hi := hinside t t' rfl rfl htwin (hholds t rfl)
    exact hi.awaitSync h.excerpt (hfits.2.trans hi.kind) deadline
  | pausing | waiting | ended => exact ⟨h.excerpt, rfl⟩

end Paired

end

end Cache

end KindCache
