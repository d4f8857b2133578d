import KindCache.Proofs.Cache.Run

/-!
# Streams and their watchers

How the table of streams, the watchers and the kinds that were started belong
together in every reachable state (`streams_of_reachable`).

* `Streams` — the invariant: of the watchers that serve one stream name the
  table has the latest, and no other one runs; a kind that was started had a
  watcher in sync;
* `Streams.leg`, `Streams.perform` — a leg and a move preserve it;
* `Leads.watchers` — which leg opens a stream;
* `run_grows`, `watchers_reachable` — watchers stay, and each one has a run of its
  own.
-/

namespace KindCache

namespace Cache

/-- A watcher of the cache, as opposed to one beside it. -/
def Tied (s : Cache) (w : WatcherId) : Prop :=
  ∃ watcher, s.watchers[w]? = some watcher ∧ watcher.tied = true

/-- The watchers that serve streams, the table of streams and the kinds that were started.
The fields are kept together as they are needed for one another: a mark leads to a name, the
name to the table, and the table to the one watcher that may run. -/
structure Streams (s : Cache) : Prop where
  /-- the table has the latest watcher of a stream name, which is the only one
  that may run -/
  latest : ∀ (i : WatcherId) (w : Watcher), s.watchers[i]? = some w → w.tied = true →
    ∃ j, s.streams.lookup w.resource.streamName = some j ∧ i ≤ j ∧ (w.running = true → i = j)
  /-- what is on the table serves its stream name -/
  tabled : ∀ name j, s.streams.lookup name = some j →
    ∃ w : Watcher, s.watchers[j]? = some w ∧ w.tied = true ∧ w.resource.streamName = name
  /-- the stream name of a started kind has had a watcher in sync -/
  seen : ∀ g name, s.seen.lookup g = some name →
    ∃ (v : WatcherId) (w : Watcher), s.watchers[v]? = some w ∧ w.tied = true ∧
      w.resource.streamName = name ∧ w.synced = true
  /-- calls await relists of such watchers -/
  awaited : ∀ c t w d, s.call c = .syncing t w d → s.Tied w

section

variable {s s' : Cache} {c : CallId} {t : Ticket} {w : WatcherId}

theorem isRunning_iff : s.isRunning w = true ↔
    ∃ watcher, s.watchers[w]? = some watcher ∧ watcher.running = true := by
  simp only [isRunning]
  rcases s.watchers[w]? with _ | watcher <;> simp

theorem runningStream?_eq_some {name : String} : s.runningStream? name = some w ↔
    s.streams.lookup name = some w ∧ s.isRunning w = true := by
  rw [runningStream?, Option.filter_eq_some_iff]

theorem seenWatcher?_eq_some {g : GroupVersionKind} : s.seenWatcher? g = some w ↔
    ∃ name, s.seen.lookup g = some name ∧ s.streams.lookup name = some w ∧
      s.isRunning w = true := by
  rw [seenWatcher?, Option.bind_eq_some_iff]
  simp only [runningStream?_eq_some]

/-- A kind that was never started has no watcher that is known. -/
theorem seenWatcher?_eq_none {g : GroupVersionKind} (h : s.seen.lookup g = none) :
    s.seenWatcher? g = none := by
  rw [seenWatcher?, h]
  rfl

/-- A watcher of the cache stays one of the cache. -/
theorem Tied.evolve (h : s.Tied w) (hw : Evolves s.watchers s'.watchers) : s'.Tied w := by
  obtain ⟨watcher, hget, htied⟩ := h
  obtain ⟨watcher', hget', hlater⟩ := hw.after hget
  exact ⟨watcher', hget', hlater.tied.trans htied⟩

theorem streams_starting (cluster : Cluster) (settings : Settings) :
    Streams (starting cluster settings) := by
  refine ⟨?_, ?_, ?_, ?_⟩
  · intro i w h
    cases h
  · intro name j h
    cases h
  · intro g name h
    cases h
  · intro c t w d h
    cases h

namespace Streams

/-- Watchers may get on if nothing else changes. A watcher that runs later has run before,
and one that was in sync still is, so what the invariant says of them stays true. -/
theorem evolve (h : Streams s) (hw : Evolves s.watchers s'.watchers)
    (hstreams : s'.streams = s.streams) (hseen : s'.seen = s.seen)
    (hcalls : ∀ c t w d, s'.call c = .syncing t w d → s.Tied w) : Streams s' := by
  refine ⟨?_, ?_, ?_, fun c t w d hc => (hcalls c t w d hc).evolve hw⟩
  · intro i w' hget' htied
    obtain ⟨w, hget, hlater⟩ := hw.before hget'
    obtain ⟨j, hj, hle, hrun⟩ := h.latest i w hget (hlater.tied.symm.trans htied)
    rw [hstreams, hlater.resource]
    exact ⟨j, hj, hle, hrun ∘ hlater.running⟩
  · intro name j hj
    rw [hstreams] at hj
    obtain ⟨w, hget, htied, hname⟩ := h.tabled name j hj
    obtain ⟨w', hget', hlater⟩ := hw.after hget
    exact ⟨w', hget', hlater.tied.trans htied, by rw [hlater.resource, hname]⟩
  · intro g name hg
    rw [hseen] at hg
    obtain ⟨v, w, hget, htied, hname, hsynced⟩ := h.seen g name hg
    obtain ⟨w', hget', hlater⟩ := hw.after hget
    exact ⟨v, w', hget', hlater.tied.trans htied, by rw [hlater.resource, hname],
      hlater.synced hsynced⟩

/-- Calls may move if none of them comes to await another relist. -/
theorem setCall (h : Streams s) {point : Call} (hcalls : s'.calls = s.calls.set c point)
    (hpoint : ∀ t w d, point = .syncing t w d → s.Tied w) (hwatchers : s'.watchers = s.watchers)
    (hstreams : s'.streams = s.streams) (hseen : s'.seen = s.seen) : Streams s' := by
  refine h.evolve (hwatchers ▸ .refl _) hstreams hseen fun d t w deadline hd => ?_
  by_cases hdc : d = c
  · subst hdc
    rcases call_of_set_self hcalls with hself | hself
    · exact hpoint t w deadline (hself.symm.trans hd)
    · rw [hself] at hd
      cases hd
  · rw [call_of_set_other hcalls hdc] at hd
    exact h.awaited d t w deadline hd

/-- A stream may be opened beside the table. Its watcher is not tied, and the invariant is
about tied ones only. -/
theorem standalone (h : Streams s) (r : Resource) (cap : Nat) :
    Streams (s.standalone r cap).1 := by
  obtain ⟨cluster, watcher, heq, -, huntied, -⟩ := s.spawn_eq r cap false
  rw [Cache.standalone, heq]
  refine ⟨?_, ?_, ?_, ?_⟩
  · intro i w hget htied
    rcases getElem?_snoc hget with hget | ⟨-, rfl⟩
    · exact h.latest i w hget htied
    · rw [huntied] at htied
      cases htied
  · intro name j hj
    obtain ⟨w, hget, htied⟩ := h.tabled name j hj
    exact ⟨w, getElem?_snoc_of_some hget, htied⟩
  · intro g name hg
    obtain ⟨v, w, hget, hv⟩ := h.seen g name hg
    exact ⟨v, w, getElem?_snoc_of_some hget, hv⟩
  · intro c t w d hc
    obtain ⟨watcher, hget, htied⟩ := h.awaited c t w d hc
    exact ⟨watcher, getElem?_snoc_of_some hget, htied⟩

/-- The watcher of a resource is tied, whether it runs already or is new. A new one replaces
the entry of its name in the table; the watcher that stood there runs no more, or it would
have been taken. -/
theorem watcherFor (h : Streams s) (r : Resource) :
    Streams (s.watcherFor r).1 ∧ (s.watcherFor r).1.Tied (s.watcherFor r).2 := by
  rcases hrun : s.runningStream? r.streamName with _ | w
  · obtain ⟨cluster, watcher, heq, hresource, htied, -⟩ := watcherFor_opened hrun
    have hnew : (s.watchers ++ [watcher])[s.watchers.length]? = some watcher :=
      List.getElem?_concat_length ..
    rw [heq]
    refine ⟨⟨?_, ?_, ?_, ?_⟩, watcher, hnew, htied⟩
    · -- the new watcher is the latest of its stream name, all others keep theirs
      intro i w hget hw
      show ∃ j, (Table.put _ _ _).lookup _ = some j ∧ _
      rw [Table.lookup_put]
      rcases getElem?_snoc hget with hget | ⟨rfl, rfl⟩
      · obtain ⟨j, hj, hle, hlatest⟩ := h.latest i w hget hw
        split
        · next hname =>
          -- the watcher on the table before was the latest, and did not run
          refine ⟨_, rfl, Nat.le_of_lt (List.getElem?_eq_some_iff.mp hget).1, fun hr => ?_⟩
          obtain rfl := hlatest hr
          rw [hname] at hj
          have hsome := runningStream?_eq_some.mpr ⟨hj, isRunning_iff.mpr ⟨w, hget, hr⟩⟩
          rw [hrun] at hsome
          cases hsome
        · exact ⟨j, hj, hle, hlatest⟩
      · rw [if_pos (congrArg _ hresource)]
        exact ⟨_, rfl, Nat.le_refl _, fun _ => rfl⟩
    · intro name j hj
      change (Table.put _ _ _).lookup _ = some j at hj
      rw [Table.lookup_put] at hj
      split at hj
      · next hname =>
        obtain rfl := Option.some.inj hj
        exact ⟨watcher, hnew, htied, by rw [hresource, hname]⟩
      · obtain ⟨w, hget, hw⟩ := h.tabled name j hj
        exact ⟨w, getElem?_snoc_of_some hget, hw⟩
    · intro g name hg
      obtain ⟨v, w, hget, hv⟩ := h.seen g name hg
      exact ⟨v, w, getElem?_snoc_of_some hget, hv⟩
    · intro c t w d hc
      obtain ⟨watcher, hget, hw⟩ := h.awaited c t w d hc
      exact ⟨watcher, getElem?_snoc_of_some hget, hw⟩
  · obtain ⟨hlookup, -⟩ := runningStream?_eq_some.mp hrun
    obtain ⟨watcher, hget, htied, -⟩ := h.tabled _ _ hlookup
    rw [watcherFor_running hrun]
    exact ⟨h, watcher, hget, htied⟩

/-- A kind may be marked when a watcher of the cache has got its relist. -/
theorem markSeen (h : Streams s) {watcher : Watcher} (hget : s.watchers[w]? = some watcher)
    (htied : watcher.tied = true) (hsynced : watcher.synced = true) (g : GroupVersionKind) :
    Streams (s.markSeen g watcher.resource.streamName) := by
  refine ⟨h.latest, h.tabled, fun k name hk => ?_, h.awaited⟩
  change (Table.put g watcher.resource.streamName s.seen).lookup k = some name at hk
  rw [Table.lookup_put] at hk
  split at hk
  · obtain rfl := Option.some.inj hk
    exact ⟨w, watcher, hget, htied, rfl, hsynced⟩
  · exact h.seen k name hk

theorem leave (h : Streams s) (t : Ticket) : Streams (s.leaveSlot t) := by
  obtain ⟨slots, slotOf, heq⟩ := leaveSlot_eq s t
  rw [heq]
  exact ⟨h.latest, h.tabled, h.seen, h.awaited⟩

theorem asked (h : Streams s) (hs' : Asked s s') : Streams s' := by
  obtain ⟨cluster, registry, meters⟩ := hs'
  exact ⟨h.latest, h.tabled, h.seen, h.awaited⟩

theorem awaits (h : Streams s) (hs' : Awaits s c t w s') : Streams s' ∧ s'.Tied w := by
  cases hs' with
  | opening hcall => exact h.watcherFor _
  | waiting hcall => exact ⟨h, h.awaited c t w _ hcall⟩

theorem ends (h : Streams s) (hs' : Ends s c s') : Streams s' := by
  obtain ⟨point, hpoint, hcalls⟩ := hs'.calls
  have hmoved : Streams { s with calls := s.calls.set c point } := by
    refine h.setCall rfl ?_ rfl rfl rfl
    rintro t w d rfl
    cases hpoint
  refine hmoved.evolve hs'.evolves hs'.streams hs'.seen fun d t w deadline hd => ?_
  refine hmoved.awaited d t w deadline ?_
  rw [call, hcalls] at hd
  exact hd

/-- A leg of a search preserves the invariant. The cases that matter are those that open a
stream and the one that marks the kind. -/
theorem leg (h : Streams s) {leg : Leg} (hleg : Leads s c leg) : Streams leg.1 := by
  cases hleg with
  | resting hcall => exact h
  | found hcall hw => exact h
  | refused hcall hs => exact h
  | joined hcall hw =>
    obtain ⟨slots, slotOf, i, heq⟩ := s.enqueue_eq c _ _
    rw [heq]
    exact h.setCall rfl (fun _ _ _ hpoint => by cases hpoint) rfl rfl rfl
  | shared hcall hturn hw => exact h.leave _
  | begun hcall hturn hw => exact h.setCall rfl (fun _ _ _ hpoint => by cases hpoint) rfl rfl rfl
  | resolved hcall hs' =>
    exact (h.asked hs').setCall rfl (fun _ _ _ hpoint => by cases hpoint) rfl rfl rfl
  | reviewed hcall hs' =>
    exact (h.asked hs').setCall rfl (fun _ _ _ hpoint => by cases hpoint) rfl rfl rfl
  | waited ha =>
    obtain ⟨hs', htied⟩ := h.awaits ha
    refine hs'.setCall rfl (fun _ _ _ hpoint => ?_) rfl rfl rfl
    cases hpoint
    exact htied
  | failed hcall hs' => exact (h.asked hs').leave _
  | expired ha => exact (h.awaits ha).1.leave _
  | succeeded ha hget hsynced =>
    obtain ⟨hs', watcher, hget', htied⟩ := h.awaits ha
    obtain rfl := Option.some.inj (hget.symm.trans hget')
    exact (hs'.markSeen hget htied hsynced _).leave _

theorem advance (h : Streams s) (hs' : Advance s c s') : Streams s' := by
  cases hs' with
  | idle hcall => exact h
  | onward hleg =>
    have hs' := h.leg (s.current_leads c)
    rwa [hleg] at hs'
  | answered herrand hleg hend =>
    have hs' := h.leg (s.current_leads c)
    rw [hleg] at hs'
    exact hs'.ends hend
  | aside hcall hend => exact h.ends hend

/-- A move preserves the invariant, also one that asks for a watcher directly, past all
questions for rights. -/
theorem perform (h : Streams s) (m : Move) : Streams (s.perform m) := by
  cases m with
  | submit request =>
    refine h.evolve (.refl _) rfl rfl fun c t w d hc => ?_
    change (s.submit request).1.call c = _ at hc
    rw [call_submit] at hc
    split at hc
    · cases hc
    · exact h.awaited c t w d hc
  | advance c => exact h.advance (s.advance_cases c)
  | cancel c =>
    obtain ⟨slots, heq⟩ := s.cancel_eq c
    rw [Cache.perform, heq]
    exact h.setCall rfl (fun _ _ _ hpoint => by cases hpoint) rfl rfl rfl
  | watch w m =>
    exact h.evolve (.modify _ _ fun _ => ⟨[m], rfl⟩) rfl rfl h.awaited
  | gauge w =>
    obtain ⟨meters, heq⟩ := s.gaugeOf_eq w
    rw [Cache.perform, heq]
    exact ⟨h.latest, h.tabled, h.seen, h.awaited⟩
  | watcherFor r => exact (h.watcherFor r).1
  | standalone r cap => exact h.standalone r cap
  | shutDown => exact h.evolve (shutDown_evolves s) rfl rfl h.awaited
  | tick => exact ⟨h.latest, h.tabled, h.seen, h.awaited⟩
  | program f => exact ⟨h.latest, h.tabled, h.seen, h.awaited⟩

end Streams

/-! ## Watchers stay -/

/-- Watchers stay and have runs of their own, and others come. The runs of different
watchers are independent of one another, which is what carries theorems about one watcher
over to a cache. -/
structure Grows (ws ws' : List Watcher) : Prop where
  kept : ∀ (i : Nat) (w : Watcher), ws[i]? = some w → ∃ moves, ws'[i]? = some (w.run moves)
  new : ∀ (i : Nat) (w : Watcher), ws'[i]? = some w → ws[i]? = none → w.Reachable

namespace Grows

variable {ws ws₁ ws₂ ws₃ : List Watcher}

theorem of_evolves (h : Evolves ws₁ ws₂) : Grows ws₁ ws₂ := by
  refine ⟨h.ran, fun i w hget hnone => ?_⟩
  obtain ⟨v, hold, -⟩ := h.before hget
  rw [hnone] at hold
  cases hold

theorem refl (ws : List Watcher) : Grows ws ws :=
  .of_evolves (.refl ws)

theorem snoc {watcher : Watcher} (hnew : watcher.Reachable) : Grows ws (ws ++ [watcher]) := by
  refine ⟨fun i w hget => ⟨[], getElem?_snoc_of_some hget⟩, fun i w hget hnone => ?_⟩
  rcases getElem?_snoc hget with hold | ⟨-, rfl⟩
  · rw [hnone] at hold
    cases hold
  · exact hnew

theorem trans (h : Grows ws₁ ws₂) (h' : Grows ws₂ ws₃) : Grows ws₁ ws₃ := by
  refine ⟨fun i w hget => ?_, fun i w hget hnone => ?_⟩
  · obtain ⟨moves, hget'⟩ := h.kept i w hget
    obtain ⟨more, hget''⟩ := h'.kept i _ hget'
    refine ⟨moves ++ more, ?_⟩
    rw [hget'', Watcher.run_append]
  · rcases hmid : ws₂[i]? with _ | v
    · exact h'.new i w hget hmid
    · -- it came with the first change and had a run in the second one
      obtain ⟨moves, hget'⟩ := h'.kept i v hmid
      obtain rfl := Option.some.inj (hget.symm.trans hget')
      exact (h.new i v hmid hnone).run moves

/-- A watcher from before has at most got on. -/
theorem later (h : Grows s.watchers s'.watchers) {watcher : Watcher}
    (hget : s.watchers[w]? = some watcher) :
    ∃ watcher', s'.watchers[w]? = some watcher' ∧ watcher.Later watcher' := by
  obtain ⟨moves, hget'⟩ := h.kept w watcher hget
  exact ⟨_, hget', watcher.run_later moves⟩

/-- A watcher that runs later runs now. Nothing sets a watcher going again. -/
theorem running (h : Grows s.watchers s'.watchers) {watcher : Watcher}
    (hget : s.watchers[w]? = some watcher) (hrun : s'.isRunning w = true) :
    s.isRunning w = true := by
  obtain ⟨watcher', hget', hlater⟩ := h.later hget
  obtain ⟨watcher'', hget'', hrun⟩ := isRunning_iff.mp hrun
  obtain rfl := Option.some.inj (hget'.symm.trans hget'')
  exact isRunning_iff.mpr ⟨watcher, hget, hlater.running hrun⟩

end Grows

theorem watcherFor_grows (s : Cache) (r : Resource) :
    Grows s.watchers (s.watcherFor r).1.watchers := by
  rcases hrun : s.runningStream? r.streamName with _ | v
  · obtain ⟨cluster, watcher, heq, -, -, -, hnew⟩ := watcherFor_opened hrun
    rw [heq]
    exact .snoc hnew
  · rw [watcherFor_running hrun]
    exact .refl _

theorem Awaits.watchers (h : Awaits s c t w s') : s'.watchers = s.watchers ∨
    ∃ t r access, s.call c = .probing t r access [] ∧
      s'.watchers = (s.watcherFor r).1.watchers := by
  cases h with
  | opening hcall => exact .inr ⟨_, _, _, hcall, rfl⟩
  | waiting hcall => exact .inl rfl

/-- A leg opens a stream at most at the end of the rights. In particular a call that was
refused one opens none. -/
theorem Leads.watchers {leg : Leg} (h : Leads s c leg) :
    leg.1.watchers = s.watchers ∨
      ∃ t r access, s.call c = .probing t r access [] ∧
        leg.1.watchers = (s.watcherFor r).1.watchers := by
  cases h with
  | resting | found | refused | begun => exact .inl rfl
  | @joined use q hcall hw =>
    obtain ⟨slots, slotOf, i, heq⟩ := s.enqueue_eq c use q
    rw [heq]
    exact .inl rfl
  | shared => exact .inl (leaveSlot_watchers s _)
  | resolved hcall hs' =>
    obtain ⟨cluster, registry, meters⟩ := hs'
    exact .inl rfl
  | reviewed hcall hs' =>
    obtain ⟨cluster, registry, meters⟩ := hs'
    exact .inl rfl
  | waited ha => exact ha.watchers
  | failed hcall hs' =>
    obtain ⟨cluster, registry, meters⟩ := hs'
    exact .inl (leaveSlot_watchers _ _)
  | expired ha =>
    rw [leave, leaveSlot_watchers]
    exact ha.watchers
  | succeeded ha hget hsynced =>
    rw [leave, leaveSlot_watchers]
    exact ha.watchers

theorem Leads.grows {leg : Leg} (h : Leads s c leg) : Grows s.watchers leg.1.watchers := by
  rcases h.watchers with hsame | ⟨t, r, access, -, hsame⟩
  · rw [hsame]
    exact .refl _
  · rw [hsame]
    exact watcherFor_grows s r

theorem Advance.grows (h : Advance s c s') : Grows s.watchers s'.watchers := by
  cases h with
  | idle hcall => exact .refl _
  | onward hleg => exact Leads.grows (hleg ▸ s.current_leads c)
  | answered herrand hleg hend =>
    exact (Leads.grows (hleg ▸ s.current_leads c)).trans (.of_evolves hend.evolves)
  | aside hcall hend => exact .of_evolves hend.evolves

/-- A move forgets no watcher, not even one that has ended: its number may still be held by
someone who asks for it. -/
theorem perform_grows (s : Cache) (m : Move) : Grows s.watchers (s.perform m).watchers := by
  cases m with
  | advance c => exact (s.advance_cases c).grows
  | cancel c =>
    obtain ⟨slots, heq⟩ := s.cancel_eq c
    rw [perform, heq]
    exact .refl _
  | watch w m => exact .of_evolves (.modify _ _ fun _ => ⟨[m], rfl⟩)
  | gauge w =>
    obtain ⟨meters, heq⟩ := s.gaugeOf_eq w
    rw [perform, heq]
    exact .refl _
  | watcherFor r => exact watcherFor_grows s r
  | standalone r cap =>
    obtain ⟨cluster, watcher, heq, -, -, -, hnew⟩ := s.spawn_eq r cap false
    rw [perform, Cache.standalone, heq]
    exact .snoc hnew
  | shutDown => exact .of_evolves (shutDown_evolves s)
  | submit | tick | program => exact .refl _

/-- A run forgets no watcher. -/
theorem run_grows (s : Cache) (moves : List Move) :
    Grows s.watchers (s.runMoves moves).watchers := by
  induction moves generalizing s with
  | nil => exact .refl _
  | cons m moves ih => exact (perform_grows s m).trans (ih _)

end

/-- Each watcher of a cache has come to where it is by a run of its own. So what holds after
every run of a watcher holds of the watchers of a cache, however the moves of others lie in
between. -/
theorem watchers_reachable {s : Cache} (hs : Reachable s) {w : WatcherId} {watcher : Watcher}
    (hget : s.watchers[w]? = some watcher) : watcher.Reachable := by
  obtain ⟨cluster, settings, moves, rfl⟩ := hs
  exact (run_grows _ moves).new w watcher hget rfl

theorem streams_of_reachable {s : Cache} (hs : Reachable s) : Streams s :=
  hs.induction streams_starting fun _ m h => h.perform m

end Cache

end KindCache
