import KindCache.Proofs.Cache.Run
import KindCache.Session.Basic

/-!
# Sessions are runs

What a session does to its cache is a run: all tasks that it runs, all time that
it lets pass and all steps that it takes. So what holds in every reachable state
of a cache holds after every session (`after_reachable`).

* `LeadsTo` — one state leads to another one by some run;
* `leadsTo_map` — changing each watcher by moves of its own is a run;
* `settle_leadsTo`, `take_leadsTo` — running all tasks, and taking a step.
-/

namespace KindCache

namespace Cache

/-- Some run leads from one state to another one. -/
def LeadsTo (s s' : Cache) : Prop :=
  ∃ moves, s' = s.runMoves moves

namespace LeadsTo

variable {s s₁ s₂ s₃ : Cache}

theorem refl (s : Cache) : LeadsTo s s :=
  ⟨[], rfl⟩

theorem trans (h : LeadsTo s₁ s₂) (h' : LeadsTo s₂ s₃) : LeadsTo s₁ s₃ := by
  obtain ⟨moves, rfl⟩ := h
  obtain ⟨more, rfl⟩ := h'
  exact ⟨moves ++ more, (runMoves_append ..).symm⟩

theorem move (s : Cache) (m : Move) : LeadsTo s (s.perform m) :=
  ⟨[m], rfl⟩

/-- Hence what holds in every reachable state is not lost by what a session does in one
go. -/
theorem reachable (h : LeadsTo s₁ s₂) (hs : Reachable s₁) : Reachable s₂ := by
  obtain ⟨moves, rfl⟩ := h
  exact hs.runMoves moves

end LeadsTo

/-! ## Watchers -/

/-- Moves of one watcher are moves of the cache that change this watcher. -/
theorem runMoves_watch (s : Cache) (w : WatcherId) (moves : List Watcher.Move) :
    s.runMoves (moves.map (.watch w)) = s.modifyWatcher w (·.run moves) := by
  induction moves generalizing s with
  | nil =>
    show s = { s with watchers := s.watchers.modify w (·.run []) }
    rw [← modify_run_nil]
  | cons m moves ih =>
    rw [List.map_cons, runMoves_cons, ih]
    show { s with watchers := (s.watchers.modify w (·.perform m)).modify w (·.run moves) } = _
    rw [List.modify_modify_eq]
    rfl

/-- A watcher may be changed by any moves that it allows. The change is given as a function
here, because that is how a session makes it. -/
theorem leadsTo_modify (s : Cache) {w : WatcherId} {f : Watcher → Watcher} {watcher : Watcher}
    (hget : s.watchers[w]? = some watcher) (hf : ∃ moves, f watcher = watcher.run moves) :
    LeadsTo s (s.modifyWatcher w f) := by
  -- the moves depend on the watcher that is there, and no other one is changed
  obtain ⟨moves, hmoves⟩ := hf
  refine ⟨moves.map (.watch w), ?_⟩
  rw [runMoves_watch]
  have hsame : s.watchers.modify w f = s.watchers.modify w (·.run moves) := by
    refine List.ext_getElem? fun i => ?_
    rw [List.getElem?_modify, List.getElem?_modify]
    by_cases hi : w = i
    · subst hi
      simp [hget, hmoves]
    · simp [hi]
  rw [modifyWatcher, modifyWatcher, hsame]

/-- The first `n` items changed. -/
def mapFirst {α : Type} (f : α → α) (n : Nat) (as : List α) : List α :=
  as.mapIdx fun i a => if i < n then f a else a

/-- To change the next item is to have one more of them changed. -/
theorem modify_mapFirst {α : Type} (f : α → α) (n : Nat) (as : List α) :
    (mapFirst f n as).modify n f = mapFirst f (n + 1) as := by
  refine List.ext_getElem? fun i => ?_
  rw [mapFirst, mapFirst, List.getElem?_modify, List.getElem?_mapIdx, List.getElem?_mapIdx]
  rcases as[i]? with _ | a
  · rfl
  · show some (if n = i then f (if i < n then f a else a) else if i < n then f a else a) =
      some (if i < n + 1 then f a else a)
    rcases Nat.lt_trichotomy i n with hi | rfl | hi
    · rw [if_neg (Nat.ne_of_gt hi), if_pos hi, if_pos (Nat.lt_succ_of_lt hi)]
    · rw [if_pos rfl, if_neg (Nat.lt_irrefl i), if_pos (Nat.lt_succ_self i)]
    · rw [if_neg (Nat.ne_of_lt hi), if_neg (Nat.not_lt_of_lt hi), if_neg (by omega)]

theorem mapFirst_zero {α : Type} (f : α → α) (as : List α) : mapFirst f 0 as = as := by
  refine List.ext_getElem? fun i => ?_
  rw [mapFirst, List.getElem?_mapIdx]
  rcases as[i]? with _ | a <;> rfl

theorem mapFirst_length {α : Type} (f : α → α) (as : List α) :
    mapFirst f as.length as = as.map f := by
  refine List.ext_getElem? fun i => ?_
  rw [mapFirst, List.getElem?_mapIdx, List.getElem?_map]
  rcases hget : as[i]? with _ | a
  · rfl
  · obtain ⟨hi, -⟩ := List.getElem?_eq_some_iff.mp hget
    exact congrArg some (if_pos hi)

/-- All watchers may be changed, each by moves that it allows. A session does so at once;
the run does it one watcher after the other, which comes to the same. -/
theorem leadsTo_map (s : Cache) {f : Watcher → Watcher}
    (hf : ∀ w, ∃ moves, f w = w.run moves) :
    LeadsTo s { s with watchers := s.watchers.map f } := by
  -- one after the other, from the front
  have hfront : ∀ n, n ≤ s.watchers.length →
      LeadsTo s { s with watchers := mapFirst f n s.watchers } := by
    intro n
    induction n with
    | zero =>
      intro _
      rw [mapFirst_zero]
      exact .refl s
    | succ n ih =>
      intro hn
      have hlt : n < (mapFirst f n s.watchers).length := by
        rw [mapFirst, List.length_mapIdx]
        exact hn
      have hnext := leadsTo_modify { s with watchers := mapFirst f n s.watchers }
        (List.getElem?_eq_getElem hlt) (hf _)
      rw [modifyWatcher, modify_mapFirst] at hnext
      exact (ih (Nat.le_of_succ_le hn)).trans hnext
  have hall := hfront s.watchers.length (Nat.le_refl _)
  rwa [mapFirst_length] at hall

/-- A watcher does all that it can do, and then sets its meters. The meters are a move of
the cache, which finds the watcher as it is by then. -/
theorem ingest_leadsTo (s : Cache) (w : WatcherId) : LeadsTo s (s.ingest w) := by
  simp only [ingest]
  rcases hget : s.watchers[w]? with _ | watcher
  · exact .refl s
  · have hstep := leadsTo_modify s hget watcher.ingest_eq_run
    dsimp only
    split
    · refine hstep.trans ?_
      have hafter : (s.modifyWatcher w Watcher.ingest).watchers[w]? = some watcher.ingest := by
        simp [modifyWatcher, hget]
      have hgauge : (s.modifyWatcher w Watcher.ingest).perform (.gauge w) =
          (s.modifyWatcher w Watcher.ingest).gauge watcher.ingest := by
        simp only [perform, gaugeOf, hafter]
      rw [← hgauge]
      exact .move _ _
    · exact hstep

/-! ## Tasks -/

/-- A task is at least one leg, and goes on as long as the call can. How many legs it may
have does not matter here. -/
theorem resume_leadsTo (s : Cache) (c : CallId) : LeadsTo s (s.resume c) := by
  -- a task is at least one leg, and goes on as long as the call can
  have hlegs : ∀ n s, LeadsTo s (legs n s c) := by
    intro n
    induction n with
    | zero => exact .refl
    | succ n ih =>
      intro s
      simp only [legs]
      split
      · exact (LeadsTo.move s (.advance c)).trans (ih _)
      · exact .refl s
  exact (LeadsTo.move s (.advance c)).trans (hlegs (6 + s.readTries) _)

/-- Tasks run one after the other. Each of them is a run, in whatever state the one before
has left. -/
theorem runQueue_leadsTo (fuel : Nat) (s : Cache) (queue : List Task) :
    LeadsTo s (runQueue fuel s queue) := by
  induction fuel generalizing s queue with
  | zero => exact .refl s
  | succ fuel ih =>
    cases queue with
    | nil => exact .refl s
    | cons task queue =>
      have htask : LeadsTo s (s.run task) := by
        cases task with
        | ingest w => exact ingest_leadsTo s w
        | resume c => exact resume_leadsTo s c
      exact htask.trans (ih _ _)

/-- Running everything that can run is a run. -/
theorem settle_leadsTo (s : Cache) : LeadsTo s s.settle :=
  runQueue_leadsTo _ s _

/-- Letting time pass is a run: after each tick everything runs that can. -/
theorem pass_leadsTo (n : Nat) (s : Cache) : LeadsTo s (pass n s) := by
  induction n generalizing s with
  | zero => exact .refl s
  | succ n ih => exact ((LeadsTo.move s .tick).trans (settle_leadsTo _)).trans (ih _)

/-! ## What happens from outside -/

/-- Watchers of one resource move, and the others make no move at all. -/
theorem onResource_leadsTo (s : Cache) (plural : String) (m : Watcher.Move) :
    LeadsTo s (s.onResource plural (·.perform m)) := by
  refine leadsTo_map s fun w => ?_
  split
  · exact ⟨[m], rfl⟩
  · exact ⟨[], rfl⟩

theorem release_leadsTo (s : Cache) (plural : String) : LeadsTo s (s.release plural) :=
  (LeadsTo.move s (.program (·.setHeld plural false))).trans
    (onResource_leadsTo _ plural (.arrive _))

theorem drain_leadsTo (s : Cache) : LeadsTo s s.drain := by
  refine leadsTo_map s fun w => ?_
  obtain ⟨pace, hpace⟩ := w.drain_eq_perform
  exact ⟨[.deliver pace], hpace⟩

end Cache

namespace Session

open Cache (LeadsTo Reachable)

/-- Doing what a step says is a run. Most steps are a single move; those that only look at
something are none. -/
theorem perform_leadsTo (s : Session) (step : Step) :
    LeadsTo s.cache (s.perform step).1.cache := by
  have honWatcher : ∀ n (f : WatcherId → Watcher → Session × Effect),
      (∀ w watcher, LeadsTo s.cache (f w watcher).1.cache) →
      LeadsTo s.cache (s.onWatcher n f).1.cache := by
    intro n f hf
    simp only [onWatcher]
    split
    · exact .refl _
    · split
      · exact .refl _
      · exact hf _ _
  cases step with
  | serve r => exact .move _ (.program (·.serve r))
  | seed plural ds => exact .move _ (.program (·.seed plural ds))
  | grant plural access => exact .move _ (.program (·.grant plural access))
  | failReviews plural => exact .move _ (.program (·.failReviews plural))
  | hold plural => exact .move _ (.program (·.setHeld plural true))
  | release plural => exact Cache.release_leadsTo _ plural
  | closeStreams plural => exact Cache.onResource_leadsTo _ plural .closeStream
  | failDiscovery chain => exact .move _ (.program (·.failDiscovery chain))
  | emit plural items => exact Cache.onResource_leadsTo _ plural (.arrive _)
  | advance ms => exact Cache.pass_leadsTo ms _
  | shutDown => exact .move _ .shutDown
  | cancel step =>
    simp only [Session.perform]
    split
    · exact .move _ (.cancel _)
    · exact .refl _
  | use use query => exact .move _ (.submit _)
  | await n => exact honWatcher n _ fun w _ => .move _ (.submit _)
  | watcherFor r => exact .move _ (.watcherFor r)
  | standalone r cap => exact .move _ (.standalone r cap)
  | list n ns selector => exact honWatcher n _ fun _ _ => .refl _
  | get n name ns selector =>
    refine honWatcher n _ fun _ w => ?_
    split <;> exact .refl _
  | stop n => exact honWatcher n _ fun w _ => .move _ (.watch w .stop)
  | subscribe n name failsAt =>
    exact honWatcher n _ fun w _ => .move _ (.watch w (.subscribe name failsAt))
  | describe n => exact honWatcher n _ fun _ _ => .refl _
  | received name =>
    show LeadsTo s.cache (s.received name).1.cache
    simp only [received]
    split <;> exact .refl _
  | overview plurals => exact .refl _
  | metrics => exact .refl _
  | refused e => exact .refl _

/-- Taking a step is a run, with all that follows from it before the next step. -/
theorem take_leadsTo (s : Session) (step : Step) :
    LeadsTo s.cache (s.take step).1.cache :=
  ((perform_leadsTo s step).trans (Cache.settle_leadsTo _)).trans (Cache.drain_leadsTo _)

/-- The state of a session after some steps. -/
def after (s : Session) (steps : List Step) : Session :=
  steps.foldl (fun s step => (s.take step).1) s

/-- **After every session, the cache is in a reachable state.** So all invariants of
reachable states hold at every point of a session. -/
theorem after_reachable (cluster : Cluster) (settings : Settings) (steps : List Step) :
    Reachable ((starting cluster settings).after steps).cache := by
  have hafter : ∀ steps (s : Session), Reachable s.cache → Reachable (s.after steps).cache := by
    intro steps
    induction steps with
    | nil => exact fun s hs => hs
    | cons step steps ih => exact fun s hs => ih _ ((take_leadsTo s step).reachable hs)
  exact hafter steps _ (Cache.reachable_run cluster settings [])

end Session

end KindCache
