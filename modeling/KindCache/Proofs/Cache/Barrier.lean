import KindCache.Proofs.Cache.Readiness
import KindCache.Proofs.Watcher.Barrier

/-!
# Waiting for a relist

A call that waits for a watcher, in a slot or outside of any, looks at the watcher and at
the shutdown of the cache each time that it runs. So what it answers says what the first
relist of this watcher means.

* `Heeds`, `advance_heeds` — what a wait does with what it finds;
* `current_syncing` — a call that starts a kind succeeds only with a watcher in sync;
* `sync_barrier` — the first relist, for all runs of a watcher and all waits of a cache.
-/

namespace KindCache

namespace Cache

/-- What a wait for a watcher does with what it finds. -/
inductive Heeds (s : Cache) (c : CallId) (w : WatcherId) : Watcher.SyncStatus → Cache → Prop where
  /-- it succeeds -/
  | reached : Heeds s c w .reached (s.complete c .done)
  /-- it fails -/
  | failed {e : CacheError} : Heeds s c w (.failed e) (s.complete c (.failed e))
  /-- it goes on waiting -/
  | waiting : Heeds s c w .waiting (s.setCall c (.waiting w))

section

variable {s : Cache} {c : CallId} {w : WatcherId} {watcher : Watcher}

/-- One leg of a wait ends it if the watcher has an answer, and leaves the call where it is
if not. -/
theorem await_heeds (c : CallId) (hget : s.watchers[w]? = some watcher) :
    Heeds s c w (watcher.syncStatus s.shutdown) (s.await c w) := by
  simp only [await, hget]
  split
  · next hreached =>
    rw [hreached]
    exact .reached
  · next e hfailed =>
    rw [hfailed]
    exact .failed
  · next hwaiting =>
    rw [hwaiting]
    exact .waiting

/-- A call that waits for a watcher outside of any slot heeds what it finds, at its first
leg and at all later ones. -/
theorem advance_heeds (h : s.call c = .fresh (.sync w) ∨ s.call c = .waiting w)
    (hget : s.watchers[w]? = some watcher) :
    Heeds s c w (watcher.syncStatus s.shutdown) (s.advance c) := by
  rcases h with h | h
  · simp only [advance, h]
    exact await_heeds c hget
  · simp only [advance, h]
    exact await_heeds c hget

/-- A call that starts a kind is answered with the watcher that it waits for, and only when
the relist is there. The deadline and the shutdown end the wait with an error. -/
theorem current_syncing {t : Ticket} {deadline : Option Nat} {v : WatcherId}
    (h : s.call c = .syncing t w deadline) (hget : s.watchers[w]? = some watcher)
    (hv : (s.current c).2 = some (.ok v)) :
    v = w ∧ watcher.syncStatus s.shutdown = .reached := by
  simp only [current, h, awaitSync, hget] at hv
  split at hv
  · next hreached =>
    cases hv
    exact ⟨rfl, hreached⟩
  · cases hv
  · split at hv
    · cases hv
    · cases hv

/-- A watcher of a cache is the end of a run of its own, and this run goes on. So what is
proved of all runs of a watcher alone, `Watcher.Barrier` above all, carries over to the
cache. -/
theorem watcher_run (hs : Reachable s) (hget : s.watchers[w]? = some watcher) :
    ∃ resource cap tied inbox moves,
      watcher = (Watcher.starting resource cap tied inbox).run moves ∧
      ∀ later, ∃ more, (s.runMoves later).watchers[w]? =
        some ((Watcher.starting resource cap tied inbox).run (moves ++ more)) := by
  obtain ⟨resource, cap, tied, inbox, moves, rfl⟩ := watchers_reachable hs hget
  refine ⟨resource, cap, tied, inbox, moves, rfl, fun later => ?_⟩
  obtain ⟨more, hlater⟩ := (run_grows s later).kept w _ hget
  refine ⟨more, ?_⟩
  rw [hlater, Watcher.run_append]

end

/-- **The barrier.** In every run, a watcher comes into sync with the batch that holds the
first list, after the store of this batch is published, and stays so. Everyone who waits for
it, at any time and in a slot or not, succeeds only if it is in sync, and from then on its
store is what a part of the stream that holds a list makes of an empty one. It fails for a
stop only if the cache or the watcher was asked to stop, and otherwise only if the stream
has ended without any list. -/
theorem sync_barrier :
    (∀ resource cap tied inbox moves,
      (Watcher.starting resource cap tied inbox).Barrier moves) ∧
    ∀ s, Reachable s → ∀ w watcher, s.watchers[w]? = some watcher →
      ∃ resource cap tied inbox moves,
        watcher = (Watcher.starting resource cap tied inbox).run moves ∧
        (∀ later, ∃ more, (s.runMoves later).watchers[w]? =
          some ((Watcher.starting resource cap tied inbox).run (moves ++ more))) ∧
        (Watcher.starting resource cap tied inbox).Heard moves s.shutdown
          (watcher.syncStatus s.shutdown) ∧
        (∀ c, s.call c = .fresh (.sync w) ∨ s.call c = .waiting w →
          Heeds s c w (watcher.syncStatus s.shutdown) (s.advance c)) ∧
        ∀ c t deadline v, s.call c = .syncing t w deadline →
          (s.current c).2 = some (.ok v) →
          v = w ∧ watcher.syncStatus s.shutdown = .reached := by
  refine ⟨?_, ?_⟩
  · intro resource cap tied inbox moves
    exact Watcher.barrier_of_run rfl rfl rfl moves
  · intro s hs w watcher hget
    obtain ⟨resource, cap, tied, inbox, moves, hrun, hlater⟩ := watcher_run hs hget
    refine ⟨resource, cap, tied, inbox, moves, hrun, hlater, ?_, ?_, ?_⟩
    · have hfinds := watcher.finds_syncStatus s.shutdown
      rw [hrun] at hfinds ⊢
      exact hfinds.heard rfl rfl rfl
    · intro c hcall
      exact advance_heeds hcall hget
    · intro c t deadline v hcall hv
      exact current_syncing hcall hget hv

/-- Someone waits for a watcher whose list has arrived and is taken in. -/
def patience : List Move :=
  [.standalone Watcher.pods 4, .submit (.sync 0), .advance 0, .watch 0 (.batch 1)]

theorem sync_barrier_patience :
    (((starting onePod .standard).runMoves patience).advance 0).log = [⟨0, .done, 0⟩] ∧
      ∃ resource cap tied inbox moves, Watcher.Relisted
        (Watcher.starting resource cap tied inbox) moves ∧
        ((starting onePod .standard).runMoves patience).watchers[0]? =
          some ((Watcher.starting resource cap tied inbox).run moves) := by
  obtain ⟨-, hwaits⟩ := sync_barrier
  obtain ⟨resource, cap, tied, inbox, moves, hrun, -, hheard, -, -⟩ :=
    hwaits ((starting onePod .standard).runMoves patience) (reachable_run ..) 0 _ rfl
  obtain ⟨-, hlisted⟩ := hheard.reached rfl
  obtain ⟨-, hrelisted⟩ := hlisted []
  rw [List.append_nil] at hrelisted
  exact ⟨rfl, resource, cap, tied, inbox, moves, hrelisted, congrArg some hrun⟩

end Cache

end KindCache
