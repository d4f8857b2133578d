import Mathlib.Data.List.Infix
import KindCache.Proofs.Watcher.Account
import KindCache.Watcher.Read

/-!
# The first relist

A watcher is in sync from the batch on that holds the first list, and for ever. Those who
wait for it see the store that this batch has made, or a later one.

* `stages` — what readers can see in the middle of a batch, made of the parts of
  `consume`: a reader who finds the watcher in sync finds the whole batch
  (`eq_consume_of_synced`);
* `Relisted`, `Unlisted` — a run that has consumed a list, and one whose stream has ended
  without any;
* `perform_syncs` — the move that brings a watcher into sync;
* `Finds`, `Finds.heard` — all that someone who waits may find, and what it says of the run;
* `Barrier`, `barrier_of_run` — all of it, for every run of a new watcher.
-/

namespace KindCache

namespace Watcher

/-! ## In the middle of a batch -/

/-- The watcher while a batch is taken in, after some of its items. They are applied to a
store that no reader has seen yet: all that shows of them is the state of recovery, which
each item writes at once. -/
def taking (w : Watcher) (items : List Arrival) : Watcher :=
  { w with degraded := (w.receiveAll items).1.degraded }

/-- The watcher once the batch is published. The new store is there and the subscribers
have been told of it, but its events are not counted yet. -/
def showing (w : Watcher) (batch : List Arrival) : Watcher :=
  { (w.receiveAll batch).1.publish (w.receiveAll batch).2 with events := w.events }

/-- The watcher once the events of the batch are counted as well. -/
def counting (w : Watcher) (batch : List Arrival) : Watcher :=
  { w.showing batch with events := (w.receiveAll batch).1.events }

/-- The watcher once it says of itself whether it is in sync. This is the last thing that
is done for a batch. -/
def closing (w : Watcher) (batch : List Arrival) : Watcher :=
  { w.counting batch with synced := w.synced || batch.any Arrival.isRelist }

/-- What readers can see one after the other while a batch is taken in, before its first
item and to the end. -/
def stages (w : Watcher) (batch : List Arrival) : List Watcher :=
  batch.inits.map w.taking ++ [w.showing batch, w.counting batch, w.closing batch]

section

variable {w : Watcher} {batch : List Arrival}

/-- Done one after the other, the parts are the batch as a whole. -/
theorem closing_eq_consume : w.closing batch = w.consume batch := rfl

/-- The stages end in the batch as a whole, so nothing is left for readers to see. -/
theorem stages_last : (w.stages batch).getLast? = some (w.consume batch) := by
  rw [stages, List.getLast?_append, ← closing_eq_consume]
  rfl

/-- As long as the batch is not closed, readers are told what they were told before. -/
theorem counting_synced : (w.counting batch).synced = w.synced :=
  receiveAll_frame synced (fun _ a => by cases a <;> rfl) w batch

/-- Whoever finds that the watcher has come into sync finds all of the batch. It is the
order of the parts that makes it so: of the stages only the last one says that the watcher
is in sync, and the store is published two stages before. -/
theorem eq_consume_of_synced {stage : Watcher} (h : stage ∈ w.stages batch)
    (hnot : w.synced = false) (hsynced : stage.synced = true) : stage = w.consume batch := by
  rcases List.mem_append.mp h with hearly | hlate
  · obtain ⟨items, -, rfl⟩ := List.mem_map.mp hearly
    have hold : (w.taking items).synced = w.synced := rfl
    rw [hold, hnot] at hsynced
    cases hsynced
  · have hold : (w.showing batch).synced = (w.counting batch).synced := rfl
    simp only [List.mem_cons, List.not_mem_nil, or_false] at hlate
    rcases hlate with rfl | rfl | rfl
    · rw [hold, counting_synced, hnot] at hsynced
      cases hsynced
    · rw [counting_synced, hnot] at hsynced
      cases hsynced
    · exact closing_eq_consume

end

/-! ## What was consumed -/

/-- A run has consumed a list, and the store is what all that it has consumed makes of an
empty one, in the order of arrival. -/
structure Relisted (w : Watcher) (moves : List Move) : Prop where
  relist : (w.consumed moves).any Arrival.isRelist = true
  inOrder : w.consumed moves <+: w.inbox ++ w.admitted moves
  store : (w.run moves).store =
    Store.empty.applyAll ((w.consumed moves).filterMap Arrival.event?)

/-- A run has found the end of its stream, and there was no list in all that has come. -/
structure Unlisted (w : Watcher) (moves : List Move) : Prop where
  ended : w.sawEnd moves = true
  all : w.consumed moves = w.inbox ++ w.admitted moves
  none : (w.inbox ++ w.admitted moves).any Arrival.isRelist = false

section

variable {w : Watcher} {m : Move} {moves more : List Move}

theorem consumed_append (w : Watcher) (moves more : List Move) :
    w.consumed (moves ++ more) = w.consumed moves ++ (w.run moves).consumed more := by
  induction moves generalizing w with
  | nil => rfl
  | cons m moves ih =>
    show w.takes m ++ (w.perform m).consumed (moves ++ more) = _
    rw [ih, ← List.append_assoc]
    rfl

/-- The store of a new watcher that is in sync holds a list, then and later. What is
consumed is a front part of what arrives, so the list is not one that comes out of order. -/
theorem relisted_of_synced (hstore : w.store = .empty) (hsynced : w.synced = false)
    (h : (w.run moves).synced = true) (more : List Move) : w.Relisted (moves ++ more) := by
  refine ⟨?_, consumed_in_order w _, ?_⟩
  · rw [run_synced, hsynced, Bool.false_or] at h
    rw [consumed_append, List.any_append, h, Bool.true_or]
  · rw [run_store, hstore, history]

/-- If a watcher has ended without having been asked to, its stream has ended before, and it
has consumed all there was. Had there been a list it would be in sync. -/
theorem unlisted_of_ended (hrun : w.running = true) (hsynced : w.synced = false)
    (hended : (w.run moves).running = false) (hnot : (w.run moves).synced = false)
    (hstop : (w.run moves).stopRequested = false) : w.Unlisted moves := by
  have hall := consumed_of_ended hrun hended hstop
  refine ⟨?_, hall, ?_⟩
  · rw [(run_unstopped hrun hstop).1] at hended
    rwa [Bool.not_eq_false'] at hended
  · rw [run_synced, hsynced, Bool.false_or, hall] at hnot
    exact hnot

/-- A watcher comes into sync with a batch that holds a list, and with no other move. -/
theorem perform_syncs (hnot : w.synced = false) :
    (w.perform m).synced = true ↔ (w.takes m).any Arrival.isRelist = true := by
  rw [perform_synced, hnot, Bool.false_or]

/-- A move that takes something in is a batch, so the stages above apply to it. -/
theorem perform_of_takes (h : w.takes m ≠ []) :
    ∃ rest, w.perform m = (w.consume (w.takes m)).withInbox rest := by
  cases perform_turn w m with
  | quiet hnone => exact absurd hnone h
  | batch hrun hend hpos hcap hperform => exact hperform
  | ended hrun hend hnone => exact absurd hnone h

end

/-! ## Waiting -/

/-- What someone who waits for the first relist may find. Where there are two reasons to
stop waiting, either may be noticed first. -/
inductive Finds (w : Watcher) (shutdown : Bool) : SyncStatus → Prop where
  /-- the watcher is in sync -/
  | reached (h : w.synced = true) : Finds w shutdown .reached
  /-- the cache was told to stop -/
  | shutDown (h : shutdown = true) : Finds w shutdown (.failed .shuttingDown)
  /-- the watcher was asked to stop and has ended -/
  | stopped (hnot : w.synced = false) (hrun : w.running = false)
    (h : w.stopRequested = true) : Finds w shutdown (.failed .shuttingDown)
  /-- the watcher has ended, and nobody has asked for it -/
  | ended {reason : String} (hnot : w.synced = false) (hrun : w.running = false)
    (hdown : shutdown = false) (h : w.stopRequested = false) :
    Finds w shutdown (.failed (.transient reason))
  /-- there is nothing to find yet -/
  | waiting (hnot : w.synced = false) (hrun : w.running = true) (hdown : shutdown = false) :
    Finds w shutdown .waiting

/-- What the look of a waiting call gives is among the things that it may find. It looks for
the relist first, but nothing below depends on that. -/
theorem finds_syncStatus (w : Watcher) (shutdown : Bool) :
    w.Finds shutdown (w.syncStatus shutdown) := by
  simp only [syncStatus]
  split
  · next hsynced => exact .reached hsynced
  · next hsynced =>
    have hnot : w.synced = false := Bool.not_eq_true _ ▸ hsynced
    split
    · next hdown => exact .shutDown hdown
    · next hdown =>
      have hup : shutdown = false := Bool.not_eq_true _ ▸ hdown
      split
      · next hrun => exact .waiting hnot hrun hup
      · next hrun =>
        have hended : w.running = false := Bool.not_eq_true _ ▸ hrun
        split
        · next hstop => exact .stopped hnot hended hstop
        · next hstop => exact .ended hnot hended hup (Bool.not_eq_true _ ▸ hstop)

/-- What someone who has waited in a run may conclude. -/
structure Heard (w : Watcher) (moves : List Move) (shutdown : Bool) (status : SyncStatus) :
    Prop where
  /-- success: the watcher is in sync, and from now on the store holds a list -/
  reached : status = .reached → (w.run moves).synced = true ∧
    ∀ more, (w.run (moves ++ more)).synced = true ∧ w.Relisted (moves ++ more)
  /-- failure: somebody wanted an end, or the stream has ended without a list -/
  failed : ∀ e, status = .failed e →
    (e = .shuttingDown ∧ (shutdown = true ∨ (w.run moves).stopRequested = true)) ∨
    ((∃ reason, e = .transient reason) ∧ w.Unlisted moves)

/-- Someone who has waited in vain has not succeeded, so a failure says one thing only. -/
theorem Heard.of_failure {w : Watcher} {moves : List Move} {shutdown : Bool} {e : CacheError}
    (h : (e = .shuttingDown ∧ (shutdown = true ∨ (w.run moves).stopRequested = true)) ∨
      ((∃ reason, e = .transient reason) ∧ w.Unlisted moves)) :
    w.Heard moves shutdown (.failed e) := by
  refine ⟨?_, ?_⟩
  · intro he
    cases he
  · rintro e' he
    cases he
    exact h

/-- **Whatever someone who waits finds, and whenever, it says so of the run.** Success is
about the store from then on, and failure about what has arrived so far. -/
theorem Finds.heard {w : Watcher} {moves : List Move} {shutdown : Bool} {status : SyncStatus}
    (hrun : w.running = true) (hstore : w.store = .empty) (hsynced : w.synced = false)
    (h : (w.run moves).Finds shutdown status) : w.Heard moves shutdown status := by
  cases h with
  | reached h =>
    refine ⟨fun _ => ⟨h, fun more => ⟨?_, relisted_of_synced hstore hsynced h more⟩⟩, ?_⟩
    · rw [run_append]
      exact (run_later (w.run moves) more).synced h
    · intro e he
      cases he
  | shutDown hdown => exact .of_failure (.inl ⟨rfl, .inl hdown⟩)
  | stopped hnot hended hstop => exact .of_failure (.inl ⟨rfl, .inr hstop⟩)
  | ended hnot hended hdown hstop =>
    exact .of_failure (.inr ⟨⟨_, rfl⟩, unlisted_of_ended hrun hsynced hended hnot hstop⟩)
  | waiting hnot hgoes hdown =>
    refine ⟨?_, ?_⟩
    · intro he
      cases he
    · intro e he
      cases he

/-! ## All of it -/

/-- What the first relist means in a run. -/
structure Barrier (w : Watcher) (moves : List Move) : Prop where
  /-- the watcher is in sync once it has consumed a list -/
  synced : (w.run moves).synced = (w.consumed moves).any Arrival.isRelist
  /-- it comes into sync with the batch that holds the first list, and with no other move -/
  turns : ∀ m, (w.run moves).synced = false → (((w.run moves).perform m).synced = true ↔
    ((w.run moves).takes m).any Arrival.isRelist = true)
  /-- of this batch, the store is published before that -/
  published : ∀ m, (w.run moves).synced = false → ((w.run moves).perform m).synced = true →
    (∃ rest, (w.run moves).perform m =
      ((w.run moves).consume ((w.run moves).takes m)).withInbox rest) ∧
    ((w.run moves).stages ((w.run moves).takes m)).getLast? =
      some ((w.run moves).consume ((w.run moves).takes m)) ∧
    ∀ stage ∈ (w.run moves).stages ((w.run moves).takes m), stage.synced = true →
      stage.store = ((w.run moves).perform m).store
  /-- it stays in sync -/
  stays : (w.run moves).synced = true → ∀ more, (w.run (moves ++ more)).synced = true
  /-- whoever waits hears of it, or why it will not come -/
  heard : ∀ shutdown status, (w.run moves).Finds shutdown status →
    w.Heard moves shutdown status

/-- It means this in every run of a new watcher. The parts are put together from the lemmas
above, one for each field. -/
theorem barrier_of_run {w : Watcher} (hrun : w.running = true) (hstore : w.store = .empty)
    (hsynced : w.synced = false) (moves : List Move) : w.Barrier moves := by
  refine ⟨?_, ?_, ?_, ?_, ?_⟩
  · rw [run_synced, hsynced, Bool.false_or]
  · intro m hnot
    exact perform_syncs hnot
  · intro m hnot hturns
    have hrelist := (perform_syncs hnot).mp hturns
    have hsome : (w.run moves).takes m ≠ [] := by
      intro hnone
      rw [hnone] at hrelist
      cases hrelist
    obtain ⟨rest, hperform⟩ := perform_of_takes hsome
    refine ⟨⟨rest, hperform⟩, stages_last, ?_⟩
    intro stage hstage hstaged
    rw [hperform, eq_consume_of_synced hstage hnot hstaged]
    rfl
  · intro h more
    rw [run_append]
    exact (run_later (w.run moves) more).synced h
  · intro shutdown status hfinds
    exact hfinds.heard hrun hstore hsynced

end Watcher

end KindCache
