import KindCache.Proofs.Store.LastWriter
import KindCache.Proofs.Watcher.Subscribers

/-!
# What a watcher has consumed

The store of a watcher is what the events that it has consumed make of an empty
one, in whatever batches they came.

* `Watcher.takes`, `Watcher.admits` — the items that a move consumes, and those that
  it puts into the inbox;
* `consumed_in_order`, `consumed_inbox` — a run consumes what arrives in the order of
  arrival, and what it has not consumed is still there unless the watcher was
  stopped;
* `run_store` — the store after a run;
* `run_lastWriter` — hence the last event that concerns a reference decides what the
  store holds there.
-/

namespace KindCache

namespace Arrival

/-- The event of an item, unless it is a failure. -/
def event? : Arrival → Option WatchEvent
  | .event e => some e
  | .fault _ => none

/-- No document of the item holds a key twice. -/
def Proper : Arrival → Prop
  | .event e => e.Proper
  | .fault _ => True

theorem Proper.event? {a : Arrival} (ha : a.Proper) {e : WatchEvent} (h : a.event? = some e) :
    e.Proper := by
  cases a with
  | event e' =>
    obtain rfl := Option.some.inj h
    exact ha
  | fault _ => cases h

end Arrival

namespace Watcher

open WatchEvent (lastWord)

/-! ## Consuming in order -/

/-- The items that a move takes in. -/
def takes (w : Watcher) : Move → List Arrival
  | .batch n => if w.running && !w.inbox.isEmpty then w.inbox.take (w.batchSize n) else []
  | _ => []

/-- The items that a move puts into the inbox. -/
def admits (w : Watcher) : Move → List Arrival
  | .arrive items => if w.running && w.streamOpen then items else []
  | _ => []

/-- The items that a run takes in, in this order. -/
def consumed (w : Watcher) : List Move → List Arrival
  | [] => []
  | m :: moves => w.takes m ++ (w.perform m).consumed moves

/-- The items that a run puts into the inbox, in this order. -/
def admitted (w : Watcher) : List Move → List Arrival
  | [] => []
  | m :: moves => w.admits m ++ (w.perform m).admitted moves

/-- The events that a run takes in, in this order. -/
def history (w : Watcher) (moves : List Move) : List WatchEvent :=
  (w.consumed moves).filterMap Arrival.event?

theorem history_cons (w : Watcher) (m : Move) (moves : List Move) :
    w.history (m :: moves) =
      (w.takes m).filterMap Arrival.event? ++ (w.perform m).history moves :=
  List.filterMap_append

/-- A watcher that has ended and has nothing left of its inbox. -/
def Spent (w : Watcher) : Prop :=
  w.running = false ∧ w.inbox = []

theorem spent_finish (w : Watcher) : w.finish.Spent :=
  ⟨rfl, rfl⟩

/-- What was there and what comes in is consumed or still there, unless a stop has thrown it
away. This is the step of the statements about order below. -/
theorem perform_inbox (w : Watcher) (m : Move) :
    w.inbox ++ w.admits m = w.takes m ++ (w.perform m).inbox ∨
      w.stopRequested = true ∧ w.takes m = [] ∧ (w.perform m).Spent := by
  cases m with
  | arrive items =>
    refine .inl ?_
    simp only [admits, takes, perform, arrive]
    split
    · rfl
    · exact List.append_nil _
  | batch n =>
    refine .inl ?_
    simp only [admits, takes, perform, takeBatch]
    split
    · rw [consume_inbox, List.append_nil]
      exact (List.take_append_drop _ _).symm
    · exact List.append_nil _
  | halt =>
    simp only [admits, takes, perform, halt]
    split
    · next hguard => exact .inr ⟨(Bool.and_eq_true_iff.mp hguard).2, trivial, spent_finish w⟩
    · exact .inl (List.append_nil _)
  | exhaust =>
    refine .inl ?_
    simp only [admits, takes, perform, exhaust]
    split
    · next hguard =>
      -- a stream ends for its watcher only when the inbox is empty
      have hinbox : w.inbox = [] := List.isEmpty_iff.mp (Bool.and_eq_true_iff.mp hguard).2
      rw [hinbox]
      rfl
    · exact List.append_nil _
  | closeStream => exact .inl (List.append_nil _)
  | stop => exact .inl (List.append_nil _)
  | subscribe name failsAt => exact .inl (List.append_nil _)
  | deliver pace => exact .inl (List.append_nil _)

/-- A request to stop is never taken back. -/
theorem perform_stopRequested {w : Watcher} (h : w.stopRequested = true) (m : Move) :
    (w.perform m).stopRequested = true := by
  cases m with
  | arrive items =>
    simp only [perform, arrive]
    split <;> exact h
  | batch n =>
    simp only [perform, takeBatch]
    split
    · rw [consume_stopRequested]
      exact h
    · exact h
  | halt =>
    simp only [perform, halt]
    split <;> exact h
  | exhaust =>
    simp only [perform, exhaust]
    split <;> exact h
  | stop => rfl
  | closeStream => exact h
  | subscribe name failsAt => exact h
  | deliver pace => exact h

theorem run_stopRequested {w : Watcher} (h : w.stopRequested = true) (moves : List Move) :
    (w.run moves).stopRequested = true :=
  run_induction (motive := fun w => w.stopRequested = true)
    (fun _ m _ h => perform_stopRequested h m) h

/-- A watcher that has ended consumes nothing. -/
theorem consumed_of_not_running {w : Watcher} (h : w.running = false) (moves : List Move) :
    w.consumed moves = [] := by
  induction moves generalizing w with
  | nil => rfl
  | cons m moves ih =>
    have htakes : w.takes m = [] := by
      cases m with
      | batch n => simp [takes, h]
      | _ => rfl
    have hrunning : (w.perform m).running = false := by
      by_contra hr
      have := (perform_later w m).running (Bool.not_eq_false _ ▸ hr)
      rw [h] at this
      cases this
    rw [consumed, htakes, ih hrunning]
    rfl

/-- Unless it is asked to stop, a watcher has consumed what has arrived, up to what still is
in its inbox. -/
theorem consumed_inbox {w : Watcher} {moves : List Move}
    (h : (w.run moves).stopRequested = false) :
    w.inbox ++ w.admitted moves = w.consumed moves ++ (w.run moves).inbox := by
  induction moves generalizing w with
  | nil => exact List.append_nil _
  | cons m moves ih =>
    rcases perform_inbox w m with hstep | ⟨hstop, -, -⟩
    · calc w.inbox ++ w.admitted (m :: moves)
          = (w.inbox ++ w.admits m) ++ (w.perform m).admitted moves :=
            (List.append_assoc ..).symm
        _ = w.takes m ++ ((w.perform m).inbox ++ (w.perform m).admitted moves) := by
            rw [hstep, List.append_assoc]
        _ = w.takes m ++ ((w.perform m).consumed moves ++ ((w.perform m).run moves).inbox) := by
            rw [ih h]
        _ = w.consumed (m :: moves) ++ (w.run (m :: moves)).inbox :=
            (List.append_assoc ..).symm
    · rw [run_stopRequested hstop] at h
      cases h

/-- **A run consumes items in the order in which they arrived**, and leaves none out. A stop
may cut off the end, so what is consumed is a front part of what has arrived. -/
theorem consumed_in_order (w : Watcher) (moves : List Move) :
    w.consumed moves <+: w.inbox ++ w.admitted moves := by
  induction moves generalizing w with
  | nil => exact List.nil_prefix
  | cons m moves ih =>
    rcases perform_inbox w m with hstep | ⟨-, htakes, hspent⟩
    · rw [admitted, ← List.append_assoc, hstep, List.append_assoc]
      exact (List.prefix_append_right_inj _).mpr (ih _)
    · rw [consumed, htakes, consumed_of_not_running hspent.1]
      exact List.nil_prefix

/-! ## The store of a history -/

/-- Items are applied to the store one by one, and failures are passed over. -/
theorem receiveAll_store (w : Watcher) (batch : List Arrival) :
    (w.receiveAll batch).1.store = w.store.applyAll (batch.filterMap Arrival.event?) := by
  induction batch generalizing w with
  | nil => rfl
  | cons a batch ih =>
    rw [receiveAll_cons, ih]
    cases a with
    | event e => rfl
    | fault _ => rfl

/-- The store changes by what is taken in, and by nothing else. -/
theorem perform_store (w : Watcher) (m : Move) :
    (w.perform m).store = w.store.applyAll ((w.takes m).filterMap Arrival.event?) := by
  cases m with
  | arrive items =>
    simp only [perform, arrive]
    split <;> rfl
  | batch n =>
    simp only [perform, takeBatch, takes]
    split
    · rw [consume_store, receiveAll_store]
      rfl
    · rfl
  | halt =>
    simp only [perform, halt]
    split <;> rfl
  | exhaust =>
    simp only [perform, exhaust]
    split <;> rfl
  | closeStream => rfl
  | stop => rfl
  | subscribe name failsAt => rfl
  | deliver pace => rfl

/-- The store after a run is what the consumed events make of the one before it. All that is
known of histories of events now holds of runs. -/
theorem run_store (w : Watcher) (moves : List Move) :
    (w.run moves).store = w.store.applyAll (w.history moves) := by
  induction moves generalizing w with
  | nil => rfl
  | cons m moves ih =>
    rw [run_cons, ih, perform_store, history_cons, Store.applyAll_append]

/-- A new watcher has an empty store, and events keep documents under their references. -/
theorem Reachable.keyed {w : Watcher} (hw : w.Reachable) : w.store.Keyed := by
  obtain ⟨resource, cap, tied, inbox, moves, rfl⟩ := hw
  rw [run_store]
  exact Store.keyed_empty.applyAll _

/-! ## What arrives is what is consumed -/

theorem admits_brings {p : Arrival → Prop} {w : Watcher} {m : Move} (hm : m.Brings p) :
    ∀ a ∈ w.admits m, p a := by
  cases m with
  | arrive items =>
    simp only [admits]
    split
    · exact hm
    · exact fun a ha => absurd ha List.not_mem_nil
  | _ => exact fun a ha => absurd ha List.not_mem_nil

/-- A watcher puts nothing into its inbox that has not arrived. -/
theorem admitted_brings {p : Arrival → Prop} {w : Watcher} {moves : List Move}
    (hmoves : ∀ m ∈ moves, m.Brings p) : ∀ a ∈ w.admitted moves, p a := by
  induction moves generalizing w with
  | nil => exact fun a ha => absurd ha List.not_mem_nil
  | cons m moves ih =>
    obtain ⟨hm, hmoves⟩ := List.forall_mem_cons.mp hmoves
    intro a ha
    rcases List.mem_append.mp ha with ha | ha
    · exact admits_brings hm a ha
    · exact ih hmoves a ha

/-- A condition on all that arrives is one on all that is consumed. -/
theorem consumed_brings {p : Arrival → Prop} {w : Watcher} {moves : List Move}
    (hinbox : ∀ a ∈ w.inbox, p a) (hmoves : ∀ m ∈ moves, m.Brings p) :
    ∀ a ∈ w.consumed moves, p a := by
  intro a ha
  have harrived : a ∈ w.inbox ++ w.admitted moves := (consumed_in_order w moves).subset ha
  rcases List.mem_append.mp harrived with ha | ha
  · exact hinbox a ha
  · exact admitted_brings hmoves a ha

/-! ## The last writer -/

/-- No document that a run brings holds a key twice. -/
def Clear (w : Watcher) (moves : List Move) : Prop :=
  (∀ a ∈ w.inbox, a.Proper) ∧ ∀ m ∈ moves, m.Brings Arrival.Proper

theorem Clear.history {w : Watcher} {moves : List Move} (h : w.Clear moves) :
    ∀ e ∈ w.history moves, e.Proper := by
  intro e he
  obtain ⟨a, ha, hevent⟩ := List.mem_filterMap.mp he
  exact Arrival.Proper.event? (consumed_brings h.1 h.2 a ha) hevent

/-- **The last writer wins, in every run.** What the store holds under a reference is
decided by the last consumed event that concerns it: there is something exactly if this
event sets the object or is a list that mentions it, and it equals, up to the order of keys,
the document of the event, or the last one of the list. So runs that end with the same list
and the same events after it end with equal stores. -/
theorem run_lastWriter {w : Watcher} {moves : List Move} (hw : w.store = .empty)
    (hclear : w.Clear moves) :
    (∀ r, ((w.run moves).store.find? r).isSome = true ↔
      ∃ e, lastWord r (w.history moves) = some e ∧
        ((∃ d, e = .applied d) ∨ ∃ ds, e = .relisted ds ∧ ∃ d ∈ ds, d.ref? = some r)) ∧
    (∀ r d, (w.run moves).store.find? r = some d →
      ∃ e x, lastWord r (w.history moves) = some e ∧ e.leaves r = some x ∧ d.same x = true) ∧
    ∀ (w' : Watcher) (moves' : List Move), w'.store = .empty → w'.Clear moves' →
      ∀ ds later, .relisted ds :: later <:+ w.history moves →
        .relisted ds :: later <:+ w'.history moves' →
        Store.Same (w.run moves).store (w'.run moves').store := by
  have hstore : (w.run moves).store = Store.empty.applyAll (w.history moves) := by
    rw [run_store, hw]
  have halike : ∀ r, Store.Alike ((w.run moves).store.find? r)
      ((lastWord r (w.history moves)).bind (·.leaves r)) := by
    rw [hstore]
    exact Store.applyAll_empty hclear.history
  refine ⟨fun r => ?_, fun r d hd => ?_, fun w' moves' hw' hclear' ds later hend hend' => ?_⟩
  · rw [(halike r).isSome_iff]
    simp only [Option.bind_eq_some_iff, ← WatchEvent.exists_leaves_iff]
    exact ⟨fun ⟨x, e, he, hx⟩ => ⟨e, he, x, hx⟩, fun ⟨e, he, x, hx⟩ => ⟨x, e, he, hx⟩⟩
  · have hd' := halike r
    rw [hd] at hd'
    obtain ⟨x, hx, hsame⟩ := hd'.exists_same
    obtain ⟨e, he, hx⟩ := Option.bind_eq_some_iff.mp hx
    exact ⟨e, x, he, hx, hsame⟩
  · obtain ⟨before, hbefore⟩ := hend
    obtain ⟨before', hbefore'⟩ := hend'
    rw [hstore, run_store, hw', ← hbefore, ← hbefore']
    exact Store.applyAll_same Store.clean_empty (hbefore ▸ hclear.history)
      (hbefore' ▸ hclear'.history) _

theorem distinct_pod (name phase : String) : (pod name phase).Distinct := by
  simp [pod, Document.Distinct, Document.DistinctFields]

/-- A watcher whose first list mentions a pod twice. -/
def doubled : Watcher :=
  starting pods 1 true [.event (.relisted [pod "a" "new", pod "a" "running"])]

theorem run_lastWriter_relists :
    (doubled.run relists).store.find? ⟨none, "b"⟩ = some (pod "b" "new") ∧
      (∃ e, lastWord ⟨none, "b"⟩ (doubled.history relists) = some e ∧
        ((∃ d, e = .applied d) ∨
          ∃ ds, e = .relisted ds ∧ ∃ d ∈ ds, d.ref? = some ⟨none, "b"⟩)) ∧
      Store.Same (doubled.run relists).store ((starting pods 2 false
        [.event (.deleted (pod "c" "old")), .event (.relisted [pod "b" "new"])]).run
          [.batch 2]).store := by
  have hclear : doubled.Clear relists := by
    simp [Clear, doubled, starting, relists, Move.Brings, Arrival.Proper, WatchEvent.Proper,
      WatchEvent.documents, distinct_pod]
  have hclear' : (starting pods 2 false [.event (.deleted (pod "c" "old")),
      .event (.relisted [pod "b" "new"])]).Clear [.batch 2] := by
    simp [Clear, starting, Move.Brings, Arrival.Proper, WatchEvent.Proper,
      WatchEvent.documents, distinct_pod]
  obtain ⟨hthere, -, hsame⟩ := run_lastWriter rfl hclear
  refine ⟨rfl, (hthere _).mp rfl, hsame _ _ rfl hclear' [pod "b" "new"] [] ?_ ?_⟩
  · exact ⟨[.relisted [pod "a" "new", pod "a" "running"]], rfl⟩
  · exact ⟨[.deleted (pod "c" "old")], rfl⟩

end Watcher

end KindCache
