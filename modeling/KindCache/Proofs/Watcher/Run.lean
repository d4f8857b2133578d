import KindCache.Watcher.Basic

/-!
# Runs of a watcher

A watcher does not choose when something happens to it. A `Watcher.Move` is one
thing that can happen between two states that readers can see, and a run is any
sequence of moves (`Watcher.run`): items arrive at any time, batches take any
number of them up to the cap, subscribers are added in between, and their queues
are delivered at any pace.

* `Later`, `run_later` — what no run undoes;
* `ingest_eq_run` — doing all that can be done now is one of the runs;
* `drain_eq_perform` — so is delivering all queues.
-/

namespace KindCache

/-- Deliver at most `n` of the changes in the queue. -/
def Subscriber.deliver (n : Nat) (s : Subscriber) : Subscriber :=
  { s with delivered := max s.delivered (min (s.delivered + n) s.reach) }

namespace Watcher

/-- What can happen to a watcher. -/
inductive Move where
  /-- items arrive on its stream -/
  | arrive (items : List Arrival)
  /-- its stream ends -/
  | closeStream
  /-- it is asked to stop -/
  | stop
  /-- it takes in a batch of at most `n` items -/
  | batch (n : Nat)
  /-- it finds that it was asked to stop -/
  | halt
  /-- it finds that its stream has ended -/
  | exhaust
  /-- someone subscribes -/
  | subscribe (name : String) (failsAt : Option Nat)
  /-- the queue of the `i`-th subscriber is delivered, by at most `pace i` changes -/
  | deliver (pace : Nat → Nat)

/-- How many items a batch takes that should take `n`: at least one, and not more
than the cap allows. -/
def batchSize (w : Watcher) (n : Nat) : Nat :=
  max 1 (min n w.batchCap)

/-- A watcher with something else in its inbox. -/
def withInbox (w : Watcher) (inbox : List Arrival) : Watcher :=
  { w with inbox }

/-- Take in one batch of what has arrived, if there is anything. -/
def takeBatch (w : Watcher) (n : Nat) : Watcher :=
  if w.running && !w.inbox.isEmpty then
    (w.withInbox (w.inbox.drop (w.batchSize n))).consume (w.inbox.take (w.batchSize n))
  else w

/-- End if a stop was requested. -/
def halt (w : Watcher) : Watcher :=
  if w.running && w.stopRequested then w.finish else w

/-- End if nothing is left of a stream that has ended. -/
def exhaust (w : Watcher) : Watcher :=
  if w.running && !w.streamOpen && w.inbox.isEmpty then
    { w with degraded := some streamEnded }.finish
  else w

/-- Deliver queues at a given pace. -/
def deliver (w : Watcher) (pace : Nat → Nat) : Watcher :=
  { w with subscribers := w.subscribers.mapIdx fun i x => x.deliver (pace i) }

/-- The watcher after a move. -/
def perform (w : Watcher) : Move → Watcher
  | .arrive items => w.arrive items
  | .closeStream => w.closeStream
  | .stop => w.stop
  | .batch n => w.takeBatch n
  | .halt => w.halt
  | .exhaust => w.exhaust
  | .subscribe name failsAt => w.subscribe name failsAt
  | .deliver pace => w.deliver pace

/-- The watcher after a run. -/
def run (w : Watcher) (moves : List Move) : Watcher :=
  moves.foldl perform w

@[simp] theorem run_nil (w : Watcher) : w.run [] = w := rfl

@[simp] theorem run_cons (w : Watcher) (m : Move) (moves : List Move) :
    w.run (m :: moves) = (w.perform m).run moves := rfl

theorem run_append (w : Watcher) (moves more : List Move) :
    w.run (moves ++ more) = (w.run moves).run more :=
  List.foldl_append

/-- What the start has and every move of a run preserves, the end has. -/
theorem run_induction {motive : Watcher → Prop} {moves : List Move}
    (step : ∀ w, ∀ m ∈ moves, motive w → motive (w.perform m)) {w : Watcher}
    (start : motive w) : motive (w.run moves) := by
  induction moves generalizing w with
  | nil => exact start
  | cons m moves ih =>
    refine ih (fun w m hm => step w m (List.mem_cons_of_mem _ hm)) ?_
    exact step w m List.mem_cons_self start

/-- A watcher that some run of a new one leads to. -/
def Reachable (w : Watcher) : Prop :=
  ∃ resource cap tied inbox moves, w = (starting resource cap tied inbox).run moves

theorem Reachable.run {w : Watcher} (hw : w.Reachable) (moves : List Move) :
    (w.run moves).Reachable := by
  obtain ⟨resource, cap, tied, inbox, before, rfl⟩ := hw
  refine ⟨resource, cap, tied, inbox, before ++ moves, ?_⟩
  rw [run_append]

/-! ## What a batch leaves alone -/

theorem receiveAll_cons (w : Watcher) (a : Arrival) (batch : List Arrival) :
    w.receiveAll (a :: batch) =
      (((w.receive a).1.receiveAll batch).1,
        (w.receive a).2 ++ ((w.receive a).1.receiveAll batch).2) :=
  rfl

theorem consume_eq (w : Watcher) (batch : List Arrival) :
    w.consume batch =
      { (w.receiveAll batch).1.publish (w.receiveAll batch).2 with
        synced := w.synced || batch.any Arrival.isRelist } :=
  rfl

/-- What no item changes, no batch of items changes. The lemmas below say for each field
whether a batch changes it, and go back to this one. -/
theorem receiveAll_frame {α : Type} (f : Watcher → α) (hf : ∀ w a, f (w.receive a).1 = f w)
    (w : Watcher) (batch : List Arrival) : f (w.receiveAll batch).1 = f w := by
  induction batch generalizing w with
  | nil => rfl
  | cons a batch ih =>
    rw [receiveAll_cons]
    exact (ih _).trans (hf w a)

section Consume

variable (w : Watcher) (batch : List Arrival)

@[simp] theorem consume_resource : (w.consume batch).resource = w.resource :=
  receiveAll_frame resource (fun _ a => by cases a <;> rfl) w batch

@[simp] theorem consume_tied : (w.consume batch).tied = w.tied :=
  receiveAll_frame tied (fun _ a => by cases a <;> rfl) w batch

@[simp] theorem consume_batchCap : (w.consume batch).batchCap = w.batchCap :=
  receiveAll_frame batchCap (fun _ a => by cases a <;> rfl) w batch

@[simp] theorem consume_inbox : (w.consume batch).inbox = w.inbox :=
  receiveAll_frame inbox (fun _ a => by cases a <;> rfl) w batch

@[simp] theorem consume_running : (w.consume batch).running = w.running :=
  receiveAll_frame running (fun _ a => by cases a <;> rfl) w batch

@[simp] theorem consume_stopRequested : (w.consume batch).stopRequested = w.stopRequested :=
  receiveAll_frame stopRequested (fun _ a => by cases a <;> rfl) w batch

@[simp] theorem consume_streamOpen : (w.consume batch).streamOpen = w.streamOpen :=
  receiveAll_frame streamOpen (fun _ a => by cases a <;> rfl) w batch

@[simp] theorem consume_synced :
    (w.consume batch).synced = (w.synced || batch.any Arrival.isRelist) :=
  rfl

theorem consume_store : (w.consume batch).store = (w.receiveAll batch).1.store :=
  rfl

/-- Every subscriber is sent all changes of the batch, at once and in order. -/
theorem consume_subscribers :
    (w.consume batch).subscribers = w.subscribers.map (·.send (w.receiveAll batch).2) := by
  have h : (w.receiveAll batch).1.subscribers = w.subscribers :=
    receiveAll_frame subscribers (fun _ a => by cases a <;> rfl) w batch
  rw [← h]
  rfl

/-- What has arrived behind a batch does not matter to it. So a batch may be looked at on
its own, whatever comes in the meantime. -/
theorem receiveAll_withInbox (inbox : List Arrival) :
    (w.withInbox inbox).receiveAll batch =
      ((w.receiveAll batch).1.withInbox inbox, (w.receiveAll batch).2) := by
  induction batch generalizing w with
  | nil => rfl
  | cons a batch ih =>
    have ha : (w.withInbox inbox).receive a =
        ((w.receive a).1.withInbox inbox, (w.receive a).2) := by
      cases a <;> rfl
    rw [receiveAll_cons, receiveAll_cons, ha, ih]

theorem consume_withInbox (inbox : List Arrival) :
    (w.withInbox inbox).consume batch = (w.consume batch).withInbox inbox := by
  rw [consume_eq, consume_eq, receiveAll_withInbox]
  rfl

end Consume

/-! ## Who has subscribed -/

/-- How many subscribe by a move. -/
def Move.joins : Move → Nat
  | .subscribe _ _ => 1
  | _ => 0

/-- Only a subscription adds a subscriber, and none is ever removed: to be let go is to be
marked. -/
theorem perform_subscribers_length (w : Watcher) (m : Move) :
    (w.perform m).subscribers.length = w.subscribers.length + m.joins := by
  cases m with
  | arrive items =>
    simp only [perform, arrive]
    split <;> rfl
  | batch n =>
    simp only [perform, takeBatch]
    split
    · rw [consume_subscribers, List.length_map]
      rfl
    · rfl
  | halt =>
    simp only [perform, halt]
    split
    · exact List.length_map ..
    · rfl
  | exhaust =>
    simp only [perform, exhaust]
    split
    · exact List.length_map ..
    · rfl
  | subscribe name failsAt => exact List.length_append
  | deliver pace => exact List.length_mapIdx ..
  | closeStream | stop => rfl

/-! ## What a run never undoes -/

/-- A watcher as it may be later: it watches the same resource, stays in sync and
does not start again. -/
structure Later (w w' : Watcher) : Prop where
  resource : w'.resource = w.resource
  tied : w'.tied = w.tied
  synced : w.synced = true → w'.synced = true
  running : w'.running = true → w.running = true

namespace Later

theorem refl (w : Watcher) : Later w w :=
  ⟨rfl, rfl, id, id⟩

theorem trans {w₁ w₂ w₃ : Watcher} (h : Later w₁ w₂) (h' : Later w₂ w₃) : Later w₁ w₃ :=
  ⟨h'.resource.trans h.resource, h'.tied.trans h.tied, h'.synced ∘ h.synced,
    h.running ∘ h'.running⟩

end Later

/-- The end of a watcher takes nothing back. -/
theorem finish_later (w : Watcher) : Later w w.finish :=
  ⟨rfl, rfl, id, fun h => absurd h Bool.false_ne_true⟩

/-- No move takes anything back. The cases are the moves, of which only batches and the two
ends change one of the fields. -/
theorem perform_later (w : Watcher) (m : Move) : Later w (w.perform m) := by
  cases m with
  | arrive items =>
    simp only [perform, arrive]
    split
    · exact ⟨rfl, rfl, id, id⟩
    · exact .refl w
  | batch n =>
    simp only [perform, takeBatch]
    split
    · refine ⟨consume_resource .., consume_tied .., fun h => ?_, fun h => ?_⟩
      · rw [consume_synced]
        exact Bool.or_eq_true_iff.mpr (.inl h)
      · rwa [consume_running] at h
    · exact .refl w
  | halt =>
    simp only [perform, halt]
    split
    · exact finish_later w
    · exact .refl w
  | exhaust =>
    simp only [perform, exhaust]
    split
    · exact ⟨rfl, rfl, id, fun h => absurd h Bool.false_ne_true⟩
    · exact .refl w
  | closeStream => exact ⟨rfl, rfl, id, id⟩
  | stop => exact ⟨rfl, rfl, id, id⟩
  | subscribe name failsAt => exact ⟨rfl, rfl, id, id⟩
  | deliver pace => exact ⟨rfl, rfl, id, id⟩

theorem run_later (w : Watcher) (moves : List Move) : Later w (w.run moves) :=
  run_induction (fun _ m _ h => h.trans (perform_later _ m)) (.refl w)

/-! ## What the program does is a run -/

/-- The batches of a queue: a full one, and those of the rest. -/
theorem batches_eq_cons (cap : Nat) {items : List Arrival} (h : items ≠ []) :
    batches cap items =
      items.take (max 1 cap) :: batches cap (items.drop (max 1 cap)) := by
  obtain ⟨a, rest, rfl⟩ := List.exists_cons_of_ne_nil h
  have hcap : max 1 cap = (cap - 1) + 1 := by omega
  rw [batches, hcap, List.take_succ_cons, List.drop_succ_cons]

/-- A full batch is a move. -/
theorem perform_batch_cap {w : Watcher} (hw : w.running = true) (h : w.inbox ≠ []) :
    w.perform (.batch w.batchCap) =
      (w.consume (w.inbox.take (max 1 w.batchCap))).withInbox
        (w.inbox.drop (max 1 w.batchCap)) := by
  have hguard : (w.running && !w.inbox.isEmpty) = true := by
    simp [hw, h]
  have hsize : w.batchSize w.batchCap = max 1 w.batchCap := by
    rw [batchSize, Nat.min_self]
  rw [perform, takeBatch, if_pos hguard, hsize, consume_withInbox]

/-- Consuming all that has arrived is a run of full batches. The last one may be smaller, as
a batch takes no more than there is. -/
theorem foldl_consume_eq_run (cap : Nat) (w : Watcher) (hcap : w.batchCap = cap)
    (hw : w.running = true) :
    ∃ n, (batches cap w.inbox).foldl consume (w.withInbox []) =
      w.run (List.replicate n (.batch cap)) := by
  -- a batch may drop any number of items, so the length is not used up one by one
  induction hn : w.inbox.length using Nat.strongRecOn generalizing w with
  | ind n ih =>
    by_cases h : w.inbox = []
    · refine ⟨0, ?_⟩
      rw [h, batches]
      show w.withInbox [] = w
      rw [← h]
      rfl
    · -- the first full batch is the first move, and less is left after it
      have hmove := perform_batch_cap hw h
      rw [hcap] at hmove
      have hless : (w.inbox.drop (max 1 cap)).length < n := by
        have hpos : 0 < w.inbox.length := List.length_pos_iff.mpr h
        rw [List.length_drop]
        omega
      obtain ⟨k, hk⟩ := ih _ hless
        ((w.consume (w.inbox.take (max 1 cap))).withInbox (w.inbox.drop (max 1 cap)))
        ((consume_batchCap ..).trans hcap) ((consume_running ..).trans hw) rfl
      refine ⟨k + 1, ?_⟩
      rw [List.replicate_succ, run_cons, hmove, ← hk, batches_eq_cons cap h, List.foldl_cons,
        consume_withInbox]
      rfl

/-- A watcher that has consumed everything has an empty inbox. -/
theorem foldl_consume_inbox (w : Watcher) (bs : List (List Arrival)) :
    bs.foldl consume (w.withInbox []) = (bs.foldl consume w).withInbox [] := by
  induction bs generalizing w with
  | nil => rfl
  | cons b bs ih => rw [List.foldl_cons, List.foldl_cons, consume_withInbox, ih]

/-- What no batch changes, no number of batches changes. -/
theorem foldl_consume_frame {α : Type} (f : Watcher → α)
    (hf : ∀ w batch, f (w.consume batch) = f w) (w : Watcher) (bs : List (List Arrival)) :
    f (bs.foldl consume w) = f w := by
  induction bs generalizing w with
  | nil => rfl
  | cons b bs ih => exact (ih _).trans (hf w b)

section Ingest

variable {w : Watcher}

/-- A watcher that has ended does nothing any more. This and the next three are the ways in
which a watcher does all that it can do, by its state. -/
theorem ingest_idle (hr : w.running = false) : w.ingest = w := by
  have hguard : (!w.running) = true := by simp [hr]
  rw [ingest, if_pos hguard]

theorem ingest_stopped (hr : w.running = true) (hs : w.stopRequested = true) :
    w.ingest = w.finish := by
  have hguard : ¬ (!w.running) = true := by simp [hr]
  rw [ingest, if_neg hguard, if_pos hs]

theorem ingest_open (hr : w.running = true) (hs : w.stopRequested = false)
    (ho : w.streamOpen = true) :
    w.ingest = (batches w.batchCap w.inbox).foldl consume (w.withInbox []) := by
  have hguard : ¬ (!w.running) = true := by simp [hr]
  have hstop : ¬ w.stopRequested = true := by simp [hs]
  rw [ingest, if_neg hguard, if_neg hstop]
  exact if_pos ho

/-- The end of the stream shows only when all that has arrived is consumed. -/
theorem ingest_ended (hr : w.running = true) (hs : w.stopRequested = false)
    (ho : w.streamOpen = false) :
    w.ingest = { (batches w.batchCap w.inbox).foldl consume (w.withInbox []) with
      degraded := some streamEnded }.finish := by
  have hguard : ¬ (!w.running) = true := by simp [hr]
  have hstop : ¬ w.stopRequested = true := by simp [hs]
  have hopen : ¬ w.streamOpen = true := by simp [ho]
  rw [ingest, if_neg hguard, if_neg hstop]
  exact if_neg hopen

end Ingest

/-- **Doing all that can be done now is a run.** So whatever holds after every run holds of
a watcher that works off its inbox at one go. -/
theorem ingest_eq_run (w : Watcher) : ∃ moves, w.ingest = w.run moves := by
  rcases hr : w.running with _ | _
  · exact ⟨[], ingest_idle hr⟩
  · rcases hs : w.stopRequested with _ | _
    · obtain ⟨n, hn⟩ := foldl_consume_eq_run w.batchCap w rfl hr
      rcases ho : w.streamOpen with _ | _
      · -- all that has arrived is consumed before the end of the stream shows
        refine ⟨List.replicate n (.batch w.batchCap) ++ [.exhaust], ?_⟩
        have hguard : (((batches w.batchCap w.inbox).foldl consume (w.withInbox [])).running &&
            !((batches w.batchCap w.inbox).foldl consume (w.withInbox [])).streamOpen &&
            ((batches w.batchCap w.inbox).foldl consume (w.withInbox [])).inbox.isEmpty) =
              true := by
          rw [foldl_consume_frame running consume_running,
            foldl_consume_frame streamOpen consume_streamOpen, foldl_consume_inbox]
          simp [withInbox, hr, ho]
        rw [run_append, ← hn, run_cons, run_nil, perform, exhaust, if_pos hguard,
          ingest_ended hr hs ho]
      · refine ⟨List.replicate n (.batch w.batchCap), ?_⟩
        rw [← hn, ingest_open hr hs ho]
    · refine ⟨[.halt], ?_⟩
      have hguard : (w.running && w.stopRequested) = true := by simp [hr, hs]
      rw [run_cons, run_nil, perform, halt, if_pos hguard, ingest_stopped hr hs]

/-- A pace at which a whole queue is delivered: as many changes as were ever sent. -/
theorem drain_eq_deliver (x : Subscriber) : x.drain = x.deliver x.sent.length := by
  have hreach : x.reach ≤ x.sent.length := by
    simp only [Subscriber.reach]
    split
    · exact Nat.min_le_right _ _
    · exact Nat.le_refl _
  have hmin : min (x.delivered + x.sent.length) x.reach = x.reach := by omega
  rw [Subscriber.drain, Subscriber.deliver, hmin]

/-- Delivering all queues is a move. -/
theorem drain_eq_perform (w : Watcher) : ∃ pace, w.drain = w.perform (.deliver pace) := by
  refine ⟨fun i => (w.subscribers[i]?.map (·.sent.length)).getD 0, ?_⟩
  rw [perform, deliver, drain]
  congr 1
  apply List.ext_getElem?
  intro i
  rw [List.getElem?_map, List.getElem?_mapIdx]
  rcases w.subscribers[i]? with _ | x
  · rfl
  · exact congrArg some (drain_eq_deliver x)

end Watcher

end KindCache
