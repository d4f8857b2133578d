import Mathlib.Algebra.Order.Floor.Div
import KindCache.Proofs.Watcher.Account

/-!
# Batches do not show

How the items of a stream fall into batches shows in the number of publications, and
nowhere else.

* `Subscriber.Follows`, `run_followed` — a subscriber that is registered and does not
  fail is sent the changes of all consumed items, one after the other;
* `Made`, `Consumes.made`, `oneByOne_made` — what items make of a watcher, whether they
  are consumed in a run or handled one at a time;
* `cuts`, `run_epoch` — the batches of a run, which are what it counts;
* `batches_length` — how many there are when all items have arrived at once;
* `run_coalesced` — all of it, for two runs with different caps.
-/

namespace KindCache

/-! ## Subscribers -/

/-- A subscriber after a while in which the watcher had some changes to tell, and
`running` says whether the watcher still runs. -/
structure Subscriber.Follows (told : List Change) (running : Bool) (x x' : Subscriber) :
    Prop where
  /-- a callback that has failed stays so -/
  alive : x'.alive = true → x.alive = true
  /-- it is sent everything, unless it fails -/
  sent : x.registered = true → x'.alive = true → x'.sent = x.sent ++ told
  /-- it stays registered as long as the watcher runs, unless it fails -/
  registered : x.registered = true → x'.alive = true → running = true → x'.registered = true
  /-- without registration it is sent nothing -/
  silent : x.registered = false → x'.registered = false ∧ x'.sent = x.sent

namespace Subscriber.Follows

variable {told more : List Change} {running running' : Bool} {x x' x'' : Subscriber}

theorem refl (running : Bool) (x : Subscriber) : Follows [] running x x :=
  ⟨id, fun _ _ => (List.append_nil _).symm, fun h _ _ => h, fun h => ⟨h, rfl⟩⟩

/-- After the end of the watcher there is nothing to tell, so what is told adds up although
the subscriber may be let go in between. -/
theorem trans (h : Follows told running x x') (h' : Follows more running' x' x'')
    (hrun : running' = true → running = true) (hend : running = false → more = []) :
    Follows (told ++ more) running' x x'' := by
  refine ⟨h.alive ∘ h'.alive, ?_, ?_, ?_⟩
  · intro hreg halive
    have halive' := h'.alive halive
    rcases hreg' : x'.registered with _ | _
    · have hended : running = false := by
        by_contra hr
        rw [h.registered hreg halive' (Bool.not_eq_false _ ▸ hr)] at hreg'
        cases hreg'
      rw [(h'.silent hreg').2, hend hended, List.append_nil, h.sent hreg halive']
    · rw [h'.sent hreg' halive, h.sent hreg halive', List.append_assoc]
  · intro hreg halive hr
    exact h'.registered (h.registered hreg (h'.alive halive) (hrun hr)) halive hr
  · intro hreg
    obtain ⟨hreg', hsent⟩ := h.silent hreg
    obtain ⟨hreg'', hsent'⟩ := h'.silent hreg'
    exact ⟨hreg'', hsent'.trans hsent⟩

/-- A batch with its changes, which a subscriber is sent if it is registered and has not
failed. -/
theorem send (told : List Change) (running : Bool) (x : Subscriber) :
    Follows told running x (x.send told) := by
  simp only [Subscriber.send]
  split
  · next hidle =>
    refine ⟨id, ?_, fun h _ _ => h, fun h => ⟨h, rfl⟩⟩
    intro hreg _
    have hnone : told = [] := by simpa [hreg] using hidle
    rw [hnone, List.append_nil]
  · next hsend =>
    have hreg : x.registered = true := by
      simp only [Bool.or_eq_true, not_or] at hsend
      simpa using hsend.2
    have hcontra : ∀ {P : Prop}, x.registered = false → P := by
      intro P h
      rw [hreg] at h
      cases h
    split
    · exact ⟨id, fun _ _ => rfl, fun h _ _ => h, hcontra⟩
    · next hdead =>
      exact ⟨id, fun _ h => absurd h hdead, fun _ h => absurd h hdead, hcontra⟩

theorem release (x : Subscriber) : Follows [] false x x.release :=
  ⟨id, fun _ _ => (List.append_nil _).symm, fun _ _ h => absurd h Bool.false_ne_true,
    fun _ => ⟨rfl, rfl⟩⟩

theorem deliver (n : Nat) (running : Bool) (x : Subscriber) :
    Follows [] running x (x.deliver n) :=
  ⟨alive_of_deliver, fun _ _ => (List.append_nil _).symm, fun h _ _ => h, fun h => ⟨h, rfl⟩⟩

end Subscriber.Follows

namespace Watcher

/-- All subscribers of a watcher are still there, and each has followed what was told. -/
def Followed (w : Watcher) (told : List Change) (w' : Watcher) : Prop :=
  ∀ (i : Nat) (x : Subscriber), w.subscribers[i]? = some x →
    ∃ x', w'.subscribers[i]? = some x' ∧ x.Follows told w'.running x'

section Followed

variable {w w' w'' : Watcher} {told more : List Change} {batch : List Arrival}

theorem Followed.of_same (h : w'.subscribers = w.subscribers) : Followed w [] w' :=
  fun _ x hx => ⟨x, h ▸ hx, .refl _ x⟩

/-- What is done to all subscribers alike has to be looked at for one. -/
theorem Followed.of_map {f : Subscriber → Subscriber} (h : w'.subscribers = w.subscribers.map f)
    (hf : ∀ x, Subscriber.Follows told w'.running x (f x)) : Followed w told w' := by
  intro i x hx
  refine ⟨f x, ?_, hf x⟩
  rw [h, List.getElem?_map, hx]
  rfl

theorem Followed.trans (h : Followed w told w') (h' : Followed w' more w'')
    (hrun : w''.running = true → w'.running = true) (hend : w'.running = false → more = []) :
    Followed w (told ++ more) w'' := by
  intro i x hx
  obtain ⟨x', hx', hfollows⟩ := h i x hx
  obtain ⟨x'', hx'', hfollows'⟩ := h' i x' hx'
  exact ⟨x'', hx'', hfollows.trans hfollows' hrun hend⟩

theorem consume_followed (w : Watcher) (batch : List Arrival) :
    Followed w (w.store.changesOf (batch.filterMap Arrival.event?)) (w.consume batch) := by
  rw [← receiveAll_changes]
  exact .of_map (consume_subscribers w batch) fun x => .send _ _ x

/-- Everyone follows through a move. A new subscriber is not among those that were there,
and so nothing is said of it. -/
theorem perform_followed (w : Watcher) (m : Move) :
    Followed w (w.store.changesOf ((w.takes m).filterMap Arrival.event?)) (w.perform m) := by
  cases m with
  | arrive items =>
    refine .of_same ?_
    simp only [perform, arrive]
    split <;> rfl
  | batch n =>
    simp only [perform, takeBatch, takes]
    split
    · exact consume_followed (w.withInbox (w.inbox.drop (w.batchSize n))) _
    · exact .of_same rfl
  | halt =>
    simp only [perform, halt]
    split
    · exact .of_map rfl fun x => .release x
    · exact .of_same rfl
  | exhaust =>
    simp only [perform, exhaust]
    split
    · exact .of_map rfl fun x => .release x
    · exact .of_same rfl
  | subscribe name failsAt =>
    intro i x hx
    obtain ⟨hi, -⟩ := List.getElem?_eq_some_iff.mp hx
    refine ⟨x, ?_, .refl _ x⟩
    show (w.subscribers ++ [_])[i]? = some x
    rw [List.getElem?_append_left hi, hx]
  | deliver pace =>
    intro i x hx
    refine ⟨x.deliver (pace i), ?_, .deliver _ _ x⟩
    show (w.subscribers.mapIdx _)[i]? = _
    rw [List.getElem?_mapIdx, hx]
    rfl
  | closeStream => exact .of_same rfl
  | stop => exact .of_same rfl

/-- **Everyone follows through a run**, and is sent the changes of what the run consumes,
one after the other. -/
theorem run_followed (w : Watcher) (moves : List Move) :
    Followed w (w.store.changesOf (w.history moves)) (w.run moves) := by
  induction moves generalizing w with
  | nil => exact .of_same rfl
  | cons m moves ih =>
    have hrest := ih (w.perform m)
    rw [perform_store] at hrest
    rw [history_cons, Store.changesOf_append]
    refine (perform_followed w m).trans hrest (run_later (w.perform m) moves).running fun hended => ?_
    rw [history, consumed_of_not_running hended]
    rfl

end Followed

/-! ## What items make of a watcher -/

/-- A watcher that is in the state to which some items have brought another one, by
whatever batches. -/
structure Made (w : Watcher) (items : List Arrival) (w' : Watcher) : Prop where
  store : w'.store = w.store.applyAll (items.filterMap Arrival.event?)
  events : w'.events = w.events + (items.filterMap Arrival.event?).length
  synced : w'.synced = (w.synced || items.any Arrival.isRelist)
  /-- the last item tells the state of recovery, until the stream has ended -/
  degraded : w'.degraded =
    if w'.running = true then degradedBy w.degraded items else some streamEnded
  /-- whoever was registered has been sent all changes, one after the other -/
  subscribers : Followed w (w.store.changesOf (items.filterMap Arrival.event?)) w'

/-- A watcher with another cap, and with other items in its inbox. -/
def facing (w : Watcher) (cap : Nat) (inbox : List Arrival) : Watcher :=
  { w with batchCap := cap, inbox }

/-- A run consumes some items, all that there are, and the watcher is not asked to
stop. -/
structure Consumes (w : Watcher) (moves : List Move) (items : List Arrival) : Prop where
  arrived : w.inbox ++ w.admitted moves = items
  all : (w.run moves).inbox = []
  unstopped : (w.run moves).stopRequested = false

theorem Consumes.consumed {w : Watcher} {moves : List Move} {items : List Arrival}
    (h : w.Consumes moves items) : w.consumed moves = items := by
  rw [← h.arrived, consumed_inbox h.unstopped, h.all, List.append_nil]

/-- A run that consumes the items makes of a watcher what `Made` says, however they came. -/
theorem Consumes.made {w : Watcher} {moves : List Move} {items : List Arrival}
    (hw : w.running = true) (h : w.Consumes moves items) : Made w items (w.run moves) := by
  have hhistory : w.history moves = items.filterMap Arrival.event? := by
    rw [history, h.consumed]
  refine ⟨?_, ?_, ?_, ?_, ?_⟩
  · rw [run_store, hhistory]
  · rw [run_events, hhistory]
  · rw [run_synced, h.consumed]
  · rw [run_degraded, (run_unstopped hw h.unstopped).1, h.consumed]
    rcases w.sawEnd moves with _ | _ <;> rfl
  · rw [← hhistory]
    exact run_followed w moves

/-- The cap and what was in the inbox before do not matter to what items make. -/
theorem Consumes.made_facing {w : Watcher} {cap : Nat} {inbox items : List Arrival}
    {moves : List Move} (hw : w.running = true)
    (h : (w.facing cap inbox).Consumes moves items) :
    Made w items ((w.facing cap inbox).run moves) := by
  obtain ⟨hstore, hevents, hsynced, hdegraded, hsent⟩ := h.made (w := w.facing cap inbox) hw
  exact ⟨hstore, hevents, hsynced, hdegraded, hsent⟩

/-- Handle items one at a time. -/
def oneByOne (w : Watcher) (items : List Arrival) : Watcher :=
  items.foldl (fun w a => w.consume [a]) w

/-- And so does handling them one at a time, which is the reference for all runs. -/
theorem oneByOne_made {w : Watcher} (hw : w.running = true) (items : List Arrival) :
    Made w items (w.oneByOne items) ∧ (w.oneByOne items).running = true := by
  induction items generalizing w with
  | nil => exact ⟨⟨rfl, rfl, (Bool.or_false _).symm, (if_pos hw).symm, .of_same rfl⟩, hw⟩
  | cons a items ih =>
    have hw' : (w.consume [a]).running = true := (consume_running w [a]).trans hw
    obtain ⟨hrest, hrun⟩ := ih hw'
    have hstore : (w.consume [a]).store = w.store.applyAll ([a].filterMap Arrival.event?) :=
      receiveAll_store w [a]
    have hsplit : (a :: items).filterMap Arrival.event? =
        [a].filterMap Arrival.event? ++ items.filterMap Arrival.event? :=
      List.filterMap_append (l := [a])
    refine ⟨⟨?_, ?_, ?_, ?_, ?_⟩, hrun⟩
    · rw [hsplit, Store.applyAll_append, ← hstore]
      exact hrest.store
    · rw [hsplit, List.length_append, ← Nat.add_assoc, ← consume_events]
      exact hrest.events
    · rw [List.any_cons, ← Bool.or_assoc]
      refine hrest.synced.trans ?_
      rw [consume_synced, List.any_cons, List.any_nil, Bool.or_false]
    · rw [degradedBy_cons]
      refine hrest.degraded.trans ?_
      rw [consume_degraded, degradedBy_cons, degradedBy_nil]
      rfl
    · rw [hsplit, Store.changesOf_append, ← hstore]
      refine (consume_followed w [a]).trans hrest.subscribers (fun _ => hw') fun hended => ?_
      rw [hw'] at hended
      cases hended

/-- Two states to which a watcher has come agree in all that readers see but the number
of publications, and in what was sent to those who were registered before and do not
fail. -/
structure Agree (w w₁ w₂ : Watcher) : Prop where
  store : w₁.store = w₂.store
  events : w₁.events = w₂.events
  synced : w₁.synced = w₂.synced
  degraded : w₁.running = w₂.running → w₁.degraded = w₂.degraded
  sent : ∀ (i : Nat) (x : Subscriber), w.subscribers[i]? = some x → x.registered = true →
    ∃ x₁ x₂, w₁.subscribers[i]? = some x₁ ∧ w₂.subscribers[i]? = some x₂ ∧
      (x₁.alive = true → x₂.alive = true → x₁.sent = x₂.sent)

/-- Whatever has been made of the same watcher by the same items agrees, so two ways to take
them in are compared through `Made` and not with one another. -/
theorem Made.agree {w w₁ w₂ : Watcher} {items : List Arrival} (h₁ : Made w items w₁)
    (h₂ : Made w items w₂) : Agree w w₁ w₂ := by
  refine ⟨h₁.store.trans h₂.store.symm, h₁.events.trans h₂.events.symm,
    h₁.synced.trans h₂.synced.symm, ?_, ?_⟩
  · intro hrun
    rw [h₁.degraded, h₂.degraded, hrun]
  · intro i x hx hreg
    obtain ⟨x₁, hx₁, hfollows₁⟩ := h₁.subscribers i x hx
    obtain ⟨x₂, hx₂, hfollows₂⟩ := h₂.subscribers i x hx
    refine ⟨x₁, x₂, hx₁, hx₂, ?_⟩
    intro halive₁ halive₂
    rw [hfollows₁.sent hreg halive₁, hfollows₂.sent hreg halive₂]

/-! ## The batches of a run -/

/-- The batches that a run takes in, in this order. -/
def cuts (w : Watcher) : List Move → List (List Arrival)
  | [] => []
  | m :: moves => [w.takes m].filter (fun batch => !batch.isEmpty) ++ (w.perform m).cuts moves

/-- The batches make up what is consumed. -/
theorem cuts_flatten (w : Watcher) (moves : List Move) :
    (w.cuts moves).flatten = w.consumed moves := by
  induction moves generalizing w with
  | nil => rfl
  | cons m moves ih =>
    rw [cuts, consumed, List.flatten_append, ih]
    rcases w.takes m with _ | ⟨a, batch⟩ <;> simp

/-- The cap of a watcher is set when it is made. -/
theorem perform_batchCap (w : Watcher) (m : Move) : (w.perform m).batchCap = w.batchCap := by
  cases m with
  | arrive items =>
    simp only [perform, arrive]
    split <;> rfl
  | batch n =>
    simp only [perform, takeBatch]
    split
    · exact consume_batchCap ..
    · rfl
  | halt =>
    simp only [perform, halt]
    split <;> rfl
  | exhaust =>
    simp only [perform, exhaust]
    split <;> rfl
  | closeStream | stop | subscribe | deliver => rfl

/-- A batch holds at least one item, and not more than the cap allows. -/
theorem cuts_bounded (w : Watcher) (moves : List Move) :
    ∀ batch ∈ w.cuts moves, 1 ≤ batch.length ∧ batch.length ≤ max w.batchCap 1 := by
  induction moves generalizing w with
  | nil => exact fun _ h => absurd h List.not_mem_nil
  | cons m moves ih =>
    intro batch hbatch
    rcases List.mem_append.mp hbatch with h | h
    · obtain ⟨hmem, hsome⟩ := List.mem_filter.mp h
      obtain rfl := List.mem_singleton.mp hmem
      cases perform_turn w m with
      | quiet htakes => simp [htakes] at hsome
      | batch hrun hend hpos hcap => exact ⟨hpos, hcap⟩
      | ended hrun hend htakes => simp [htakes] at hsome
    · rw [← perform_batchCap w m]
      exact ih _ batch h

/-- Each batch is one publication, and there is no other one. The count stops at its
greatest number and does not wrap, which is what the minimum says. -/
theorem run_epoch {w : Watcher} (hw : w.epoch ≤ lastEpoch) (moves : List Move) :
    (w.run moves).epoch = min (w.epoch + (w.cuts moves).length) lastEpoch := by
  induction moves generalizing w with
  | nil => exact (Nat.min_eq_left hw).symm
  | cons m moves ih =>
    rw [run_cons, cuts, List.length_append]
    cases perform_turn w m with
    | quiet htakes hend hunread =>
      rw [ih (by rw [hunread.epoch]; exact hw), hunread.epoch, htakes]
      simp
    | batch hrun hend hpos hcap hperform =>
      obtain ⟨rest, hperform⟩ := hperform
      have hepoch : (w.perform m).epoch = min (w.epoch + 1) lastEpoch := by
        rw [hperform]
        exact consume_epoch w _
      have hone : ([w.takes m].filter fun batch => !batch.isEmpty).length = 1 := by
        rcases htakes : w.takes m with _ | ⟨a, batch⟩
        · rw [htakes] at hpos
          cases hpos
        · rfl
      rw [ih (by rw [hepoch]; exact Nat.min_le_right _ _), hepoch, hone]
      omega
    | ended hrun hend htakes hperform =>
      have hepoch : (w.perform m).epoch = w.epoch := by
        rw [hperform]
        rfl
      rw [ih (by rw [hepoch]; exact hw), hepoch, htakes]
      simp

/-! ## Items that have arrived at once -/

section Batches

variable (cap : Nat) (items : List Arrival)

theorem batches_nil : batches cap [] = [] := by
  rw [batches]

/-- The batches of a queue are the queue, cut into pieces. -/
theorem batches_flatten : (batches cap items).flatten = items := by
  induction hn : items.length using Nat.strongRecOn generalizing items with
  | ind n ih =>
    by_cases h : items = []
    · rw [h, batches_nil]
      rfl
    · have hpos : 0 < items.length := List.length_pos_iff.mpr h
      have hless : (items.drop (max 1 cap)).length < n := by
        rw [List.length_drop]
        omega
      rw [batches_eq_cons cap h, List.flatten_cons, ih _ hless _ rfl]
      exact List.take_append_drop _ _

theorem batches_bounded : ∀ batch ∈ batches cap items,
    1 ≤ batch.length ∧ batch.length ≤ max cap 1 := by
  induction hn : items.length using Nat.strongRecOn generalizing items with
  | ind n ih =>
    by_cases h : items = []
    · rw [h, batches_nil]
      exact fun _ h => absurd h List.not_mem_nil
    · have hpos : 0 < items.length := List.length_pos_iff.mpr h
      have hless : (items.drop (max 1 cap)).length < n := by
        rw [List.length_drop]
        omega
      rw [batches_eq_cons cap h]
      intro batch hbatch
      rcases List.mem_cons.mp hbatch with rfl | hbatch
      · rw [List.length_take]
        omega
      · exact ih _ hless _ rfl batch hbatch

/-- As few batches as the cap allows: all of them but the last one are full. -/
theorem batches_length : (batches cap items).length = items.length ⌈/⌉ max cap 1 := by
  rw [Nat.ceilDiv_eq_add_pred_div]
  induction hn : items.length using Nat.strongRecOn generalizing items with
  | ind n ih =>
    by_cases h : items = []
    · obtain rfl : n = 0 := by rw [← hn, h]; rfl
      rw [h, batches_nil]
      refine (Nat.div_eq_of_lt ?_).symm
      omega
    · have hpos : 0 < items.length := List.length_pos_iff.mpr h
      have hlen : (items.drop (max 1 cap)).length = n - max 1 cap := by
        rw [List.length_drop, hn]
      rw [batches_eq_cons cap h, List.length_cons, ih _ (by rw [hlen]; omega) _ rfl, hlen,
        Nat.max_comm 1 cap]
      rcases Nat.lt_or_ge n (max cap 1) with hlt | hge
      · -- the rest is empty, and one batch was enough
        have hrest : (n - max cap 1 + max cap 1 - 1) / max cap 1 = 0 :=
          Nat.div_eq_of_lt (by omega)
        have hall : n + max cap 1 - 1 = n - 1 + max cap 1 := by omega
        rw [hrest, hall, Nat.add_div_right _ (by omega), Nat.div_eq_of_lt (by omega)]
      · have hall : n + max cap 1 - 1 = n - max cap 1 + max cap 1 - 1 + max cap 1 := by omega
        rw [hall, Nat.add_div_right _ (by omega)]

/-- So many batches are so many publications, unless the count is used up. -/
theorem foldl_consume_epoch {w : Watcher} (hw : w.epoch ≤ lastEpoch)
    (bs : List (List Arrival)) :
    (bs.foldl consume w).epoch = min (w.epoch + bs.length) lastEpoch := by
  induction bs generalizing w with
  | nil => exact (Nat.min_eq_left hw).symm
  | cons b bs ih =>
    rw [List.foldl_cons, ih (by rw [consume_epoch]; exact Nat.min_le_right _ _), consume_epoch,
      List.length_cons]
    omega

/-- So many publications it takes to consume all that has arrived. The end of the stream is
no publication. -/
theorem ingest_epoch {w : Watcher} (hw : w.running = true) (hs : w.stopRequested = false)
    (hepoch : w.epoch ≤ lastEpoch) :
    w.ingest.epoch = min (w.epoch + w.inbox.length ⌈/⌉ max w.batchCap 1) lastEpoch := by
  rw [← batches_length]
  rcases ho : w.streamOpen with _ | _
  · rw [ingest_ended hw hs ho]
    exact foldl_consume_epoch (w := w.withInbox []) hepoch _
  · rw [ingest_open hw hs ho]
    exact foldl_consume_epoch (w := w.withInbox []) hepoch _

end Batches

/-! ## Coalescing -/

/-- **Batches do not show.** Items that a running watcher consumes without being asked to
stop make the same of it whatever the cap is and however they arrive: as if it handled them
one at a time, until the end of the stream shows. A batch holds between one item and as many
as the cap allows, zero counting as one, and is one publication; items that have arrived at
once are as few batches as that allows. What has arrived before the end of the stream is
consumed in order, each item once, before the watcher ends. -/
theorem run_coalesced {w : Watcher} (hw : w.running = true) (hepoch : w.epoch ≤ lastEpoch) :
    (∀ cap cap' inbox inbox' moves moves' items,
      (w.facing cap inbox).Consumes moves items → (w.facing cap' inbox').Consumes moves' items →
      Agree w ((w.facing cap inbox).run moves) ((w.facing cap' inbox').run moves') ∧
        Agree w ((w.facing cap inbox).run moves) (w.oneByOne items) ∧
        (((w.facing cap inbox).run moves).running = false →
          ((w.facing cap inbox).run moves).degraded = some streamEnded)) ∧
    (∀ moves, (w.cuts moves).flatten = w.consumed moves ∧
      (∀ batch ∈ w.cuts moves, 1 ≤ batch.length ∧ batch.length ≤ max w.batchCap 1) ∧
      (w.run moves).epoch = min (w.epoch + (w.cuts moves).length) lastEpoch) ∧
    (w.stopRequested = false →
      (batches w.batchCap w.inbox).flatten = w.inbox ∧
      (∀ batch ∈ batches w.batchCap w.inbox,
        1 ≤ batch.length ∧ batch.length ≤ max w.batchCap 1) ∧
      (batches w.batchCap w.inbox).length = w.inbox.length ⌈/⌉ max w.batchCap 1 ∧
      w.ingest.epoch = min (w.epoch + w.inbox.length ⌈/⌉ max w.batchCap 1) lastEpoch) ∧
    ∀ moves, (w.run moves).running = false → (w.run moves).stopRequested = false →
      w.consumed moves = w.inbox ++ w.admitted moves ∧
      (w.run moves).store =
        w.store.applyAll ((w.inbox ++ w.admitted moves).filterMap Arrival.event?) := by
  refine ⟨?_, ?_, ?_, ?_⟩
  · intro cap cap' inbox inbox' moves moves' items h h'
    have hmade := h.made_facing hw
    have hmade' := h'.made_facing hw
    refine ⟨hmade.agree hmade', hmade.agree (oneByOne_made hw items).1, ?_⟩
    intro hended
    rw [hmade.degraded, hended]
    rfl
  · intro moves
    exact ⟨cuts_flatten w moves, cuts_bounded w moves, run_epoch hepoch moves⟩
  · intro hs
    exact ⟨batches_flatten _ _, batches_bounded _ _, batches_length _ _,
      ingest_epoch hw hs hepoch⟩
  · intro moves hended hs
    have hall := consumed_of_ended hw hended hs
    refine ⟨hall, ?_⟩
    rw [run_store, history, hall]

/-- A pod is listed and replaced, and then the stream fails. -/
def mixture : List Arrival :=
  [.event (.relisted [pod "a" "new"]), .event (.applied (pod "a" "running")), .fault "gone"]

/-- A watcher that nothing has reached yet, and that someone has subscribed to. -/
def listener : Watcher :=
  (starting pods 2 true []).subscribe "log" none

/-- All items have arrived, and they are taken in one after the other. -/
def singly : List Move :=
  [.batch 1, .batch 1, .batch 1]

/-- The two events come first and are one batch. The failure is another one, and the
stream ends after it. -/
def inTwo : List Move :=
  [.arrive (mixture.take 2), .batch 2, .arrive (mixture.drop 2), .batch 1, .closeStream,
    .exhaust]

theorem run_coalesced_mixture :
    Agree listener ((listener.facing 0 mixture).run singly)
        ((listener.facing 3 []).run inTwo) ∧
      ((listener.facing 0 mixture).run singly).epoch = 3 ∧
      ((listener.facing 3 []).run inTwo).epoch = 2 ∧
      ((listener.facing 0 mixture).run singly).degraded = some "gone" ∧
      ((listener.facing 3 []).run inTwo).degraded = some streamEnded := by
  have hsingly : (listener.facing 0 mixture).Consumes singly mixture := ⟨rfl, rfl, rfl⟩
  have hinTwo : (listener.facing 3 []).Consumes inTwo mixture := ⟨rfl, rfl, rfl⟩
  obtain ⟨hruns, -, -, -⟩ := run_coalesced (w := listener) rfl (Nat.zero_le _)
  obtain ⟨hagree, -, -⟩ := hruns 0 3 mixture [] singly inTwo mixture hsingly hinTwo
  obtain ⟨-, -, hended⟩ := hruns 3 0 [] mixture inTwo singly mixture hinTwo hsingly
  exact ⟨hagree, rfl, rfl, rfl, hended rfl⟩

end Watcher

end KindCache
