import KindCache.Proofs.Numbers
import KindCache.Proofs.Watcher.Subscribers

/-!
# Subscribers that fail among others

A callback may fail at any time, also while its watcher is sending: the changes of a batch are put
into the queues one by one, and what is in a queue already may be delivered meanwhile.

* `Subscriber.sendAmid` — sending while the queue is delivered. Nothing is delivered meanwhile in
  `Subscriber.send` (`sendAmid_calm`);
* `Moment`, `live` — runs with such batches, of which `Watcher.run` is a special case
  (`live_move`);
* `without` — the same run, in which some never subscribed. The others get smaller numbers;
* `Undisturbed`, `run_undisturbed` — nobody notices the difference, and who has failed is let go by
  the next batch that changes anything.
-/

namespace KindCache

namespace Subscriber

/-- Put one change into the queue. -/
def push (x : Subscriber) (c : Change) : Subscriber :=
  { x with sent := x.sent ++ [c] }

/-- Offer changes one by one while the queue is delivered, by at most `pace j` changes before the
one with the number `j`. A callback that has failed is found out at the next change, and the rest
is not offered. The number counts the offers. -/
def offer (pace : Nat → Nat) : List Change → Subscriber → Subscriber × Nat
  | [], x => (x, 0)
  | c :: rest, x =>
    if (x.deliver (pace 0)).alive then
      let (y, n) := offer (fun j => pace (j + 1)) rest ((x.deliver (pace 0)).push c)
      (y, n + 1)
    else ((x.deliver (pace 0)).release, 1)

/-- Send a batch of changes while the queue is delivered. -/
def sendAmid (pace : Nat → Nat) (changes : List Change) (x : Subscriber) : Subscriber :=
  if x.registered then (x.offer pace changes).1 else x

/-- How many sends that takes, the failed one included. -/
def sendsAmid (pace : Nat → Nat) (changes : List Change) (x : Subscriber) : Nat :=
  if x.registered then (x.offer pace changes).2 else 0

section

variable {x : Subscriber} {pace : Nat → Nat} {changes : List Change} {n : Nat}

@[simp] theorem deliver_none (x : Subscriber) : x.deliver 0 = x := by
  have hsame : max x.delivered (min (x.delivered + 0) x.reach) = x.delivered := by omega
  rw [deliver, hsame]

@[simp] theorem alive_release : x.release.alive = x.alive :=
  rfl

/-- A callback that has failed stays so, whatever is delivered later. -/
theorem failed_deliver (h : x.alive = false) : (x.deliver n).alive = false := by
  rcases hlater : (x.deliver n).alive with _ | _
  · rfl
  · exact absurd (alive_of_deliver hlater) (by rw [h]; exact Bool.false_ne_true)

theorem offer_cons_alive {c : Change} (h : (x.deliver (pace 0)).alive = true) :
    x.offer pace (c :: changes) =
      ((((x.deliver (pace 0)).push c).offer (fun j => pace (j + 1)) changes).1,
        (((x.deliver (pace 0)).push c).offer (fun j => pace (j + 1)) changes).2 + 1) := by
  rw [offer, if_pos h]

theorem offer_cons_failed {c : Change} (h : (x.deliver (pace 0)).alive = false) :
    x.offer pace (c :: changes) = ((x.deliver (pace 0)).release, 1) := by
  rw [offer, if_neg (by rw [h]; exact Bool.false_ne_true)]

/-- A callback that has not failed takes all, if nothing is delivered meanwhile: it can fail
only on what is delivered to it. -/
theorem offer_calm_alive (h : x.alive = true) :
    x.offer (fun _ => 0) changes = ({ x with sent := x.sent ++ changes }, changes.length) := by
  induction changes generalizing x with
  | nil => rw [offer, List.append_nil, List.length_nil]
  | cons c changes ih =>
    have hpush : (x.push c).alive = true := h
    rw [offer_cons_alive (by rwa [deliver_none]), deliver_none, ih hpush]
    simp [push]

theorem offer_calm (h : x.registered = true) :
    x.offer (fun _ => 0) changes = (x.send changes, x.sends changes) := by
  rcases changes with _ | ⟨c, rest⟩
  · simp [offer, send, sends]
  · rcases halive : x.alive with _ | _
    · rw [offer_cons_failed (failed_deliver halive), deliver_none]
      simp [send, sends, release, h, halive]
    · rw [offer_calm_alive halive]
      simp [send, sends, h, halive]

/-- With nothing delivered meanwhile, this is to send. So the runs here are no less than
those of `Watcher.run`. -/
theorem sendAmid_calm (x : Subscriber) (changes : List Change) :
    x.sendAmid (fun _ => 0) changes = x.send changes := by
  rcases h : x.registered with _ | _
  · simp [sendAmid, send, h]
  · rw [sendAmid, if_pos h, offer_calm h]

theorem sendsAmid_calm (x : Subscriber) (changes : List Change) :
    x.sendsAmid (fun _ => 0) changes = x.sends changes := by
  rcases h : x.registered with _ | _
  · simp [sendsAmid, sends, h]
  · rw [sendsAmid, if_pos h, offer_calm h]

@[simp] theorem sendAmid_nil : x.sendAmid pace [] = x := by
  simp [sendAmid, offer]

/-- Who has failed before there is anything to send is let go: the first change that is
offered finds it out. -/
theorem registered_sendAmid_failed (h : x.alive = false) (hsome : changes ≠ []) :
    (x.sendAmid pace changes).registered = false := by
  obtain ⟨c, rest, rfl⟩ := List.exists_cons_of_ne_nil hsome
  rcases hregistered : x.registered with _ | _
  · rw [sendAmid, hregistered]
    exact hregistered
  · rw [sendAmid, if_pos hregistered, offer_cons_failed (failed_deliver h)]
    rfl

/-- Sending makes nobody registered. -/
theorem registered_of_sendAmid (h : (x.sendAmid pace changes).registered = true) :
    x.registered = true := by
  rcases hregistered : x.registered with _ | _
  · rw [sendAmid, hregistered] at h
    exact hregistered.symm.trans h
  · rfl

/-- Who has not failed by the end is not let go. A callback that has failed stays so, hence
it had not failed at any offer. -/
theorem registered_offer (h : (x.offer pace changes).1.alive = true) :
    (x.offer pace changes).1.registered = x.registered := by
  induction changes generalizing x pace with
  | nil => rfl
  | cons c changes ih =>
    rcases halive : (x.deliver (pace 0)).alive with _ | _
    · -- the only way out is a callback that has failed
      rw [offer_cons_failed halive] at h
      exact absurd h (by rw [alive_release, halive]; exact Bool.false_ne_true)
    · rw [offer_cons_alive halive] at h ⊢
      exact ih h

theorem registered_sendAmid (h : (x.sendAmid pace changes).alive = true) :
    (x.sendAmid pace changes).registered = x.registered := by
  rcases hregistered : x.registered with _ | _
  · rw [sendAmid, hregistered]
    exact hregistered
  · rw [sendAmid, if_pos hregistered] at h ⊢
    rw [registered_offer h, hregistered]

end

end Subscriber

namespace Watcher

/-! ## Batches amid deliveries -/

/-- Show the store to readers, and tell the subscribers what has changed while their queues are
delivered: `pace i` is the pace of the `i`-th one. -/
def publishAmid (w : Watcher) (pace : Nat → Nat → Nat) (changes : List Change) : Watcher :=
  { w.publish changes with
    subscribers := w.subscribers.mapIdx fun i x => x.sendAmid (pace i) changes
    dispatched :=
      (w.subscribers.mapIdx fun i x => x.sendsAmid (pace i) changes).foldl (· + ·) w.dispatched }

/-- Take in one batch and publish it meanwhile. -/
def consumeAmid (w : Watcher) (pace : Nat → Nat → Nat) (batch : List Arrival) : Watcher :=
  let (after, changes) := w.receiveAll batch
  { after.publishAmid pace changes with synced := w.synced || batch.any Arrival.isRelist }

/-- Take in one batch of what has arrived, if there is anything. -/
def takeBatchAmid (w : Watcher) (n : Nat) (pace : Nat → Nat → Nat) : Watcher :=
  if w.running && !w.inbox.isEmpty then
    (w.withInbox (w.inbox.drop (w.batchSize n))).consumeAmid pace (w.inbox.take (w.batchSize n))
  else w

/-- The changes that a batch of at most `n` items publishes; none if there is no batch. -/
def news (w : Watcher) (n : Nat) : List Change :=
  if w.running && !w.inbox.isEmpty then (w.receiveAll (w.inbox.take (w.batchSize n))).2 else []

/-- What can happen to a watcher, with queues that are delivered at any time. -/
inductive Moment where
  /-- a move, with nothing else going on -/
  | move (m : Move)
  /-- a batch of at most `n` items is taken in while queues are delivered -/
  | publishing (n : Nat) (pace : Nat → Nat → Nat)

/-- The watcher after a moment. -/
def act (w : Watcher) : Moment → Watcher
  | .move m => w.perform m
  | .publishing n pace => w.takeBatchAmid n pace

/-- The watcher after some moments. -/
def live (w : Watcher) (moments : List Moment) : Watcher :=
  moments.foldl act w

section

variable {w w' : Watcher} {changes : List Change} {batch : List Arrival} {n : Nat}
  {pace : Nat → Nat → Nat}

theorem publishAmid_calm (w : Watcher) (changes : List Change) :
    w.publishAmid (fun _ _ => 0) changes = w.publish changes := by
  simp only [publishAmid, publish, Subscriber.sendAmid_calm, Subscriber.sendsAmid_calm,
    mapIdx_unnumbered, List.foldl_map]

/-- With nothing delivered meanwhile, this is the move. -/
theorem takeBatchAmid_calm (w : Watcher) (n : Nat) :
    w.takeBatchAmid n (fun _ _ => 0) = w.takeBatch n := by
  simp only [takeBatchAmid, takeBatch, consumeAmid, consume, publishAmid_calm]

theorem live_move (w : Watcher) (moves : List Move) : w.live (moves.map .move) = w.run moves := by
  rw [live, List.foldl_map]
  rfl

/-! ### What a batch does -/

theorem consumeAmid_subscribers : (w.consumeAmid pace batch).subscribers =
    w.subscribers.mapIdx fun i x => x.sendAmid (pace i) (w.receiveAll batch).2 := by
  have hsame : (w.receiveAll batch).1.subscribers = w.subscribers :=
    receiveAll_frame subscribers (fun _ a => by cases a <;> rfl) w batch
  rw [← hsame]
  rfl

/-- Every subscriber is sent what is new; nothing is new if there is no batch. -/
theorem takeBatchAmid_subscribers (w : Watcher) (n : Nat) (pace : Nat → Nat → Nat) :
    (w.takeBatchAmid n pace).subscribers =
      w.subscribers.mapIdx fun i x => x.sendAmid (pace i) (w.news n) := by
  simp only [takeBatchAmid, news]
  split
  · rw [consumeAmid_subscribers, receiveAll_withInbox]
    rfl
  · simp [mapIdx_unnumbered]

/-- A watcher without its subscribers, and without the count of what is sent to them. -/
def alone (w : Watcher) : Watcher :=
  { w with subscribers := [], dispatched := 0 }

/-- Taking items in has nothing to do with subscribers. -/
theorem receiveAll_alone (w : Watcher) (batch : List Arrival) :
    w.alone.receiveAll batch = ((w.receiveAll batch).1.alone, (w.receiveAll batch).2) := by
  induction batch generalizing w with
  | nil => rfl
  | cons a batch ih =>
    have ha : w.alone.receive a = ((w.receive a).1.alone, (w.receive a).2) := by
      cases a <;> rfl
    rw [receiveAll_cons, receiveAll_cons, ha, ih]

theorem news_alone (w : Watcher) (n : Nat) : w.alone.news n = w.news n := by
  simp only [news]
  change (if w.running && !w.inbox.isEmpty then
    (w.alone.receiveAll (w.inbox.take (w.batchSize n))).2 else []) = _
  rw [receiveAll_alone]

/-- What a batch does apart from sending does not depend on who is there, nor on how fast
their queues are delivered. -/
theorem takeBatchAmid_alone (w : Watcher) (n : Nat) (pace pace' : Nat → Nat → Nat) :
    (w.takeBatchAmid n pace).alone = (w.alone.takeBatchAmid n pace').alone := by
  simp only [takeBatchAmid]
  change _ = (if w.running && !w.inbox.isEmpty then
    ((w.withInbox (w.inbox.drop (w.batchSize n))).alone.consumeAmid pace'
      (w.inbox.take (w.batchSize n))) else w.alone).alone
  split
  · simp only [consumeAmid, receiveAll_alone]
    rfl
  · rfl

end

/-! ## Runs in which some never subscribed -/

/-- What belongs to those of `n` numbers that are kept, under their new numbers. -/
def renumber {α : Type} (keep : Nat → Bool) (n : Nat) (f : Nat → α) (j : Nat) : α :=
  f (((List.range n).filter keep).getD j 0)

/-- The same moment without those who are not kept; `n` have subscribed before. -/
def Moment.without (keep : Nat → Bool) (n : Nat) : Moment → Option Moment
  | .move (.subscribe name failsAt) =>
    if keep n then some (.move (.subscribe name failsAt)) else none
  | .move (.deliver pace) => some (.move (.deliver (renumber keep n pace)))
  | .move m => some (.move m)
  | .publishing k pace => some (.publishing k (renumber keep n pace))

/-- How many subscribe at a moment. -/
def Moment.joins : Moment → Nat
  | .move m => m.joins
  | .publishing _ _ => 0

/-- The same moments, in which those who are not kept never subscribed. -/
def without (keep : Nat → Bool) : Nat → List Moment → List Moment
  | _, [] => []
  | n, m :: moments => (m.without keep n).toList ++ without keep (n + m.joins) moments

/-- A watcher next to one at which some never subscribed. -/
structure Undisturbed (keep : Nat → Bool) (w w' : Watcher) : Prop where
  /-- the others were told the same and have received the same -/
  subscribers : Thinned keep Eq w.subscribers w'.subscribers
  /-- everything else is the same -/
  alone : w'.alone = w.alone

section

variable {keep : Nat → Bool} {w w' : Watcher} {n i : Nat}

/-- What belongs to a subscriber that is kept is found under its new number. -/
theorem renumber_rank {α : Type} (f : Nat → α) (hi : keep i = true) (h : i < n) :
    renumber keep n f (rank keep i) = f i := by
  rw [renumber, List.getD_eq_getElem?_getD, getElem?_filter_range hi h]
  rfl

theorem live_append (w : Watcher) (moments more : List Moment) :
    w.live (moments ++ more) = (w.live moments).live more :=
  List.foldl_append

/-- Those who have subscribed stay in their places, and new ones come after them. So numbers
are given once. -/
theorem act_length (w : Watcher) (m : Moment) :
    (w.act m).subscribers.length = w.subscribers.length + m.joins := by
  cases m with
  | move m => exact perform_subscribers_length w m
  | publishing k pace =>
    rw [act, takeBatchAmid_subscribers, List.length_mapIdx]
    rfl

namespace Undisturbed

theorem starting (keep : Nat → Bool) (resource : Resource) (cap : Nat) (tied : Bool)
    (inbox : List Arrival) :
    Undisturbed keep (.starting resource cap tied inbox) (.starting resource cap tied inbox) :=
  ⟨.nil keep Eq, rfl⟩

section

variable (h : Undisturbed keep w w')
include h

/-- What no subscriber has a part in is the same. -/
theorem same {α : Type} (f : Watcher → α) (hf : ∀ w, f w.alone = f w) : f w' = f w := by
  rw [← hf w', h.alone, hf w]

/-- Something that is done to all subscribers alike, and that depends on nothing but the
rest of the watcher. -/
theorem both (f : Watcher → Watcher) (g : Watcher → Subscriber → Subscriber)
    (hf : ∀ w, (f w).subscribers = w.subscribers.map (g w)) (hg : ∀ w, g w.alone = g w)
    (halone : ∀ w, (f w.alone).alone = (f w).alone) : Undisturbed keep (f w) (f w') := by
  refine ⟨?_, ?_⟩
  · rw [hf, hf, h.same g hg]
    exact h.subscribers.map fun x x' hx => congrArg (g w) hx
  · rw [← halone w', h.alone, halone w]

/-- A batch is published to the others alike, who are delivered alike. Sending to one does
not look at any other one. -/
theorem publishing (n : Nat) (pace : Nat → Nat → Nat) :
    Undisturbed keep (w.takeBatchAmid n pace)
      (w'.takeBatchAmid n (renumber keep w.subscribers.length pace)) := by
  have hnews : w'.news n = w.news n := h.same (news · n) fun w => news_alone w n
  refine ⟨?_, ?_⟩
  · rw [takeBatchAmid_subscribers, takeBatchAmid_subscribers, hnews]
    refine h.subscribers.mapIdx fun i x x' hi hx heq => ?_
    obtain ⟨hlt, -⟩ := List.getElem?_eq_some_iff.mp hx
    rw [renumber_rank pace hi hlt, heq]
  · rw [takeBatchAmid_alone w' n _ pace, h.alone, ← takeBatchAmid_alone]

theorem batch (n : Nat) : Undisturbed keep (w.takeBatch n) (w'.takeBatch n) := by
  have hcalm : Undisturbed keep (w.takeBatchAmid n fun _ _ => 0)
      (w'.takeBatchAmid n fun _ _ => 0) := h.publishing n fun _ _ => 0
  rwa [takeBatchAmid_calm, takeBatchAmid_calm] at hcalm

/-- Whoever subscribes is told of the same objects. One who is not kept leaves no trace. -/
theorem subscribe (name : String) (failsAt : Option Nat) :
    Undisturbed keep (w.subscribe name failsAt)
      (if keep w.subscribers.length then w'.subscribe name failsAt else w') := by
  have hstore : w'.store = w.store := h.same store fun _ => rfl
  rcases hkeep : keep w.subscribers.length with _ | _
  · exact ⟨h.subscribers.left (.snoc hkeep _), h.alone⟩
  · refine ⟨h.subscribers.snoc hkeep ?_, h.alone⟩
    rw [hstore]

/-- The others are delivered alike, under their new numbers. -/
theorem deliver (pace : Nat → Nat) : Undisturbed keep (w.deliver pace)
    (w'.deliver (renumber keep w.subscribers.length pace)) := by
  refine ⟨h.subscribers.mapIdx fun i x x' hi hx heq => ?_, h.alone⟩
  obtain ⟨hlt, -⟩ := List.getElem?_eq_some_iff.mp hx
  rw [renumber_rank pace hi hlt, heq]

theorem arrive (items : List Arrival) :
    Undisturbed keep (w.arrive items) (w'.arrive items) := by
  refine h.both (·.arrive items) (fun _ => id) (fun w => ?_) (fun _ => rfl) fun w => ?_
  · simp only [Watcher.arrive]
    split <;> simp
  · simp only [Watcher.arrive]
    rcases hguard : w.running && w.streamOpen with _ | _ <;>
      simp [Watcher.alone, hguard]

theorem halt : Undisturbed keep w.halt w'.halt := by
  refine h.both Watcher.halt (fun w => if w.running && w.stopRequested then .release else id)
    (fun w => ?_) (fun _ => rfl) fun w => ?_
  · simp only [Watcher.halt]
    split <;> simp [finish]
  · simp only [Watcher.halt]
    rcases hguard : w.running && w.stopRequested with _ | _ <;>
      simp [Watcher.alone, hguard, finish]

theorem exhaust : Undisturbed keep w.exhaust w'.exhaust := by
  refine h.both Watcher.exhaust
    (fun w => if w.running && !w.streamOpen && w.inbox.isEmpty then .release else id)
    (fun w => ?_) (fun _ => rfl) fun w => ?_
  · simp only [Watcher.exhaust]
    split <;> simp [finish]
  · simp only [Watcher.exhaust]
    rcases hguard : w.running && !w.streamOpen && w.inbox.isEmpty with _ | _ <;>
      simp [Watcher.alone, hguard, finish]

/-- Every moment preserves it. Where it is a subscription of someone who is not kept, the
other run has no moment at all. -/
theorem act (m : Moment) :
    Undisturbed keep (w.act m) (w'.live (m.without keep w.subscribers.length).toList) := by
  cases m with
  | publishing k pace => exact h.publishing k pace
  | move m =>
    cases m with
    | arrive items => exact h.arrive items
    | closeStream => exact ⟨h.subscribers, h.same (·.closeStream.alone) fun _ => rfl⟩
    | stop => exact ⟨h.subscribers, h.same (·.stop.alone) fun _ => rfl⟩
    | batch k => exact h.batch k
    | halt => exact h.halt
    | exhaust => exact h.exhaust
    | subscribe name failsAt =>
      have hsubscribe := h.subscribe name failsAt
      simp only [Moment.without]
      split
      · next hkeep =>
        rw [if_pos hkeep] at hsubscribe
        exact hsubscribe
      · next hkeep =>
        rw [if_neg hkeep] at hsubscribe
        exact hsubscribe
    | deliver pace => exact h.deliver pace

end

/-- **So does every number of moments.** The number of those who have subscribed so far is
carried along, for it decides who is meant by the next subscription. -/
theorem live (h : Undisturbed keep w w') (moments : List Moment) :
    Undisturbed keep (w.live moments)
      (w'.live (Watcher.without keep w.subscribers.length moments)) := by
  induction moments generalizing w w' with
  | nil => exact h
  | cons m moments ih =>
    rw [Watcher.without, live_append, ← act_length]
    exact ih (h.act m)

end Undisturbed

/-! ## Who is let go -/

/-- Who is not sent to any more is not sent to again. -/
theorem act_unregistered {x : Subscriber} (hx : w.subscribers[i]? = some x)
    (h : x.registered = false) (m : Moment) :
    ∃ y, (w.act m).subscribers[i]? = some y ∧ y.registered = false := by
  have hamid : ∀ k pace, ∃ y, (w.takeBatchAmid k pace).subscribers[i]? = some y ∧
      y.registered = false := by
    intro k pace
    refine ⟨x, ?_, h⟩
    have hsame : x.sendAmid (pace i) (w.news k) = x := by
      rw [Subscriber.sendAmid, h]
      rfl
    rw [takeBatchAmid_subscribers, List.getElem?_mapIdx, hx, Option.map_some, hsame]
  cases m with
  | publishing k pace => exact hamid k pace
  | move m =>
    cases m with
    | batch k =>
      have hcalm := hamid k fun _ _ => 0
      rwa [takeBatchAmid_calm] at hcalm
    | closeStream | stop => exact ⟨x, hx, h⟩
    | subscribe name failsAt => exact ⟨x, getElem?_snoc_of_some hx, h⟩
    | deliver pace =>
      refine ⟨x.deliver (pace i), ?_, h⟩
      simp [act, perform, deliver, hx]
    | arrive items =>
      simp only [act, perform, arrive]
      split <;> exact ⟨x, hx, h⟩
    | halt | exhaust =>
      simp only [act, perform, halt, exhaust]
      split
      · exact ⟨x.release, by simp [finish, hx], rfl⟩
      · exact ⟨x, hx, h⟩

theorem live_unregistered {x : Subscriber} (hx : w.subscribers[i]? = some x)
    (h : x.registered = false) (moments : List Moment) :
    ∃ y, (w.live moments).subscribers[i]? = some y ∧ y.registered = false := by
  induction moments generalizing w x with
  | nil => exact ⟨x, hx, h⟩
  | cons m moments ih =>
    obtain ⟨y, hy, hunregistered⟩ := act_unregistered hx h m
    exact ih hy hunregistered

/-- Whom a batch of at most `n` items lets go that is published while queues are delivered. -/
structure LetsGo (w : Watcher) (n : Nat) (pace : Nat → Nat → Nat) : Prop where
  /-- who has failed before is let go for good, if anything is published -/
  failed : w.news n ≠ [] → ∀ (i : Nat) (x : Subscriber), w.subscribers[i]? = some x →
    x.alive = false → ∀ moments, ∃ y,
      ((w.takeBatchAmid n pace).live moments).subscribers[i]? = some y ∧ y.registered = false
  /-- so nobody who has failed before counts any more -/
  count : w.news n ≠ [] → (w.takeBatchAmid n pace).subscriberCount ≤
    w.subscribers.countP fun x => x.registered && x.alive
  /-- who has not failed afterwards is not let go -/
  alive : ∀ (i : Nat) (x : Subscriber), w.subscribers[i]? = some x → ∃ y,
    (w.takeBatchAmid n pace).subscribers[i]? = some y ∧
      (y.alive = true → y.registered = x.registered)

/-- **Who is let go.** A callback that has failed by the end of a batch with news has either
failed before, and is found out at the first change, or fails amid the batch, which may be
found out now or later. -/
theorem letsGo (w : Watcher) (n : Nat) (pace : Nat → Nat → Nat) : w.LetsGo n pace := by
  have hget : ∀ {i : Nat} {x : Subscriber}, w.subscribers[i]? = some x →
      (w.takeBatchAmid n pace).subscribers[i]? = some (x.sendAmid (pace i) (w.news n)) := by
    intro i x hx
    rw [takeBatchAmid_subscribers, List.getElem?_mapIdx, hx]
    rfl
  refine ⟨fun hnews i x hx hfailed moments => ?_, fun hnews => ?_, fun i x hx => ?_⟩
  · have hgone : (x.sendAmid (pace i) (w.news n)).registered = false :=
      Subscriber.registered_sendAmid_failed hfailed hnews
    exact live_unregistered (hget hx) hgone moments
  · rw [subscriberCount, takeBatchAmid_subscribers]
    refine countP_mapIdx_le fun i x hregistered => ?_
    rw [Subscriber.registered_of_sendAmid hregistered, Bool.true_and]
    rcases halive : x.alive with _ | _
    · rw [Subscriber.registered_sendAmid_failed halive hnews] at hregistered
      exact hregistered
    · rfl
  · exact ⟨_, hget hx, Subscriber.registered_sendAmid⟩

/-- Who has not failed so far. -/
def survivors (w : Watcher) (i : Nat) : Bool :=
  w.subscribers[i]?.any (·.alive)

end

/-- In every run, whoever fails and whenever: if some had never subscribed, the others would
have been told and have received the same, and the watcher would be the same. In particular,
without all who have failed by the end just these are missing. A batch that changes anything
lets go who has failed before, and no batch lets go anyone else. -/
theorem run_undisturbed (resource : Resource) (cap : Nat) (tied : Bool) (inbox : List Arrival)
    (moments : List Moment) :
    (∀ keep, Undisturbed keep ((starting resource cap tied inbox).live moments)
      ((starting resource cap tied inbox).live (without keep 0 moments))) ∧
    ((starting resource cap tied inbox).live (without
        (((starting resource cap tied inbox).live moments).survivors) 0 moments)).subscribers =
      ((starting resource cap tied inbox).live moments).subscribers.filter (·.alive) ∧
    ∀ n pace, ((starting resource cap tied inbox).live moments).LetsGo n pace := by
  have hall : ∀ keep, Undisturbed keep ((starting resource cap tied inbox).live moments)
      ((starting resource cap tied inbox).live (without keep 0 moments)) :=
    fun keep => (Undisturbed.starting keep resource cap tied inbox).live moments
  refine ⟨hall, ?_, fun n pace => letsGo _ n pace⟩
  refine (hall _).subscribers.eq_filter fun i x hx => ?_
  rw [survivors, hx]
  rfl

/-- Two subscribe to a pod that is there. The callback of the first one fails on this pod before
the second one of two changes is sent; then a third one comes, whose callback fails as well. -/
def crash : List Moment :=
  [.move (.batch 1), .move (.subscribe "frail" (some 1)), .move (.subscribe "log" none),
    .move (.arrive [.event (.applied (pod "a" "running")), .event (.deleted (pod "a" "done"))]),
    .publishing 2 (fun i j => if i = 0 ∧ j = 1 then 1 else 0),
    .move (.arrive [.event (.applied (pod "b" "new"))]), .move (.batch 1),
    .move (.subscribe "late" (some 1)), .move (.deliver fun _ => 3),
    .move (.arrive [.event (.deleted (pod "b" "new"))])]

/-- A watcher that sees a pod at first. -/
def onePod : Watcher :=
  .starting pods 2 true [.event (.relisted [pod "a" "new"])]

theorem run_undisturbed_crash :
    (onePod.live crash).subscribers.map (fun x => (x.alive, x.registered)) =
        [(false, false), (true, true), (false, true)] ∧
      (onePod.live crash).news 1 = [.deleted (pod "b" "new")] ∧
      Undisturbed (onePod.live crash).survivors (onePod.live crash)
        (onePod.live (without (onePod.live crash).survivors 0 crash)) ∧
      (onePod.live (without (onePod.live crash).survivors 0 crash)).subscribers.map (·.name) =
        ["log"] ∧
      ∃ y, ((onePod.live crash).takeBatchAmid 1 fun _ _ => 0).subscribers[2]? = some y ∧
        y.registered = false := by
  obtain ⟨hall, hleft, hletsGo⟩ := run_undisturbed pods 2 true
    [.event (.relisted [pod "a" "new"])] crash
  obtain ⟨hfailed, -, -⟩ := hletsGo 1 fun _ _ => 0
  refine ⟨rfl, rfl, hall _, congrArg (List.map (·.name)) hleft, ?_⟩
  exact hfailed (List.cons_ne_nil _ _) 2 _ rfl rfl []

end Watcher

end KindCache
