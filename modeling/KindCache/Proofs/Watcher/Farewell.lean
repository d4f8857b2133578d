import KindCache.Proofs.Watcher.Account
import KindCache.Proofs.Watcher.Subscribers

/-!
# The end of a watcher

A watcher that ends lets go of its subscribers: what is in their queues is still delivered, and
nothing follows. It does so once. Whoever subscribes after that is told of the objects that are
there, counts as a subscriber for good and is never let go.

* `late` — for each subscription of a run, whether the watcher had ended before it;
* `Carried` — what a move does to a subscriber that is there (`perform_carried`);
* `Standing`, `Attended` — how those who have subscribed stand with the watcher, in time or late;
  every move preserves it;
* `run_farewell` — whom a watcher that has ended has let go, and that this is final;
* `left_waiting` — a late subscriber is not let go.
-/

namespace KindCache

namespace Watcher

/-- For a move that is a subscription, whether the watcher has ended before it. -/
def tardy? (w : Watcher) : Move → Option Bool
  | .subscribe _ _ => some !w.running
  | _ => none

/-- For each subscription of a run, whether the watcher had ended before it. -/
def late (w : Watcher) : List Move → List Bool
  | [] => []
  | m :: moves => (w.tardy? m).toList ++ (w.perform m).late moves

/-- What a new subscriber is told at first. -/
def replay (w : Watcher) : List Change :=
  w.store.entries.map fun e => .added e.2

section

variable {w w' : Watcher} {x x' : Subscriber} {m : Move} {came : List Bool} {b : Bool} {i : Nat}

/-! ## One subscriber -/

/-- A subscriber before and after a move of its watcher. -/
structure Carried (w w' : Watcher) (x x' : Subscriber) : Prop where
  /-- a watcher that has ended sends nothing, and lets nobody go -/
  still : w.running = false → x'.registered = x.registered ∧ x'.sent = x.sent
  /-- a watcher that ends lets it go -/
  released : w.running = true → w'.running = false → x'.registered = false

/-- Nothing happens to a subscriber in a move that does not end its watcher and does not
send. -/
theorem Carried.of_running (h : w'.running = w.running) : Carried w w' x x := by
  refine ⟨fun _ => ⟨rfl, rfl⟩, fun hr hend => ?_⟩
  rw [h, hr] at hend
  cases hend

/-- As long as the watcher runs anything may be sent. -/
theorem Carried.of_going (h : w.running = true) (h' : w'.running = true) :
    Carried w w' x x' := by
  refine ⟨fun hend => ?_, fun _ hend => ?_⟩
  · rw [h] at hend
    cases hend
  · rw [h'] at hend
    cases hend

theorem finish_carried (hr : w.running = true) (x : Subscriber) :
    Carried w w.finish x x.release := by
  refine ⟨fun hend => ?_, fun _ _ => rfl⟩
  rw [hr] at hend
  cases hend

/-- **Every subscriber is still there after a move**, and is let go by the move that ends
its watcher. No later move does that, which is the point of it all: the list of those to be
let go is gone through once. -/
theorem perform_carried (m : Move) (hx : w.subscribers[i]? = some x) :
    ∃ x', (w.perform m).subscribers[i]? = some x' ∧ Carried w (w.perform m) x x' := by
  have hmap : ∀ {f : Subscriber → Subscriber}, (w.subscribers.map f)[i]? = some (f x) := by
    intro f
    rw [List.getElem?_map, hx]
    rfl
  cases m with
  | arrive items =>
    simp only [perform, arrive]
    split <;> exact ⟨x, hx, .of_running rfl⟩
  | closeStream | stop => exact ⟨x, hx, .of_running rfl⟩
  | batch n =>
    simp only [perform, takeBatch]
    split
    · next hguard =>
      obtain ⟨hr, -⟩ := Bool.and_eq_true_iff.mp hguard
      have hsent := congrArg (·[i]?) (consume_subscribers
        (w.withInbox (w.inbox.drop (w.batchSize n))) (w.inbox.take (w.batchSize n)))
      exact ⟨_, hsent.trans hmap, .of_going hr ((consume_running ..).trans hr)⟩
    · exact ⟨x, hx, .of_running rfl⟩
  | halt =>
    simp only [perform, halt]
    split
    · next hguard => exact ⟨_, hmap, finish_carried (Bool.and_eq_true_iff.mp hguard).1 x⟩
    · exact ⟨x, hx, .of_running rfl⟩
  | exhaust =>
    simp only [perform, exhaust]
    split
    · next hguard =>
      obtain ⟨hguard, -⟩ := Bool.and_eq_true_iff.mp hguard
      obtain ⟨hr, -⟩ := Bool.and_eq_true_iff.mp hguard
      obtain ⟨hstill, hreleased⟩ := finish_carried hr x
      exact ⟨_, hmap, hstill, hreleased⟩
    · exact ⟨x, hx, .of_running rfl⟩
  | subscribe name failsAt =>
    obtain ⟨hi, -⟩ := List.getElem?_eq_some_iff.mp hx
    refine ⟨x, ?_, .of_running rfl⟩
    show (w.subscribers ++ [_])[i]? = some x
    rwa [List.getElem?_append_left hi]
  | deliver pace =>
    refine ⟨x.deliver (pace i), ?_, ?_⟩
    · show (w.subscribers.mapIdx fun i x => x.deliver (pace i))[i]? = _
      rw [List.getElem?_mapIdx, hx]
      rfl
    · -- what is delivered is neither registered nor sent
      have hsame : Carried w (w.perform (.deliver pace)) x x := .of_running rfl
      exact ⟨hsame.still, hsame.released⟩

/-- After the end the store stays as it is. So what a late subscriber was told goes on to be
all that there is. -/
theorem perform_store_of_not_running (h : w.running = false) (m : Move) :
    (w.perform m).store = w.store := by
  cases m with
  | arrive items => simp [perform, arrive, h]
  | batch n => simp [perform, takeBatch, h]
  | halt => simp [perform, halt, h]
  | exhaust => simp [perform, exhaust, h]
  | closeStream | stop | subscribe | deliver => rfl

/-- After the end, nothing is sent to anyone and nobody is let go. -/
theorem run_still (h : w.running = false) (moves : List Move) (hx : w.subscribers[i]? = some x) :
    ∃ x', (w.run moves).subscribers[i]? = some x' ∧ x'.registered = x.registered ∧
      x'.sent = x.sent := by
  induction moves generalizing w x with
  | nil => exact ⟨x, hx, rfl, rfl⟩
  | cons m moves ih =>
    obtain ⟨x', hx', hcarried⟩ := perform_carried m hx
    obtain ⟨hregistered, hsent⟩ := hcarried.still h
    obtain ⟨x'', hx'', hregistered', hsent'⟩ := ih (perform_of_not_running h).1 hx'
    exact ⟨x'', hx'', hregistered'.trans hregistered, hsent'.trans hsent⟩

/-! ## All who have subscribed -/

/-- How someone stands with a watcher who has subscribed in time or late. -/
structure Standing (w : Watcher) (late : Bool) (x : Subscriber) : Prop where
  /-- whoever came in time is let go at the end -/
  early : late = false → w.running = false → x.registered = false
  /-- whoever came late has been told of all objects -/
  tardy : late = true → w.running = false ∧ x.registered = true ∧ x.sent = w.replay

/-- How someone stands does not change by a move, for whoever came in time is let go at the
end, and for whoever came late nothing happens any more. -/
theorem Standing.carried (h : Standing w b x) (hx : Carried w (w.perform m) x x') :
    Standing (w.perform m) b x' := by
  refine ⟨fun hb hend => ?_, fun hb => ?_⟩
  · rcases hr : w.running with _ | _
    · rw [(hx.still hr).1]
      exact h.early hb hr
    · exact hx.released hr hend
  · obtain ⟨hr, hregistered, hsent⟩ := h.tardy hb
    obtain ⟨hsame, hsame'⟩ := hx.still hr
    refine ⟨(perform_of_not_running hr).1, hsame.trans hregistered, ?_⟩
    rw [hsame', hsent, replay, replay, perform_store_of_not_running hr]

/-- Whoever subscribes is told of all objects, and comes late if the watcher has ended. -/
theorem Standing.starting (w : Watcher) (name : String) (failsAt : Option Nat) :
    Standing (w.subscribe name failsAt) (!w.running) (.starting name failsAt w.replay) := by
  refine ⟨fun hb hend => ?_, fun hb => ⟨(Bool.not_eq_true' _).mp hb, rfl, rfl⟩⟩
  have hr : w.running = false := hend
  rw [hr] at hb
  cases hb

/-- Those who have subscribed, in time or late, are the subscribers. -/
structure Attended (w : Watcher) (came : List Bool) : Prop where
  length : w.subscribers.length = came.length
  standing : ∀ (i : Nat) (x : Subscriber) (b : Bool), w.subscribers[i]? = some x →
    came[i]? = some b → Standing w b x

theorem tardy?_length (w : Watcher) (m : Move) : (w.tardy? m).toList.length = m.joins := by
  cases m <;> rfl

namespace Attended

/-- A move carries those who were there, and may bring one more. -/
theorem perform (h : Attended w came) (m : Move) :
    Attended (w.perform m) (came ++ (w.tardy? m).toList) := by
  refine ⟨?_, fun i x' b hx' hb => ?_⟩
  · rw [perform_subscribers_length, h.length, List.length_append, tardy?_length]
  · rcases Nat.lt_or_ge i came.length with hi | hi
    · -- someone who was there before
      obtain ⟨x, hx⟩ : ∃ x, w.subscribers[i]? = some x :=
        ⟨_, List.getElem?_eq_getElem (h.length.symm ▸ hi)⟩
      obtain ⟨x'', hx'', hcarried⟩ := perform_carried m hx
      obtain rfl := Option.some.inj (hx'.symm.trans hx'')
      rw [List.getElem?_append_left hi] at hb
      exact (h.standing i x b hx hb).carried hcarried
    · -- someone who has just come
      rw [List.getElem?_append_right hi] at hb
      cases m with
      | subscribe name failsAt =>
        change (w.subscribers ++ [_])[i]? = some x' at hx'
        rw [List.getElem?_append_right (h.length ▸ hi), h.length] at hx'
        have hzero : i - came.length = 0 := by
          have hlt := (List.getElem?_eq_some_iff.mp hb).1
          exact Nat.lt_one_iff.mp hlt
        rw [hzero] at hx' hb
        obtain rfl := Option.some.inj hx'
        obtain rfl := Option.some.inj hb
        exact .starting w name failsAt
      | _ => cases hb

/-- So they are the subscribers at the end of a run, in the order in which they came. -/
theorem run (h : Attended w came) (moves : List Move) :
    Attended (w.run moves) (came ++ w.late moves) := by
  induction moves generalizing w came with
  | nil =>
    rw [late, List.append_nil]
    exact h
  | cons m moves ih =>
    rw [late, ← List.append_assoc]
    exact ih (h.perform m)

/-- At the end, those are registered who have come late, and no others. -/
theorem registered_eq (h : Attended w came) (hend : w.running = false) :
    w.subscribers.map (·.registered) = came := by
  have hlen : (w.subscribers.map (·.registered)).length = came.length := by
    rw [List.length_map, h.length]
  refine List.ext_getElem hlen fun i hi hi' => ?_
  rw [List.length_map] at hi
  rw [List.getElem_map]
  have hstanding := h.standing i _ _ (List.getElem?_eq_getElem hi) (List.getElem?_eq_getElem hi')
  rcases hb : came[i] with _ | _
  · exact hstanding.early hb hend
  · exact (hstanding.tardy hb).2.1

end Attended

end

/-! ## The end -/

/-- In a run of a new watcher nobody has subscribed before it. -/
theorem attended_run (resource : Resource) (cap : Nat) (tied : Bool) (inbox : List Arrival)
    (moves : List Move) : Attended ((starting resource cap tied inbox).run moves)
      ((starting resource cap tied inbox).late moves) := by
  have hnobody : Attended (starting resource cap tied inbox) [] :=
    ⟨rfl, fun i x b hx _ => absurd hx (Option.some_ne_none x).symm⟩
  exact hnobody.run moves

/-- **The end of a watcher.** A watcher that has ended has let go of exactly those who had
subscribed before its end, and has sent the others the objects that were there. It counts
the others as subscribers. All of this is final: nothing more is sent, and nobody is let go.
Whoever does not fail receives all that was sent. -/
theorem run_farewell {resource : Resource} {cap : Nat} {tied : Bool} {inbox : List Arrival}
    {moves : List Move} (hend : ((starting resource cap tied inbox).run moves).running = false) :
    ((starting resource cap tied inbox).run moves).subscribers.map (·.registered) =
      (starting resource cap tied inbox).late moves ∧
    ((starting resource cap tied inbox).run moves).subscriberCount =
      ((starting resource cap tied inbox).late moves).count true ∧
    ∀ (i : Nat) (x : Subscriber),
      ((starting resource cap tied inbox).run moves).subscribers[i]? = some x →
      (x.registered = true → x.sent = ((starting resource cap tied inbox).run moves).replay) ∧
      (x.drain.alive = true → x.drain.received = x.sent) ∧
      ∀ more, ∃ x', ((starting resource cap tied inbox).run (moves ++ more)).subscribers[i]? =
        some x' ∧ x'.registered = x.registered ∧ x'.sent = x.sent := by
  have hattended := attended_run resource cap tied inbox moves
  have hregistered := hattended.registered_eq hend
  refine ⟨hregistered, ?_, fun i x hx => ⟨fun hreg => ?_, Subscriber.received_drain,
    fun more => ?_⟩⟩
  · rw [← hregistered, List.count, List.countP_map]
    exact List.countP_congr fun x _ => by simp
  · -- who is registered has come late
    have hb : ((starting resource cap tied inbox).late moves)[i]? = some true := by
      rw [← hregistered, List.getElem?_map, hx, ← hreg]
      rfl
    exact ((hattended.standing i x true hx hb).tardy rfl).2.2
  · rw [run_append]
    exact run_still hend more hx

/-- Someone subscribes, the watcher is stopped, and someone else subscribes. -/
def parting : List Move :=
  [.batch 1, .subscribe "early" none, .stop, .halt, .subscribe "late" none]

/-- The second of them. -/
def straggler : Subscriber :=
  .starting "late" none [.added (pod "a" "new")]

theorem run_farewell_parting :
    ((starting pods 1 true [.event (.relisted [pod "a" "new"])]).run parting).running = false ∧
    ((starting pods 1 true [.event (.relisted [pod "a" "new"])]).run parting).subscribers.map
      (·.registered) = [false, true] ∧
    ∀ more, ∃ x', ((starting pods 1 true [.event (.relisted [pod "a" "new"])]).run
      (parting ++ more)).subscribers[1]? = some x' ∧ x'.registered = true ∧
        x'.sent = [.added (pod "a" "new")] := by
  have hend : ((starting pods 1 true
      [.event (.relisted [pod "a" "new"])]).run parting).running = false := rfl
  obtain ⟨hregistered, -, hall⟩ := run_farewell hend
  obtain ⟨-, -, hfinal⟩ := hall 1 straggler rfl
  exact ⟨hend, hregistered, hfinal⟩

/-- The second one has received what it was sent and is not let go, and it is counted. Its
queue stays open although nothing can come any more. -/
theorem left_waiting :
    ((starting pods 1 true [.event (.relisted [pod "a" "new"])]).run parting).running = false ∧
    ((starting pods 1 true
      [.event (.relisted [pod "a" "new"])]).run parting).drain.subscribers[1]? =
        some straggler.drain ∧
    straggler.drain.received = straggler.sent ∧ straggler.drain.closed = false ∧
    ((starting pods 1 true [.event (.relisted [pod "a" "new"])]).run parting).subscriberCount = 1 :=
  ⟨rfl, rfl, rfl, rfl, rfl⟩

end Watcher

end KindCache
