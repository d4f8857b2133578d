import KindCache.Proofs.Store.Course
import KindCache.Proofs.Store.Mirror
import KindCache.Proofs.Watcher.Run

/-!
# What subscribers are told

A subscriber is told of every object that is there when it subscribes, and of
every change from then on. Two things follow for every run of a watcher,
whenever the subscriber came and however the items fell into batches:

* `run_course` — what it is told about one object is a legal course, if no
  list mentions a reference twice;
* `run_copy` — a copy of the store that is kept from nothing but these
  changes is the store.

Both are relations between what was told and the store. `Kept` says what a batch
has to do for such a relation (`receiveAll_course`, `receiveAll_tellAll`), and
`Fits.run` carries it through a run, for all subscribers at once.
-/

namespace KindCache

/-- An item is distinct unless it is a list that mentions a reference twice. -/
def Arrival.Distinct : Arrival → Prop
  | .event e => e.Distinct
  | .fault _ => True

namespace Subscriber

variable {x : Subscriber}

/-- A callback that fails at its change of a given number is alive until this change is
delivered. -/
theorem alive_iff : x.alive = true ↔ ∀ k, x.failsAt = some (k + 1) → x.delivered ≤ k := by
  simp only [alive]
  rcases x.failsAt with _ | _ | k <;> simp

/-- A queue is delivered up to its end, or up to the change on which the callback fails. -/
theorem reach_cases : x.reach = x.sent.length ∨ ∃ k, x.failsAt = some (k + 1) ∧
    x.reach = k + 1 := by
  simp only [reach]
  rcases x.failsAt with _ | _ | k
  · exact .inl rfl
  · exact .inl rfl
  · rcases Nat.le_total (k + 1) x.sent.length with h | h
    · exact .inr ⟨k, rfl, Nat.min_eq_left h⟩
    · exact .inl (Nat.min_eq_right h)

/-- A callback that has not failed on more has not failed on less. -/
theorem alive_of_deliver {n : Nat} (h : (x.deliver n).alive = true) : x.alive = true := by
  rw [alive_iff] at h ⊢
  intro k hk
  exact Nat.le_trans (Nat.le_max_left _ _) (h k hk)

/-- A callback that does not fail on its queue receives all of it. So what is shown of what
was sent carries over to what was received. -/
theorem received_drain (h : x.drain.alive = true) : x.drain.received = x.sent := by
  have hreach : x.reach ≤ x.drain.delivered := Nat.le_max_right _ _
  have hall : x.sent.length ≤ x.drain.delivered := by
    rcases reach_cases (x := x) with hlen | ⟨k, hk, hfail⟩
    · rwa [hlen] at hreach
    · have hle : x.drain.delivered ≤ k := alive_iff.mp h k hk
      omega
  exact List.take_of_length_le hall

end Subscriber

namespace Watcher

/-- All items that arrive by a move satisfy a condition. -/
def Move.Brings (p : Arrival → Prop) : Move → Prop
  | .arrive items => ∀ a ∈ items, p a
  | _ => True

theorem Move.brings_trivial (m : Move) : m.Brings fun _ => True := by
  cases m with
  | arrive items => exact fun _ _ => trivial
  | _ => trivial

/-! ## What a batch tells -/

theorem receive_keyed {w : Watcher} (hw : w.store.Keyed) (a : Arrival) :
    (w.receive a).1.store.Keyed := by
  cases a with
  | event e => exact hw.apply e
  | fault _ => exact hw

theorem receiveAll_keyed {w : Watcher} (hw : w.store.Keyed) (batch : List Arrival) :
    (w.receiveAll batch).1.store.Keyed := by
  induction batch generalizing w with
  | nil => exact hw
  | cons a batch ih =>
    rw [receiveAll_cons]
    exact ih (receive_keyed hw a)

/-- The changes of one item, told to a copy. A failure is no change. -/
theorem receive_tellAll {w : Watcher} (hw : w.store.Keyed) (a : Arrival) :
    w.store.tellAll (w.receive a).2 = (w.receive a).1.store := by
  cases a with
  | event e => exact Store.tellAll_apply hw e
  | fault _ => rfl

/-- The changes of a batch lead from the store before it to the store after it. -/
theorem receiveAll_tellAll {w : Watcher} (hw : w.store.Keyed) (batch : List Arrival) :
    w.store.tellAll (w.receiveAll batch).2 = (w.receiveAll batch).1.store := by
  induction batch generalizing w with
  | nil => rfl
  | cons a batch ih =>
    rw [receiveAll_cons, Store.tellAll_append, receive_tellAll hw a, ih (receive_keyed hw a)]

theorem receive_course {w : Watcher} (hw : w.store.Keyed) {a : Arrival} (ha : a.Distinct)
    (r : ObjectRef) :
    Course (w.store.find? r) ((w.receive a).2.filter (·.concerns r))
      ((w.receive a).1.store.find? r) := by
  cases a with
  | event e => exact Store.course_apply hw ha r
  | fault _ => exact .still

/-- What a batch tells about a reference is a legal course, put together from those of its
items. -/
theorem receiveAll_course {w : Watcher} (hw : w.store.Keyed) {batch : List Arrival}
    (hbatch : ∀ a ∈ batch, a.Distinct) (r : ObjectRef) :
    Course (w.store.find? r) ((w.receiveAll batch).2.filter (·.concerns r))
      ((w.receiveAll batch).1.store.find? r) := by
  induction batch generalizing w with
  | nil => exact .still
  | cons a batch ih =>
    have ha : a.Distinct := hbatch a List.mem_cons_self
    have hrest := ih (receive_keyed hw a) fun b hb => hbatch b (List.mem_cons_of_mem _ hb)
    rw [receiveAll_cons, List.filter_append]
    exact (receive_course hw ha r).append hrest

/-! ## Keeping track -/

/-- A relation between what was told and the store that survives everything that a
watcher does, if all items satisfy `p`. -/
structure Kept (p : Arrival → Prop) (good : List Change → Store → Prop) : Prop where
  /-- it holds of a store that is told as new -/
  replay : ∀ {s : Store}, s.Keyed → good (s.entries.map fun e => .added e.2) s
  /-- the changes of a batch lead from the store before it to the store after it -/
  batch : ∀ {w : Watcher} {batch : List Arrival} {told : List Change}, w.store.Keyed →
    (∀ a ∈ batch, p a) → good told w.store →
    good (told ++ (w.receiveAll batch).2) (w.receiveAll batch).1.store

/-- What a subscriber was sent is related to the store, while the watcher sends to
it and as long as its callback does not fail; afterwards it is related to what the
store was at some time. -/
structure Tracks (good : List Change → Store → Prop) (running : Bool) (s : Store)
    (x : Subscriber) : Prop where
  /-- a running watcher sends to all that have not failed -/
  registered : running = true → x.alive = true → x.registered = true
  /-- nothing is missing that is in the store -/
  now : x.registered = true ∨ x.alive = true → good x.sent s
  /-- nothing was sent out of order -/
  once : ∃ past, good x.sent past

namespace Tracks

variable {p : Arrival → Prop} {good : List Change → Store → Prop} {running : Bool} {s : Store}
  {x : Subscriber}

/-- A new subscriber is told of the whole store as new, whatever has happened before. -/
theorem starting (kept : Kept p good) (name : String) (failsAt : Option Nat) (hs : s.Keyed) :
    Tracks good running s (.starting name failsAt (s.entries.map fun e => .added e.2)) :=
  ⟨fun _ _ => rfl, fun _ => kept.replay hs, s, kept.replay hs⟩

/-- How much is delivered does not matter. -/
theorem deliver (hx : Tracks good running s x) (n : Nat) :
    Tracks good running s (x.deliver n) := by
  refine ⟨fun hr halive => ?_, fun h => ?_, hx.once⟩
  · exact hx.registered hr (Subscriber.alive_of_deliver halive)
  · exact hx.now (h.imp id Subscriber.alive_of_deliver)

/-- Whoever is let go keeps what it was sent, and the store does not change any more. -/
theorem release (hx : Tracks good true s x) : Tracks good false s x.release := by
  refine ⟨fun h => absurd h Bool.false_ne_true, ?_, hx.once⟩
  rintro (h | halive)
  · exact absurd h Bool.false_ne_true
  · exact hx.now (.inr halive)

/-- A batch is sent to all that are registered and have not failed. The relation for those
that have failed is with what the store was when they did. -/
theorem send (kept : Kept p good) {w : Watcher} (hw : w.store.Keyed) {batch : List Arrival}
    (hbatch : ∀ a ∈ batch, p a) (hx : Tracks good true w.store x) :
    Tracks good true (w.receiveAll batch).1.store (x.send (w.receiveAll batch).2) := by
  have hmore : x.registered = true ∨ x.alive = true →
      good (x.sent ++ (w.receiveAll batch).2) (w.receiveAll batch).1.store :=
    fun h => kept.batch hw hbatch (hx.now h)
  -- the registration decides, and whether there is anything to tell
  simp only [Subscriber.send]
  split
  · next hidle =>
    refine ⟨hx.registered, fun h => ?_, hx.once⟩
    -- a registered subscriber is left alone only if there is nothing to tell
    have hreg : x.registered = true := h.elim id (hx.registered rfl)
    have hnone : (w.receiveAll batch).2 = [] := by
      simpa [hreg] using hidle
    have hsame := hmore h
    rwa [hnone, List.append_nil] at hsame
  · next hsend =>
    have hreg : x.registered = true := by
      simp only [Bool.or_eq_true, Bool.not_eq_true', not_or] at hsend
      simpa using hsend.2
    split
    · have hall := hmore (.inl hreg)
      exact ⟨fun _ _ => hreg, fun _ => hall, _, hall⟩
    · next hdead =>
      -- a callback that has failed stays so
      refine ⟨fun _ halive => absurd halive hdead, ?_, hx.once⟩
      rintro (h | halive)
      · exact absurd h Bool.false_ne_true
      · exact absurd halive hdead

end Tracks

/-! ## Runs -/

/-- The invariant of a run: documents under their references, and subscribers that
keep track. -/
structure Fits (p : Arrival → Prop) (good : List Change → Store → Prop) (w : Watcher) :
    Prop where
  /-- what has arrived satisfies the condition -/
  inbox : ∀ a ∈ w.inbox, p a
  /-- documents are kept under their references -/
  keyed : w.store.Keyed
  /-- all subscribers keep track -/
  subscribers : ∀ x ∈ w.subscribers, Tracks good w.running w.store x

namespace Fits

variable {p : Arrival → Prop} {good : List Change → Store → Prop} {w : Watcher}

theorem starting {resource : Resource} {cap : Nat} {tied : Bool} {inbox : List Arrival}
    (h : ∀ a ∈ inbox, p a) : Fits p good (.starting resource cap tied inbox) :=
  ⟨h, Store.keyed_empty, fun _ hx => absurd hx List.not_mem_nil⟩

/-- The end of a watcher lets its subscribers go, each with what it has. -/
theorem finish (hw : Fits p good w) (hr : w.running = true) : Fits p good w.finish := by
  refine ⟨fun a ha => absurd ha List.not_mem_nil, hw.keyed, fun x hx => ?_⟩
  obtain ⟨y, hy, rfl⟩ := List.mem_map.mp hx
  have htracks := hw.subscribers y hy
  rw [hr] at htracks
  exact htracks.release

/-- A batch is published: the store and what was told change together. -/
theorem consume (kept : Kept p good) (hw : Fits p good w) (hr : w.running = true)
    {batch : List Arrival} (hbatch : ∀ a ∈ batch, p a) : Fits p good (w.consume batch) := by
  refine ⟨?_, ?_, fun x hx => ?_⟩
  · rw [consume_inbox]
    exact hw.inbox
  · rw [consume_store]
    exact receiveAll_keyed hw.keyed batch
  · rw [consume_subscribers] at hx
    obtain ⟨y, hy, rfl⟩ := List.mem_map.mp hx
    have htracks := hw.subscribers y hy
    rw [hr] at htracks
    rw [consume_running, hr, consume_store]
    exact htracks.send kept hw.keyed hbatch

theorem takeBatch (kept : Kept p good) (hw : Fits p good w) (n : Nat) :
    Fits p good (w.takeBatch n) := by
  simp only [Watcher.takeBatch]
  split
  · next hguard =>
    obtain ⟨hr, -⟩ := Bool.and_eq_true_iff.mp hguard
    have hrest : Fits p good (w.withInbox (w.inbox.drop (w.batchSize n))) :=
      ⟨fun a ha => hw.inbox a (List.mem_of_mem_drop ha), hw.keyed, hw.subscribers⟩
    exact hrest.consume kept hr fun a ha => hw.inbox a (List.mem_of_mem_take ha)
  · exact hw

/-- A move preserves the invariant. A subscription adds one who is told of the store, and
all other moves but batches change nothing of what was told. -/
theorem perform (kept : Kept p good) (hw : Fits p good w) {m : Move} (hm : m.Brings p) :
    Fits p good (w.perform m) := by
  cases m with
  | arrive items =>
    simp only [Watcher.perform, Watcher.arrive]
    split
    · refine ⟨fun a ha => ?_, hw.keyed, hw.subscribers⟩
      rcases List.mem_append.mp ha with ha | ha
      · exact hw.inbox a ha
      · exact hm a ha
    · exact hw
  | closeStream => exact ⟨hw.inbox, hw.keyed, hw.subscribers⟩
  | stop => exact ⟨hw.inbox, hw.keyed, hw.subscribers⟩
  | batch n => exact hw.takeBatch kept n
  | halt =>
    simp only [Watcher.perform, Watcher.halt]
    split
    · next hguard =>
      obtain ⟨hr, -⟩ := Bool.and_eq_true_iff.mp hguard
      exact hw.finish hr
    · exact hw
  | exhaust =>
    simp only [Watcher.perform, Watcher.exhaust]
    split
    · next hguard =>
      obtain ⟨hguard, -⟩ := Bool.and_eq_true_iff.mp hguard
      obtain ⟨hr, -⟩ := Bool.and_eq_true_iff.mp hguard
      have hsame : Fits p good { w with degraded := some streamEnded } :=
        ⟨hw.inbox, hw.keyed, hw.subscribers⟩
      exact hsame.finish hr
    · exact hw
  | subscribe name failsAt =>
    refine ⟨hw.inbox, hw.keyed, fun x hx => ?_⟩
    rcases List.mem_append.mp hx with hx | hx
    · exact hw.subscribers x hx
    · obtain rfl := List.mem_singleton.mp hx
      exact .starting kept name failsAt hw.keyed
  | deliver pace =>
    refine ⟨hw.inbox, hw.keyed, fun x hx => ?_⟩
    obtain ⟨i, hi, rfl⟩ := List.mem_mapIdx.mp hx
    exact (hw.subscribers _ (List.getElem_mem hi)).deliver (pace i)

/-- **A run preserves it**, for whatever relation is `Kept`. -/
theorem run (kept : Kept p good) (hw : Fits p good w) {moves : List Move}
    (hmoves : ∀ m ∈ moves, m.Brings p) : Fits p good (w.run moves) :=
  run_induction (fun _ m hm hw => hw.perform kept (hmoves m hm)) hw

/-- Once its queue is delivered without failure, what a subscriber has received is related
to the store. -/
theorem received (hw : Fits p good w) {x : Subscriber} (hx : x ∈ w.subscribers)
    (halive : x.drain.alive = true) : good x.drain.received w.store := by
  rw [Subscriber.received_drain halive]
  refine (hw.subscribers x hx).now (.inr ?_)
  rw [drain_eq_deliver] at halive
  exact Subscriber.alive_of_deliver halive

end Fits

/-! ## Courses -/

/-- What was told about each object is a legal course that leads to its document. -/
def Lawful (told : List Change) (s : Store) : Prop :=
  ∀ r, Course none (told.filter (·.concerns r)) (s.find? r)

/-- Courses are kept: a store that is told as new is one, and a batch goes on with it. -/
theorem kept_lawful : Kept Arrival.Distinct Lawful := by
  refine ⟨fun hs r => Store.course_replay hs r, fun hw hbatch htold r => ?_⟩
  rw [List.filter_append]
  exact (htold r).append (receiveAll_course hw hbatch r)

/-- In every run whose lists mention no reference twice, what a subscriber has received
about one object is a legal course: the object appears, each update replaces the document
told last, and the object disappears only after it was there. The subscriber may come at any
point and be served at any pace. Once its queue is delivered without failure, the course
leads to what the store holds. -/
theorem run_course {resource : Resource} {cap : Nat} {tied : Bool} {inbox : List Arrival}
    {moves : List Move} (hinbox : ∀ a ∈ inbox, a.Distinct)
    (hmoves : ∀ m ∈ moves, m.Brings Arrival.Distinct) {x : Subscriber}
    (hx : x ∈ ((Watcher.starting resource cap tied inbox).run moves).subscribers)
    (r : ObjectRef) :
    (∃ last, Course none (x.received.filter (·.concerns r)) last) ∧
      (x.drain.alive = true → Course none (x.drain.received.filter (·.concerns r))
        (((starting resource cap tied inbox).run moves).store.find? r)) := by
  have hfits : Fits Arrival.Distinct Lawful ((starting resource cap tied inbox).run moves) :=
    (Fits.starting hinbox).run kept_lawful hmoves
  refine ⟨?_, fun halive => hfits.received hx halive r⟩
  obtain ⟨past, hpast⟩ := (hfits.subscribers x hx).once
  -- what is received is the first part of what was sent
  have hcourse := hpast r
  rw [← List.take_append_drop x.delivered x.sent, List.filter_append] at hcourse
  exact hcourse.cut

/-- A pod in some phase, and the kind of pods. -/
def pod (name phase : String) : Document :=
  .object [("metadata", .object [("name", .text name)]), ("phase", .text phase)]

/-- The resource of pods. -/
def pods : Resource :=
  ⟨⟨"", "v1", "Pod"⟩, "pods", true⟩

/-- A pod is listed, someone subscribes, and the pod is replaced and deleted in one
batch. Two of the three changes have been delivered. -/
def turnover : List Move :=
  [.batch 1, .subscribe "log" none,
    .arrive [.event (.applied (pod "a" "running")), .event (.deleted (pod "a" "done"))],
    .batch 2, .deliver fun _ => 2]

/-- The subscriber at the end of it. -/
def follower : Subscriber :=
  { name := "log", failsAt := none, delivered := 2, registered := true
    sent := [.added (pod "a" "new"), .updated (pod "a" "new") (pod "a" "running"),
      .deleted (pod "a" "done")] }

theorem run_course_turnover :
    follower.received = [.added (pod "a" "new"), .updated (pod "a" "new") (pod "a" "running")] ∧
      (∃ last, Course none (follower.received.filter (·.concerns ⟨none, "a"⟩)) last) ∧
      Course none (follower.drain.received.filter (·.concerns ⟨none, "a"⟩)) none := by
  have hinbox : ∀ a ∈ [Arrival.event (.relisted [pod "a" "new"])], a.Distinct := by
    intro a ha
    obtain rfl := List.mem_singleton.mp ha
    exact List.nodup_cons.mpr ⟨List.not_mem_nil, List.nodup_nil⟩
  have hmoves : ∀ m ∈ turnover, m.Brings Arrival.Distinct := by
    simp [turnover, Move.Brings, Arrival.Distinct, WatchEvent.Distinct]
  have hx : follower ∈ ((Watcher.starting pods 2 true
      [.event (.relisted [pod "a" "new"])]).run turnover).subscribers :=
    List.mem_singleton.mpr rfl
  obtain ⟨hcut, hwhole⟩ := run_course hinbox hmoves hx ⟨none, "a"⟩
  exact ⟨rfl, hcut, hwhole rfl⟩

/-! ## Copies -/

/-- An empty copy, kept from what was told, is the store. -/
def Faithful (told : List Change) (s : Store) : Prop :=
  Store.empty.tellAll told = s

/-- Copies are kept, without any condition on lists. -/
theorem kept_faithful : Kept (fun _ => True) Faithful := by
  refine ⟨fun hs => Store.tellAll_replay hs, fun {w batch told} hw _ htold => ?_⟩
  show Store.empty.tellAll (told ++ (w.receiveAll batch).2) = (w.receiveAll batch).1.store
  rw [Store.tellAll_append, htold, receiveAll_tellAll hw]

/-- As long as its callback does not fail, what a subscriber is sent makes an empty copy the
store, in every run; so does what the callback has received once the queue is delivered.
Lists may mention a reference several times. -/
theorem run_copy {resource : Resource} {cap : Nat} {tied : Bool} {inbox : List Arrival}
    {moves : List Move} {x : Subscriber}
    (hx : x ∈ ((Watcher.starting resource cap tied inbox).run moves).subscribers)
    (halive : x.alive = true) :
    Store.empty.tellAll x.sent = ((starting resource cap tied inbox).run moves).store ∧
      (x.drain.alive = true → Store.empty.tellAll x.drain.received =
        ((starting resource cap tied inbox).run moves).store) := by
  have hfits : Fits (fun _ => True) Faithful ((starting resource cap tied inbox).run moves) :=
    (Fits.starting fun _ _ => trivial).run kept_faithful fun m _ => m.brings_trivial
  exact ⟨(hfits.subscribers x hx).now (.inr halive), hfits.received hx⟩

/-- The first list mentions a pod twice, the second one has lost it and brings
another one. -/
def relists : List Move :=
  [.subscribe "log" none, .batch 1, .arrive [.event (.relisted [pod "b" "new"])], .batch 1,
    .deliver fun _ => 1]

/-- The subscriber of both lists. -/
def copier : Subscriber :=
  { name := "log", failsAt := none, delivered := 1, registered := true
    sent := [.added (pod "a" "new"), .added (pod "a" "running"), .added (pod "b" "new"),
      .deleted (pod "a" "running")] }

theorem run_copy_relists :
    (((Watcher.starting pods 1 true
        [.event (.relisted [pod "a" "new", pod "a" "running"])]).run relists).store.entries =
      [(⟨none, "b"⟩, pod "b" "new")]) ∧
      Store.empty.tellAll copier.sent = ((Watcher.starting pods 1 true
        [.event (.relisted [pod "a" "new", pod "a" "running"])]).run relists).store ∧
      Store.empty.tellAll copier.drain.received = ((Watcher.starting pods 1 true
        [.event (.relisted [pod "a" "new", pod "a" "running"])]).run relists).store := by
  have hx : copier ∈ ((Watcher.starting pods 1 true
      [.event (.relisted [pod "a" "new", pod "a" "running"])]).run relists).subscribers :=
    List.mem_singleton.mpr rfl
  obtain ⟨hsent, hwhole⟩ := run_copy hx rfl
  exact ⟨rfl, hsent, hwhole rfl⟩

end Watcher

end KindCache
