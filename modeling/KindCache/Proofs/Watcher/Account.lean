import KindCache.Proofs.Watcher.History

/-!
# What a run makes of its items

Apart from the number of publications, what readers see of a watcher depends on the
items that it has consumed, and on nothing else: not on when they came, and not on the
batches in which they were taken in.

* `Store.changesOf` — the changes that events make, one after the other;
* `degradedBy` — the state of recovery after some items;
* `Turn` — what a move can do to what readers see: nothing, a batch, or the end of the
  stream (`perform_turn`);
* `run_events`, `run_synced`, `run_degraded`, `run_running` — what a run has made of the
  items that it has consumed; `run_store` says it of the store.
-/

namespace KindCache

/-! ## Changes -/

namespace Store

/-- The changes that events make, in order. -/
def changesOf (s : Store) : List WatchEvent → List Change
  | [] => []
  | e :: es => (s.apply e).2 ++ (s.apply e).1.changesOf es

/-- Changes are told one event after the other, each on the store that the one before has
left. -/
theorem changesOf_append (s : Store) (es more : List WatchEvent) :
    s.changesOf (es ++ more) = s.changesOf es ++ (s.applyAll es).changesOf more := by
  induction es generalizing s with
  | nil => rfl
  | cons e es ih =>
    show (s.apply e).2 ++ (s.apply e).1.changesOf (es ++ more) = _
    rw [ih, ← List.append_assoc]
    rfl

end Store

/-- The text of a failure. -/
def Arrival.reason? : Arrival → Option String
  | .event _ => none
  | .fault reason => some reason

namespace Watcher

/-! ## One batch -/

/-- The failure since which no event has come, when further items have come. -/
def degradedBy (before : Option String) (items : List Arrival) : Option String :=
  (items.getLast?.map Arrival.reason?).getD before

@[simp] theorem degradedBy_nil (before : Option String) : degradedBy before [] = before :=
  rfl

/-- Only the last item matters, so it does not matter either in how many parts the items
come. -/
theorem degradedBy_append (before : Option String) (items more : List Arrival) :
    degradedBy before (items ++ more) = degradedBy (degradedBy before items) more := by
  rw [degradedBy, degradedBy, degradedBy, List.getLast?_append]
  rcases more.getLast? with _ | a <;> rfl

theorem degradedBy_cons (before : Option String) (a : Arrival) (items : List Arrival) :
    degradedBy before (a :: items) = degradedBy a.reason? items :=
  degradedBy_append before [a] items

section Batch

variable (w : Watcher) (batch : List Arrival)

/-- The changes of a batch are those of its events, as if these had come one by one. This is
why batches do not show in what subscribers are told. -/
theorem receiveAll_changes :
    (w.receiveAll batch).2 = w.store.changesOf (batch.filterMap Arrival.event?) := by
  induction batch generalizing w with
  | nil => rfl
  | cons a batch ih =>
    rw [receiveAll_cons, ih]
    cases a with
    | event e => rfl
    | fault reason => rfl

theorem receiveAll_events : (w.receiveAll batch).1.events =
    w.events + (batch.filterMap Arrival.event?).length := by
  induction batch generalizing w with
  | nil => rfl
  | cons a batch ih =>
    rw [receiveAll_cons, ih]
    cases a with
    | event e =>
      show w.events + 1 + _ = w.events + (_ + 1)
      omega
    | fault reason => rfl

theorem receiveAll_degraded :
    (w.receiveAll batch).1.degraded = degradedBy w.degraded batch := by
  induction batch generalizing w with
  | nil => rfl
  | cons a batch ih =>
    rw [receiveAll_cons, ih, degradedBy_cons]
    cases a with
    | event e => rfl
    | fault reason => rfl

theorem receiveAll_epoch : (w.receiveAll batch).1.epoch = w.epoch :=
  receiveAll_frame epoch (fun _ a => by cases a <;> rfl) w batch

/-- A batch is one publication, up to the greatest number that there is. -/
theorem consume_epoch : (w.consume batch).epoch = min (w.epoch + 1) lastEpoch := by
  show min ((w.receiveAll batch).1.epoch + 1) lastEpoch = _
  rw [receiveAll_epoch]

theorem consume_events :
    (w.consume batch).events = w.events + (batch.filterMap Arrival.event?).length :=
  receiveAll_events w batch

theorem consume_degraded : (w.consume batch).degraded = degradedBy w.degraded batch :=
  receiveAll_degraded w batch

end Batch

/-! ## One move -/

/-- Whether a move finds that the stream has ended. -/
def seesEnd (w : Watcher) : Move → Bool
  | .exhaust => w.running && !w.streamOpen && w.inbox.isEmpty
  | _ => false

/-- Nothing has changed that readers see. The inbox and the subscribers may have changed. -/
structure Unread (w w' : Watcher) : Prop where
  store : w'.store = w.store
  epoch : w'.epoch = w.epoch
  events : w'.events = w.events
  degraded : w'.degraded = w.degraded
  synced : w'.synced = w.synced

/-- What a move can do to what readers see. -/
inductive Turn (w : Watcher) (m : Move) : Prop where
  /-- nothing -/
  | quiet (htakes : w.takes m = []) (hend : w.seesEnd m = false)
    (hunread : Unread w (w.perform m))
  /-- a batch is taken in -/
  | batch (hrun : w.running = true) (hend : w.seesEnd m = false) (hpos : 1 ≤ (w.takes m).length)
    (hcap : (w.takes m).length ≤ max w.batchCap 1)
    (hperform : ∃ rest, w.perform m = (w.consume (w.takes m)).withInbox rest)
  /-- the stream has ended, and everything was taken in before -/
  | ended (hrun : w.running = true) (hend : w.seesEnd m = true) (htakes : w.takes m = [])
    (hperform : w.perform m = { w with degraded := some streamEnded }.finish)

/-- **A move does one of the listed things.** What is said below about the account of a run
is about these three cases, and about none of the eight moves. -/
theorem perform_turn (w : Watcher) (m : Move) : Turn w m := by
  cases m with
  | arrive items =>
    refine .quiet rfl rfl ?_
    simp only [perform, arrive]
    split <;> exact ⟨rfl, rfl, rfl, rfl, rfl⟩
  | batch n =>
    by_cases hguard : (w.running && !w.inbox.isEmpty) = true
    · obtain ⟨hrun, hsome⟩ := Bool.and_eq_true_iff.mp hguard
      have hpos : 0 < w.inbox.length := by
        refine List.length_pos_iff.mpr ?_
        rintro hnone
        simp [hnone] at hsome
      have htakes : w.takes (.batch n) = w.inbox.take (w.batchSize n) := if_pos hguard
      refine .batch hrun rfl ?_ ?_ ⟨w.inbox.drop (w.batchSize n), ?_⟩
      · rw [htakes, List.length_take, batchSize]
        omega
      · rw [htakes, List.length_take, batchSize]
        omega
      · rw [perform, takeBatch, if_pos hguard, htakes, consume_withInbox]
    · have hidle : w.perform (.batch n) = w := if_neg hguard
      refine .quiet (if_neg hguard) rfl ?_
      rw [hidle]
      exact ⟨rfl, rfl, rfl, rfl, rfl⟩
  | halt =>
    refine .quiet rfl rfl ?_
    simp only [perform, halt]
    split <;> exact ⟨rfl, rfl, rfl, rfl, rfl⟩
  | exhaust =>
    by_cases hguard : w.seesEnd .exhaust = true
    · have hrun : w.running = true :=
        (Bool.and_eq_true_iff.mp (Bool.and_eq_true_iff.mp hguard).1).1
      exact .ended hrun hguard rfl (if_pos hguard)
    · have hidle : w.perform .exhaust = w := if_neg hguard
      refine .quiet rfl (Bool.not_eq_true _ ▸ hguard) ?_
      rw [hidle]
      exact ⟨rfl, rfl, rfl, rfl, rfl⟩
  | closeStream => exact .quiet rfl rfl ⟨rfl, rfl, rfl, rfl, rfl⟩
  | stop => exact .quiet rfl rfl ⟨rfl, rfl, rfl, rfl, rfl⟩
  | subscribe name failsAt => exact .quiet rfl rfl ⟨rfl, rfl, rfl, rfl, rfl⟩
  | deliver pace => exact .quiet rfl rfl ⟨rfl, rfl, rfl, rfl, rfl⟩

/-- A watcher that finds that its stream has ended takes nothing in and ends, because it
does not look at the end before its inbox is empty. -/
theorem perform_of_seesEnd {w : Watcher} {m : Move} (h : w.seesEnd m = true) :
    w.takes m = [] ∧ w.perform m = { w with degraded := some streamEnded }.finish := by
  cases perform_turn w m with
  | quiet htakes hno => rw [hno] at h; cases h
  | batch hrun hno => rw [hno] at h; cases h
  | ended hrun hyes htakes hperform => exact ⟨htakes, hperform⟩

section Move

variable (w : Watcher) (m : Move)

/-- Failures are taken in like events, but only events are counted. -/
theorem perform_events :
    (w.perform m).events = w.events + ((w.takes m).filterMap Arrival.event?).length := by
  cases perform_turn w m with
  | quiet htakes hend hunread => rw [htakes, hunread.events]; rfl
  | batch hrun hend hpos hcap hperform =>
    obtain ⟨rest, hperform⟩ := hperform
    rw [hperform]
    exact consume_events w _
  | ended hrun hend htakes hperform => rw [htakes, hperform]; rfl

/-- One list in a batch is enough, at whatever place. -/
theorem perform_synced :
    (w.perform m).synced = (w.synced || (w.takes m).any Arrival.isRelist) := by
  cases perform_turn w m with
  | quiet htakes hend hunread => rw [htakes, hunread.synced, List.any_nil, Bool.or_false]
  | batch hrun hend hpos hcap hperform =>
    obtain ⟨rest, hperform⟩ := hperform
    rw [hperform]
    exact consume_synced w _
  | ended hrun hend htakes hperform =>
    rw [htakes, hperform, List.any_nil, Bool.or_false]
    rfl

/-- The end of the stream has a text of its own, which nothing comes after. -/
theorem perform_degraded : (w.perform m).degraded =
    if w.seesEnd m = true then some streamEnded else degradedBy w.degraded (w.takes m) := by
  cases perform_turn w m with
  | quiet htakes hend hunread => simp [hend, htakes, hunread.degraded]
  | batch hrun hend hpos hcap hperform =>
    obtain ⟨rest, hperform⟩ := hperform
    rw [hperform, if_neg (by simp [hend])]
    exact consume_degraded w _
  | ended hrun hend htakes hperform =>
    rw [hperform, if_pos hend]
    rfl

end Move

/-! ## After the end -/

section After

variable {w : Watcher} {m : Move}

/-- A watcher that has ended does not start again, and nothing arrives any more. -/
theorem perform_of_not_running (hw : w.running = false) :
    (w.perform m).running = false ∧ (w.perform m).inbox = w.inbox := by
  have hrunning : (w.perform m).running = false := by
    by_contra hr
    have hbefore := (perform_later w m).running (Bool.not_eq_false _ ▸ hr)
    rw [hw] at hbefore
    cases hbefore
  refine ⟨hrunning, ?_⟩
  cases m with
  | arrive items => simp [perform, arrive, hw]
  | batch n => simp [perform, takeBatch, hw]
  | halt => simp [perform, halt, hw]
  | exhaust => simp [perform, exhaust, hw]
  | closeStream | stop | subscribe | deliver => rfl

theorem run_of_not_running (hw : w.running = false) (moves : List Move) :
    (w.run moves).running = false ∧ (w.run moves).inbox = w.inbox := by
  refine run_induction (motive := fun w' => w'.running = false ∧ w'.inbox = w.inbox) ?_
    ⟨hw, rfl⟩
  rintro w' m - ⟨hrunning, hinbox⟩
  obtain ⟨hrunning', hinbox'⟩ := perform_of_not_running (m := m) hrunning
  exact ⟨hrunning', hinbox'.trans hinbox⟩

end After

/-! ## Runs -/

/-- Whether a run has found that the stream has ended. -/
def sawEnd (w : Watcher) : List Move → Bool
  | [] => false
  | m :: moves => w.seesEnd m || (w.perform m).sawEnd moves

section Run

variable (w : Watcher) (moves : List Move)

theorem run_events : (w.run moves).events = w.events + (w.history moves).length := by
  induction moves generalizing w with
  | nil => rfl
  | cons m moves ih =>
    rw [run_cons, ih, perform_events, history_cons, List.length_append, Nat.add_assoc]

/-- A watcher is in sync exactly if it has consumed a list. -/
theorem run_synced :
    (w.run moves).synced = (w.synced || (w.consumed moves).any Arrival.isRelist) := by
  induction moves generalizing w with
  | nil => exact (Bool.or_false _).symm
  | cons m moves ih =>
    rw [run_cons, ih, perform_synced, consumed, List.any_append, Bool.or_assoc]

variable {w}

/-- A watcher that has ended does not find that its stream has. So the end is found once, if
at all. -/
theorem sawEnd_of_not_running (h : w.running = false) : w.sawEnd moves = false := by
  induction moves generalizing w with
  | nil => rfl
  | cons m moves ih =>
    have hend : w.seesEnd m = false := by
      cases m with
      | exhaust => simp [seesEnd, h]
      | _ => rfl
    rw [sawEnd, hend, ih (perform_of_not_running h).1]
    rfl

/-- The state of recovery tells of the last item, or of the end of the stream. -/
theorem run_degraded (w : Watcher) (moves : List Move) : (w.run moves).degraded =
    if w.sawEnd moves = true then some streamEnded
    else degradedBy w.degraded (w.consumed moves) := by
  induction moves generalizing w with
  | nil => rfl
  | cons m moves ih =>
    have hstep := perform_degraded w m
    rw [run_cons, ih, sawEnd, consumed]
    rcases hend : w.seesEnd m with _ | _
    · rw [if_neg (by simp [hend])] at hstep
      rw [hstep, Bool.false_or, degradedBy_append]
    · -- after the end of the stream nothing is consumed
      rw [if_pos hend] at hstep
      have hended : (w.perform m).running = false := by
        rw [(perform_of_seesEnd hend).2]
        rfl
      rw [sawEnd_of_not_running moves hended, consumed_of_not_running hended, hstep]
      rfl

end Run

/-! ## The end of a watcher -/

section End

variable {w : Watcher} {m : Move} {moves : List Move}

/-- A watcher ends if it finds that it was asked to stop or that its stream has ended, and
then has nothing left of its inbox: a stop throws it away, and the end is found only when it
is empty. -/
theorem spent_of_perform (hw : w.running = true) (h : (w.perform m).running = false) :
    (w.stopRequested = true ∨ w.seesEnd m = true) ∧ (w.perform m).inbox = [] := by
  cases m with
  | halt =>
    by_cases hguard : (w.running && w.stopRequested) = true
    · have hperform : w.perform .halt = w.finish := if_pos hguard
      rw [hperform]
      exact ⟨.inl (Bool.and_eq_true_iff.mp hguard).2, rfl⟩
    · have hidle : w.perform .halt = w := if_neg hguard
      rw [hidle, hw] at h
      cases h
  | exhaust =>
    by_cases hguard : w.seesEnd .exhaust = true
    · have hperform : w.perform .exhaust = { w with degraded := some streamEnded }.finish :=
        if_pos hguard
      rw [hperform]
      exact ⟨.inr hguard, rfl⟩
    · have hidle : w.perform .exhaust = w := if_neg hguard
      rw [hidle, hw] at h
      cases h
  | arrive items =>
    simp only [perform, arrive] at h
    split at h <;> simp [hw] at h
  | batch n =>
    simp only [perform, takeBatch] at h
    split at h
    · rw [consume_running] at h
      simp [withInbox, hw] at h
    · rw [hw] at h
      cases h
  | closeStream | stop | subscribe | deliver =>
    change w.running = false at h
    rw [hw] at h
    cases h

/-- A watcher that was not asked to stop runs until it finds that its stream has ended, and
has then consumed all that has arrived. -/
theorem run_unstopped (hw : w.running = true) (h : (w.run moves).stopRequested = false) :
    (w.run moves).running = !w.sawEnd moves ∧
      ((w.run moves).running = false → (w.run moves).inbox = []) := by
  induction moves generalizing w with
  | nil =>
    refine ⟨hw, fun hended => ?_⟩
    change w.running = false at hended
    rw [hw] at hended
    cases hended
  | cons m moves ih =>
    rw [run_cons, sawEnd]
    rcases hr : (w.perform m).running with _ | _
    · obtain ⟨hcause, hinbox⟩ := spent_of_perform hw hr
      have hend : w.seesEnd m = true := by
        refine hcause.resolve_left fun hstop => ?_
        rw [run_stopRequested hstop] at h
        cases h
      obtain ⟨hrunning, hkept⟩ := run_of_not_running hr moves
      rw [hend, hrunning, hkept]
      exact ⟨rfl, fun _ => hinbox⟩
    · have hend : w.seesEnd m = false := by
        by_contra hyes
        rw [(perform_of_seesEnd (Bool.not_eq_false _ ▸ hyes)).2] at hr
        cases hr
      rw [hend]
      exact ih hr h

/-- **So everything that has arrived before the end of the stream is consumed**, in
order. -/
theorem consumed_of_ended (hw : w.running = true) (hended : (w.run moves).running = false)
    (h : (w.run moves).stopRequested = false) :
    w.consumed moves = w.inbox ++ w.admitted moves := by
  rw [consumed_inbox h, (run_unstopped hw h).2 hended, List.append_nil]

end End

end Watcher

end KindCache
