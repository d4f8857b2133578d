import KindCache.Proofs.Cache.Streams
import KindCache.Proofs.Watcher.Subscribers

/-!
# When an answered watcher is in sync

A search answers with a watcher that has got its first relist, with one
exception: a kind whose watcher has stopped still counts as started. When its
stream is opened anew, the new watcher is on the table before it has got its
relist, and whoever asks for the kind in between is answered at once.

* `Leads.answer` — an answer is in sync, or taken from what is known of a kind
  that was started before;
* `Reopened` — the exception;
* `unsynced_answer_iff` — an answer is not in sync exactly in this case, and so is
  a list read from a store that has seen no relist;
* `reopening_answers` — the case occurs.
-/

namespace KindCache

namespace Cache

/-- A watcher has got its first relist. -/
def InSync (s : Cache) (w : WatcherId) : Prop :=
  ∃ watcher, s.watchers[w]? = some watcher ∧ watcher.synced = true

/-- A call asks which watcher a kind has: when it is new, and when it has got its
turn. -/
def Looks (s : Cache) (c : CallId) (g : GroupVersionKind) : Prop :=
  (∃ use q, s.call c = .fresh (.use use q) ∧ q.gvk = g) ∨
    ∃ t, s.call c = .queued t ∧ s.hasTurn c t.slot = true ∧ t.query.gvk = g

/-- A stream that was opened anew for a kind: an earlier watcher of the stream name
was in sync and has stopped, and the latest one runs and has no relist yet. -/
structure Reopened (s : Cache) (g : GroupVersionKind) (w : WatcherId) : Prop where
  /-- the kind counts as started, on the stream of the latest watcher -/
  stream : ∃ name, s.seen.lookup g = some name ∧ s.streams.lookup name = some w ∧
    ∃ (v : WatcherId) (former : Watcher), v < w ∧ s.watchers[v]? = some former ∧
      former.resource.streamName = name ∧ former.synced = true ∧ former.running = false
  /-- the latest watcher has only begun -/
  latest : ∃ watcher, s.watchers[w]? = some watcher ∧ watcher.running = true ∧
    watcher.synced = false

section

variable {s s' : Cache} {c : CallId} {g : GroupVersionKind} {w : WatcherId}

/-! ## Answers -/

/-- **What a search answers is known from before, or in sync.** A call that has opened a
stream, or has waited for one, is answered at the relist. Only the two looks at what is
known do not ask for it. -/
theorem Leads.answer {leg : Leg} (h : Leads s c leg) (hw : leg.2 = some (.ok w)) :
    (∃ g, s.Looks c g ∧ s.seenWatcher? g = some w ∧ leg.1.watchers = s.watchers) ∨
      leg.1.InSync w := by
  cases h with
  | found hcall hseen =>
    obtain rfl := Except.ok.inj (Option.some.inj hw)
    exact .inl ⟨_, .inl ⟨_, _, hcall, rfl⟩, hseen, rfl⟩
  | @shared t v hcall hturn hseen =>
    obtain rfl := Except.ok.inj (Option.some.inj hw)
    exact .inl ⟨_, .inr ⟨t, hcall, hturn, rfl⟩, hseen, s.leaveSlot_watchers t⟩
  | @succeeded t v s' watcher ha hget hsynced =>
    obtain rfl := Except.ok.inj (Option.some.inj hw)
    refine .inr ⟨watcher, ?_, hsynced⟩
    rw [leave, leaveSlot_watchers]
    exact hget
  | refused | failed | expired => cases hw
  | resting | joined | begun | resolved | reviewed | waited => cases hw

/-- Whoever asks for a kind that is running is answered, and at once: nothing is opened, and
nobody waits. -/
theorem Looks.answer (h : s.Looks c g) (hw : s.seenWatcher? g = some w) :
    (s.current c).2 = some (.ok w) ∧ (s.current c).1.watchers = s.watchers := by
  rcases h with ⟨use, q, hcall, rfl⟩ | ⟨t, hcall, hturn, rfl⟩
  · have hleg : s.current c = (s, some (.ok w)) := by
      simp only [current, hcall, approach, hw]
    rw [hleg]
    exact ⟨rfl, rfl⟩
  · have hleg : s.current c = s.leave t (.ok w) := by
      simp only [current, hcall, hturn, if_true, enter, hw]
    rw [hleg]
    exact ⟨rfl, s.leaveSlot_watchers t⟩

/-- A watcher that is known for a kind and not in sync has replaced another one. For the
kind was marked when a watcher of the name was in sync, and it can only have made room by
ending. -/
theorem Streams.reopened (h : Streams s) (hw : s.seenWatcher? g = some w)
    (hsync : ¬ s.InSync w) : s.Reopened g w := by
  obtain ⟨name, hseen, hstream, hrunning⟩ := seenWatcher?_eq_some.mp hw
  obtain ⟨watcher, hget, hrun⟩ := isRunning_iff.mp hrunning
  have hnot : watcher.synced = false := by
    rcases hsynced : watcher.synced with _ | _
    · rfl
    · exact absurd ⟨watcher, hget, hsynced⟩ hsync
  refine ⟨⟨name, hseen, hstream, ?_⟩, watcher, hget, hrun, hnot⟩
  -- the watcher that the kind was marked for was in sync, so it is another one
  obtain ⟨v, former, hformer, htied, hname, hsynced⟩ := h.seen g name hseen
  obtain ⟨j, hj, hle, hlatest⟩ := h.latest v former hformer htied
  rw [hname, hstream] at hj
  obtain rfl := Option.some.inj hj
  have hne : v ≠ w := by
    rintro rfl
    exact hsync ⟨former, hformer, hsynced⟩
  refine ⟨v, former, Nat.lt_of_le_of_ne hle hne, hformer, hname, hsynced, ?_⟩
  rcases hr : former.running with _ | _
  · rfl
  · exact absurd (hlatest hr) hne

/-- Such a watcher is known: the mark is there, the table leads to it and it runs. -/
theorem Reopened.known (h : s.Reopened g w) : s.seenWatcher? g = some w := by
  obtain ⟨⟨name, hseen, hstream, -⟩, watcher, hget, hrun, -⟩ := h
  exact seenWatcher?_eq_some.mpr ⟨name, hseen, hstream, isRunning_iff.mpr ⟨watcher, hget, hrun⟩⟩

theorem Reopened.unsynced (h : s.Reopened g w) : ¬ s.InSync w := by
  obtain ⟨watcher, hget, -, hnot⟩ := h.latest
  rintro ⟨watcher', hget', hsynced⟩
  obtain rfl := Option.some.inj (hget.symm.trans hget')
  rw [hnot] at hsynced
  cases hsynced

/-- An answer that is not in sync comes from a stream that was opened anew, and each such
stream gives this answer to whoever asks for the kind. -/
theorem Streams.unsynced_iff (h : Streams s) :
    ((s.current c).2 = some (.ok w) ∧ ¬ (s.current c).1.InSync w) ↔
      ∃ g, s.Looks c g ∧ s.Reopened g w := by
  refine ⟨?_, ?_⟩
  · rintro ⟨hw, hsync⟩
    rcases (s.current_leads c).answer hw with ⟨g, hlooks, hknown, hsame⟩ | hready
    · refine ⟨g, hlooks, h.reopened hknown ?_⟩
      rwa [InSync, hsame] at hsync
    · exact absurd hready hsync
  · rintro ⟨g, hlooks, hopened⟩
    obtain ⟨hw, hsame⟩ := hlooks.answer hopened.known
    refine ⟨hw, ?_⟩
    rw [InSync, hsame]
    exact hopened.unsynced

/-- A search answers with a watcher that is there. Watchers are never forgotten, so the
number goes on to mean the same one. -/
theorem answer_exists (hw : (s.current c).2 = some (.ok w)) :
    ∃ watcher, (s.current c).1.watchers[w]? = some watcher := by
  rcases (s.current_leads c).answer hw with ⟨g, -, hknown, hsame⟩ | ⟨watcher, hget, -⟩
  · obtain ⟨-, -, -, hrunning⟩ := seenWatcher?_eq_some.mp hknown
    obtain ⟨watcher, hget, -⟩ := isRunning_iff.mp hrunning
    rw [hsame]
    exact ⟨watcher, hget⟩
  · exact ⟨watcher, hget⟩

/-- A call with an errand goes on with its search, unless it is a read that names no
object. -/
theorem advance_of_errand {use : Use} {q : Query} (h : (s.call c).errand? = some (use, q))
    (hname : lacksName use q = false) : s.advance c = s.proceed c use q := by
  simp only [advance]
  rcases hcall : s.call c with (_ | _) | _ | _ | _ | _ | _ | _ | _ <;> rw [hcall] at h <;>
    cases h
  · exact if_neg (by rw [hname]; exact Bool.false_ne_true)
  all_goals rfl

/-- A list is read from the watcher that the search answers with, in the leg of the answer.
Nothing can happen to the watcher in between. -/
theorem list_of_log {q : Query} {ds : List Document}
    (herrand : (s.call c).errand? = some (.list, q))
    (hlog : (s.advance c).log = s.log ++ [⟨c, .documents ds, s.now⟩]) :
    ∃ w watcher, (s.current c).2 = some (.ok w) ∧
      (s.current c).1.watchers[w]? = some watcher ∧ ds = watcher.list q.ns q.selector := by
  obtain ⟨hsilent, hnow, -⟩ := (s.current_leads c).steady
  rw [advance_of_errand herrand rfl, proceed] at hlog
  rcases hleg : s.current c with ⟨s', _ | e | w⟩ <;> rw [hleg] at hlog hsilent hnow
  · -- nothing is reported
    change s'.log = _ at hlog
    rw [hsilent] at hlog
    simp at hlog
  · change s'.log ++ [⟨c, .failed _, s'.now⟩] = _ at hlog
    rw [hsilent] at hlog
    cases List.append_cancel_left hlog
  · obtain ⟨watcher, hget⟩ := answer_exists (congrArg (·.2) hleg)
    rw [hleg] at hget
    change (s'.serve c .list q w).log = _ at hlog
    have hserve : (s'.serve c .list q w).log =
        s'.log ++ [⟨c, .documents (watcher.list q.ns q.selector), s'.now⟩] := by
      simp only [serve, hget]
      rfl
    rw [hserve, hsilent, hnow] at hlog
    cases List.append_cancel_left hlog
    exact ⟨w, watcher, rfl, hget, rfl⟩

end

/-- **When an answer is not in sync.** Exactly if the stream of the kind was opened anew for
a kind that counts as started. A list is read from the watcher that the search answers with,
and so from a store without relist exactly in the same case. -/
theorem unsynced_answer_iff {s : Cache} (hs : Reachable s) (c : CallId) :
    (∀ w, ((s.current c).2 = some (.ok w) ∧ ¬ (s.current c).1.InSync w) ↔
      ∃ g, s.Looks c g ∧ s.Reopened g w) ∧
    ∀ q ds, (s.call c).errand? = some (.list, q) →
      (s.advance c).log = s.log ++ [⟨c, .documents ds, s.now⟩] →
      ∃ w watcher, (s.current c).2 = some (.ok w) ∧
        (s.current c).1.watchers[w]? = some watcher ∧ ds = watcher.list q.ns q.selector ∧
        (watcher.synced = false ↔ ∃ g, s.Looks c g ∧ s.Reopened g w) := by
  have hstreams : Streams s := streams_of_reachable hs
  refine ⟨fun w => hstreams.unsynced_iff, fun q ds herrand hlog => ?_⟩
  obtain ⟨w, watcher, hw, hget, hds⟩ := list_of_log herrand hlog
  refine ⟨w, watcher, hw, hget, hds, ?_⟩
  rw [← hstreams.unsynced_iff]
  refine ⟨fun hnot => ⟨hw, ?_⟩, fun ⟨_, hsync⟩ => ?_⟩
  · rintro ⟨watcher', hget', hsynced⟩
    obtain rfl := Option.some.inj (hget.symm.trans hget')
    rw [hnot] at hsynced
    cases hsynced
  · rcases hsynced : watcher.synced with _ | _
    · rfl
    · exact absurd ⟨watcher, hget, hsynced⟩ hsync

/-! ## The exception occurs -/

/-- A cluster with one pod. -/
def onePod : Cluster :=
  (Cluster.empty.serve Watcher.pods).seed "pods" [Watcher.pod "a" "new"]

/-- The legs of a call up to where it waits for the relist. -/
def search (c : CallId) : List Move :=
  List.replicate 7 (.advance c)

/-- Pods are started; their stream ends, and relists are held back. A second call
opens the stream anew and waits for the relist. A third call wants to list pods. -/
def reopening : List Move :=
  [.submit (.use .handOut (.ofKind Watcher.pods.gvk))] ++ search 0 ++
    [.watch 0 (.batch 1), .advance 0, .watch 0 .closeStream, .watch 0 .exhaust,
      .program (·.setHeld "pods" true), .submit (.use .handOut (.ofKind Watcher.pods.gvk))] ++
    search 1 ++ [.submit (.use .list (.ofKind Watcher.pods.gvk))]

/-- The state after that. -/
def reopened : Cache :=
  (starting onePod .standard).runMoves reopening

theorem reopened_unsynced : ¬ (reopened.current 2).1.InSync 1 := by
  rintro ⟨watcher, hget, hsynced⟩
  obtain rfl := Option.some.inj ((rfl : _ = some _).symm.trans hget)
  cases hsynced

/-- The third call is answered with the second watcher, which is not in sync, and
finds no pods. -/
theorem reopening_answers : Reachable reopened ∧
    (reopened.current 2).2 = some (.ok 1) ∧ ¬ (reopened.current 2).1.InSync 1 ∧
    (reopened.advance 2).log = reopened.log ++ [⟨2, .documents [], 0⟩] :=
  ⟨reachable_run .., rfl, reopened_unsynced, rfl⟩

theorem unsynced_answer_reopened : (∃ g, reopened.Looks 2 g ∧ reopened.Reopened g 1) ∧
    ∃ w watcher, (reopened.current 2).2 = some (.ok w) ∧
      (reopened.current 2).1.watchers[w]? = some watcher ∧ [] = watcher.list none none ∧
      (watcher.synced = false ↔ ∃ g, reopened.Looks 2 g ∧ reopened.Reopened g w) := by
  obtain ⟨hanswer, hlist⟩ :=
    unsynced_answer_iff (reachable_run onePod .standard reopening) 2
  exact ⟨(hanswer 1).mp ⟨rfl, reopened_unsynced⟩, hlist (.ofKind Watcher.pods.gvk) [] rfl rfl⟩

end Cache

end KindCache
