import KindCache.Proofs.Cache.Readiness
import KindCache.Proofs.Cache.Reports
import KindCache.Proofs.Watcher.Absence

/-!
# A call that says that an object is absent

A read is repeated as long as it fails without being final, and the end of the tries is
reported in a wrapper. So a call says that an object is absent only if a watcher has
said so, and this watcher was in sync, lacked the object and was healthy.

* `Watcher.Lacks` — the state of a watcher in which an object is absent for good;
* `Reads.lacks` — a read that reports an absence has seen such a state;
* `absence_is_final` — the states of watchers, and all reports of all runs.
-/

namespace KindCache

/-- An object is absent, for all that the stream of a watcher has said. -/
structure Watcher.Lacks (w : Watcher) (ns : Option String) (name : String) : Prop where
  synced : w.synced = true
  absent : w.store.find? (ObjectRef.of (w.scope ns) name) = none
  healthy : w.degraded = none

/-- A watcher says that an object is absent only in this state: without a relist or while
the stream is degraded it says that it does not know. -/
theorem Watcher.lacks_of_get {w : Watcher} {ns : Option String} {name : String}
    {selector : Option Selector} {e : CacheError} (h : w.get ns name selector = .error e)
    (hkind : e.kind = .notFound) : w.Lacks ns name := by
  obtain ⟨hsynced, habsent, hhealthy⟩ :=
    (w.get_classified ns name selector).absent.mp ⟨e, h, hkind⟩
  exact ⟨hsynced, habsent, hhealthy⟩

namespace Cache

variable {s s' : Cache} {c : CallId} {q : Query} {name : String} {w : WatcherId}

/-- Only a try that has said that the object is absent is reported so. The selector is asked
when the object is there, and used up tries are reported in the class of the last failure,
which was another one. -/
theorem readOutcome_notFound {counted : Bool} {retries : Nat}
    {result : Except CacheError Document} {e : CacheError}
    (h : readOutcome counted q name retries result = .failed e) (hkind : e.kind = .notFound) :
    result = .error e := by
  cases result with
  | error e' =>
    obtain rfl := Outcome.failed.inj h
    by_cases hfinal : e'.isNotFound = true
    · rw [if_pos hfinal]
    · rw [if_neg hfinal] at hkind
      exact absurd (decide_eq_true hkind) hfinal
  | ok d =>
    simp only [readOutcome] at h
    split at h
    · obtain rfl := Outcome.failed.inj h
      cases hkind
    · split at h
      · cases h
      · cases h

/-- The watchers that a read can see have come to where they are by runs of their own, so
what holds of every run of a watcher holds of them. -/
theorem Reads.reachable (h : Reads s c q name w s') (hs : Reachable s) {watcher : Watcher}
    (hget : s'.watchers[w]? = some watcher) : watcher.Reachable := by
  cases h with
  | found herrand hname hleg =>
    have hgrows := Leads.grows (hleg ▸ s.current_leads c)
    rcases hold : s.watchers[w]? with _ | before
    · exact hgrows.new w watcher hget hold
    · obtain ⟨moves, hget'⟩ := hgrows.kept w before hold
      obtain rfl := Option.some.inj (hget.symm.trans hget')
      exact (watchers_reachable hs hold).run moves
  | again hcall => exact watchers_reachable hs hget

/-- A read that reports an absence has found a watcher that lacks the object. A read without
a watcher fails as well, but not in this way. -/
theorem Reads.lacks (h : Reads s c q name w s') (hs : Reachable s) {e : CacheError}
    (hread : s'.readOnce q name w = .error e) (hkind : e.kind = .notFound) :
    ∃ watcher, s'.watchers[w]? = some watcher ∧ watcher.Reachable ∧ watcher.Lacks q.ns name := by
  simp only [readOnce] at hread
  split at hread
  · next watcher hget => exact ⟨watcher, hget, h.reachable hs hget, Watcher.lacks_of_get hread hkind⟩
  · obtain rfl := Except.error.inj hread
    cases hkind

/-- **A call that says that an object is absent has read it.** Of all that a leg can report,
a failed search and a failed wait have errors of other classes, which leaves the reads. -/
theorem Report.lacks {e : CacheError} (h : s.Report c (.failed e)) (hs : Reachable s)
    (hkind : e.kind = .notFound) : ∃ q name w s' watcher, Reads s c q name w s' ∧
      s'.watchers[w]? = some watcher ∧ watcher.Reachable ∧ watcher.Lacks q.ns name := by
  generalize hout : Outcome.failed e = outcome at h
  cases h with
  | nameless =>
    obtain rfl := Outcome.failed.inj hout
    cases hkind
  | gaveUp hleg hsame =>
    obtain rfl := Outcome.failed.inj hout
    exact absurd (hsame.symm.trans hkind) (kind_of_current (congrArg Prod.snd hleg))
  | served hfine => exact absurd hout.symm (hfine e)
  | read hreads =>
    obtain ⟨watcher, hget, hreach, hlacks⟩ :=
      hreads.lacks hs (readOutcome_notFound hout.symm hkind) hkind
    exact ⟨_, _, _, _, watcher, hreads, hget, hreach, hlacks⟩
  | awaited hcall hend =>
    cases hend with
    | gone hnone =>
      obtain rfl := Outcome.failed.inj hout
      cases hkind
    | reached hget hstatus => cases hout
    | failed hget hstatus =>
      obtain rfl := Outcome.failed.inj hout
      exact absurd hkind (kind_of_syncStatus hstatus)

/-- In every state of every watcher, the state of recovery tells of the last item that was
consumed or of the end of the stream, in the words of the whole chain of causes, and a read
says that an object is absent exactly if the watcher is in sync, lacks it and is healthy. A
call fails with an error of this class only after it has read from a watcher in such a
state. -/
theorem absence_is_final :
    (∀ resource cap tied inbox moves,
      (∀ text, ((Watcher.starting resource cap tied inbox).run moves).degraded = some text ↔
        ((Watcher.starting resource cap tied inbox).sawEnd moves = true ∧
          text = Watcher.streamEnded) ∨
        ((Watcher.starting resource cap tied inbox).sawEnd moves = false ∧
          ((Watcher.starting resource cap tied inbox).consumed moves).getLast? =
            some (.fault text))) ∧
      ∀ ns name selector, ((Watcher.starting resource cap tied inbox).run moves).Classified ns
        name selector (ObjectRef.of
          (((Watcher.starting resource cap tied inbox).run moves).scope ns) name)) ∧
    (∀ (cluster : Cluster) reason, cluster.fault reason =
      .fault (String.intercalate ": " (cluster.watchContext.toList ++ [reason]))) ∧
    ∀ cluster settings moves done e, done ∈ ((starting cluster settings).runMoves moves).log →
      done.outcome = .failed e → e.kind = .notFound →
      ∃ before after, moves = before ++ .advance done.call :: after ∧
        ∃ q name w s' watcher,
          Reads ((starting cluster settings).runMoves before) done.call q name w s' ∧
          s'.watchers[w]? = some watcher ∧ watcher.Reachable ∧ watcher.Lacks q.ns name := by
  refine ⟨?_, Cluster.fault_eq, ?_⟩
  · intro resource cap tied inbox moves
    refine ⟨fun text => Watcher.run_degraded_iff, fun ns name selector => ?_⟩
    exact Watcher.get_classified _ ns name selector
  · intro cluster settings moves done e hdone hfailed hkind
    rcases mem_log hdone with hold | ⟨before, after, hmoves, hreport, -⟩
    · cases hold
    · rw [hfailed] at hreport
      exact ⟨before, after, hmoves, hreport.lacks (reachable_run ..) hkind⟩

/-- Someone reads a pod that does not exist, while the stream is healthy. -/
def missing : List Move :=
  .submit (.use (.get false) ((Query.ofKind Watcher.pods.gvk).named "b")) :: search 0 ++
    [.watch 0 (.batch 1), .advance 0]

theorem absence_is_final_missing :
    ((starting onePod .standard).runMoves missing).log =
        [⟨0, .failed (.notFound "v1/Pod b"), 0⟩] ∧
      ∃ before after, missing = before ++ .advance 0 :: after ∧ ∃ q name w s' watcher,
        Reads ((starting onePod .standard).runMoves before) 0 q name w s' ∧
        s'.watchers[w]? = some watcher ∧ watcher.Reachable ∧ watcher.Lacks q.ns name := by
  have hlog : ((starting onePod .standard).runMoves missing).log =
      [⟨0, .failed (.notFound "v1/Pod b"), 0⟩] := rfl
  obtain ⟨-, -, hreports⟩ := absence_is_final
  refine ⟨hlog, hreports onePod .standard missing ⟨0, .failed (.notFound "v1/Pod b"), 0⟩
    (.notFound "v1/Pod b") ?_ rfl rfl⟩
  rw [hlog]
  exact List.mem_singleton.mpr rfl

end Cache

end KindCache
