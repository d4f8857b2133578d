import KindCache.Proofs.Cache.Run
import KindCache.Proofs.Cluster.Inquiry

/-!
# What calls report

The end of a call is written to the log, and nothing else is.

* `Reads` — a read of one object looks it up in a watcher, when its search has ended or
  after a pause;
* `Settles` — how a wait for the relist of a given watcher ends;
* `Report` — all that a leg can report, one constructor for each;
* `advance_reports`, `mem_log` — a leg reports at most once, and what is in the log of a
  run was reported by a leg;
* `kind_of_current` — a search never fails for want of an object.
-/

namespace KindCache

namespace Cache

/-! ## What a leg can report -/

/-- A call looks up an object by its name in a watcher, in some state of its leg. -/
inductive Reads (s : Cache) (c : CallId) (q : Query) (name : String) (w : WatcherId) :
    Cache → Prop where
  /-- its search has ended with the watcher -/
  | found {counted : Bool} {s' : Cache} (herrand : (s.call c).errand? = some (.get counted, q))
    (hname : q.name = some name) (hleg : s.current c = (s', some (.ok w))) :
    Reads s c q name w s'
  /-- its pause is over -/
  | again {counted : Bool} {tries wake : Nat}
    (h : s.call c = .pausing counted q name w tries wake) : Reads s c q name w s

/-- How a wait for a given watcher ends. -/
inductive Settles (s : Cache) (w : WatcherId) : Outcome → Prop where
  /-- there is no such watcher -/
  | gone (h : s.watchers[w]? = none) : Settles s w (.failed .shuttingDown)
  /-- its relist is there -/
  | reached {watcher : Watcher} (h : s.watchers[w]? = some watcher)
    (hstatus : watcher.syncStatus s.shutdown = .reached) : Settles s w .done
  /-- its relist will not come -/
  | failed {watcher : Watcher} {e : CacheError} (h : s.watchers[w]? = some watcher)
    (hstatus : watcher.syncStatus s.shutdown = .failed e) : Settles s w (.failed e)

/-- What a leg of a call can report. -/
inductive Report (s : Cache) (c : CallId) : Outcome → Prop where
  /-- it is a read without a name -/
  | nameless {q : Query} : Report s c (.failed (nameless q))
  /-- its search has failed -/
  | gaveUp {s' : Cache} {e e' : CacheError} (hleg : s.current c = (s', some (.error e)))
    (hkind : e'.kind = e.kind) : Report s c (.failed e')
  /-- its search has ended, and nothing can go wrong after it -/
  | served {outcome : Outcome} (h : ∀ e, outcome ≠ .failed e) : Report s c outcome
  /-- it has read an object, or found that it cannot -/
  | read {counted : Bool} {q : Query} {name : String} {w : WatcherId} {s' : Cache}
    {retries : Nat} (h : Reads s c q name w s') :
    Report s c (readOutcome counted q name retries (s'.readOnce q name w))
  /-- its wait is over -/
  | awaited {w : WatcherId} {outcome : Outcome}
    (h : s.call c = .fresh (.sync w) ∨ s.call c = .waiting w) (hend : s.Settles w outcome) :
    Report s c outcome

/-- At most one thing is added to the log: the end of a call, as it can be. -/
def Notes (s : Cache) (c : CallId) (p : Outcome → Prop) (s' : Cache) : Prop :=
  s'.log = s.log ∨ ∃ outcome, p outcome ∧ s'.log = s.log ++ [⟨c, outcome, s.now⟩]

section

variable {s s' : Cache} {c : CallId} {q : Query} {name : String} {w : WatcherId}
  {p p' : Outcome → Prop}

theorem Notes.mono (h : Notes s c p s') (hp : ∀ outcome, p outcome → p' outcome) :
    Notes s c p' s' := by
  rcases h with hsame | ⟨outcome, hout, hlog⟩
  · exact .inl hsame
  · exact .inr ⟨outcome, hp outcome hout, hlog⟩

/-- The legs of a search before note nothing, and they do not let time pass. -/
theorem Notes.after {s₁ : Cache} (h : Notes s₁ c p s') (hsteady : Steady s s₁) :
    Notes s c p s' := by
  rw [Notes, hsteady.log, hsteady.now] at h
  exact h

/-- The end of a call is one entry, with the time of the leg. -/
theorem complete_notes (s : Cache) (c : CallId) {outcome : Outcome} (h : p outcome) :
    Notes s c p (s.complete c outcome) :=
  .inr ⟨outcome, h, rfl⟩

/-! ## Each end of a leg -/

/-- A wait reports what it finds, or nothing if it goes on. -/
theorem await_notes (s : Cache) (c : CallId) (w : WatcherId) :
    Notes s c (s.Settles w) (s.await c w) := by
  simp only [await]
  split
  · next hnone => exact complete_notes s c (.gone hnone)
  · next watcher hget =>
    split
    · next hreached => exact complete_notes s c (.reached hget hreached)
    · next e hfailed => exact complete_notes s c (.failed hget hfailed)
    · exact .inl rfl

/-- Whichever try it is, a read reports what it finds in this state. If it is tried again
this report is left out, and the next one is about a later state. -/
theorem tryRead_notes (s : Cache) (c : CallId) (counted : Bool) (q : Query) (name : String)
    (w : WatcherId) (tries : Nat) :
    Notes s c (fun outcome => ∃ retries,
      outcome = readOutcome counted q name retries (s.readOnce q name w))
      (s.tryRead c counted q name w tries) := by
  simp only [tryRead]
  split
  · exact .inl rfl
  · exact .inr ⟨_, ⟨tries, rfl⟩, rfl⟩

/-- A search that has failed is reported with an error of the same class. Whatever is not
handed out names its query in front, which changes the text and nothing else. -/
theorem giveUp_notes (s : Cache) (c : CallId) (use : Use) (q : Query) (e : CacheError) :
    Notes s c (fun outcome => ∃ e', outcome = .failed e' ∧ e'.kind = e.kind)
      (s.giveUp c use q e) := by
  cases use with
  | handOut => exact complete_notes s c ⟨e, rfl, rfl⟩
  | list | get | subscribe => exact complete_notes s c ⟨.unresolved q.text e, rfl, rfl⟩

/-- Only a read can still fail when the watcher is there: a list, a watch or a watcher that
is handed out takes what is there. -/
theorem serve_notes (s : Cache) (c : CallId) (use : Use) (q : Query) (w : WatcherId) :
    Notes s c (fun outcome => (∀ e, outcome ≠ .failed e) ∨
      ∃ counted name retries, use = .get counted ∧ q.name = some name ∧
        outcome = readOutcome counted q name retries (s.readOnce q name w))
      (s.serve c use q w) := by
  cases use with
  | handOut =>
    refine complete_notes s c (.inl ?_)
    intro e
    exact Outcome.noConfusion
  | list =>
    simp only [serve]
    split
    · refine complete_notes s c (.inl ?_)
      intro e
      exact Outcome.noConfusion
    · refine complete_notes s c (.inl ?_)
      intro e
      exact Outcome.noConfusion
  | subscribe who =>
    refine .inr ⟨.done, .inl ?_, rfl⟩
    intro e
    exact Outcome.noConfusion
  | get counted =>
    simp only [serve]
    split
    · next name hname =>
      refine (tryRead_notes s c counted q name w _).mono ?_
      rintro outcome ⟨retries, rfl⟩
      exact .inr ⟨counted, name, retries, rfl, hname, rfl⟩
    · refine complete_notes s c (.inl ?_)
      intro e
      exact Outcome.noConfusion

/-! ## Legs -/

/-- The end of a search is reported together with what is then done with the watcher, as one
entry. -/
theorem proceed_notes {use : Use} (herrand : (s.call c).errand? = some (use, q)) :
    Notes s c (s.Report c) (s.proceed c use q) := by
  simp only [proceed]
  rcases hleg : s.current c with ⟨s', _ | e | w⟩
  · have hsteady := (hleg ▸ s.current_leads c).steady
    exact .inl hsteady.log
  · have hsteady := (hleg ▸ s.current_leads c).steady
    refine ((giveUp_notes s' c use q e).after hsteady).mono ?_
    rintro outcome ⟨e', rfl, hkind⟩
    exact .gaveUp hleg hkind
  · have hsteady := (hleg ▸ s.current_leads c).steady
    refine ((serve_notes s' c use q w).after hsteady).mono ?_
    rintro outcome (hfine | ⟨counted, name, retries, rfl, hname, rfl⟩)
    · exact .served hfine
    · exact .read (.found herrand hname hleg)

/-- **A leg reports at most once**, and what it reports is one of the five things that
`Report` lists. -/
theorem advance_notes (s : Cache) (c : CallId) : Notes s c (s.Report c) (s.advance c) := by
  simp only [advance]
  split
  · next w h => exact (await_notes s c w).mono fun outcome hend => .awaited (.inl h) hend
  · next use q h =>
    split
    · exact complete_notes s c .nameless
    · exact proceed_notes (by rw [h]; rfl)
  · next t h => exact proceed_notes (by rw [h]; rfl)
  · next t h => exact proceed_notes (by rw [h]; rfl)
  · next t r access left h => exact proceed_notes (by rw [h]; rfl)
  · next t w deadline h => exact proceed_notes (by rw [h]; rfl)
  · next counted q name w tries wake h =>
    split
    · refine (tryRead_notes s c counted q name w tries).mono ?_
      rintro outcome ⟨retries, rfl⟩
      exact .read (.again h)
    · exact .inl rfl
  · next w h => exact (await_notes s c w).mono fun outcome hend => .awaited (.inr h) hend
  · exact .inl rfl

end

/-! ## Runs -/

/-- What is in the log of a run was there before, or a leg of the run has reported it. No
other move writes to the log, so an entry can be traced back to its leg. -/
theorem mem_log {s : Cache} {moves : List Move} {done : Completion}
    (h : done ∈ (s.runMoves moves).log) : done ∈ s.log ∨ ∃ before after,
      moves = before ++ .advance done.call :: after ∧
      (s.runMoves before).Report done.call done.outcome ∧ done.time = (s.runMoves before).now := by
  induction moves generalizing s with
  | nil => exact .inl h
  | cons m moves ih =>
    rcases ih h with hlog | ⟨before, after, rfl, hreport, htime⟩
    · rcases s.leg_or_outward m with ⟨c, rfl⟩ | hm
      · rcases s.advance_notes c with hsame | ⟨outcome, hreport, hlast⟩
        · exact .inl (hsame ▸ hlog)
        · change done ∈ (s.advance c).log at hlog
          rw [hlast] at hlog
          rcases List.mem_append.mp hlog with hold | hnew
          · exact .inl hold
          · obtain rfl := List.mem_singleton.mp hnew
            exact .inr ⟨[], moves, rfl, hreport, rfl⟩
      · exact .inl (hm.log ▸ hlog)
    · exact .inr ⟨m :: before, after, rfl, hreport, htime⟩

/-! ## Errors of a search -/

/-- A kind that cannot be resolved is no object that is absent. A kind that is not served
fails the resolution, and a discovery without a listing may be tried again. -/
theorem kind_of_resolve {reg : Registry} {now : Nat} {g : GroupVersionKind}
    {discovered : Except String (List Resource)} {e : CacheError}
    (h : (reg.resolve now g discovered).2 = .error e) : e.kind ≠ .notFound := by
  have hresolved := reg.resolved now now g discovered
  rw [Registry.resolve] at h
  generalize reg.resolveUntil now now g discovered = answer at h hresolved
  cases hresolved with
  | known | found => cases h
  | remembered | failed | lacking =>
    cases h
    exact ErrorKind.noConfusion

/-- A relist that will not come says nothing about objects either, whether it is the stream
that has ended or somebody who wants to stop. -/
theorem kind_of_syncStatus {watcher : Watcher} {shutdown : Bool} {e : CacheError}
    (h : watcher.syncStatus shutdown = .failed e) : e.kind ≠ .notFound := by
  simp only [Watcher.syncStatus] at h
  split at h
  · cases h
  · split at h
    · cases h
      exact ErrorKind.noConfusion
    · split at h
      · cases h
      · split at h
        · cases h
          exact ErrorKind.noConfusion
        · cases h
          exact ErrorKind.noConfusion

section

variable {s s' : Cache} {c : CallId} {t : Ticket} {w : WatcherId} {e : CacheError}

/-- The same for a relist that takes too long. -/
theorem kind_of_awaitSync {deadline : Option Nat}
    (h : (s.awaitSync c t w deadline).2 = some (.error e)) : e.kind ≠ .notFound := by
  simp only [awaitSync] at h
  split at h
  · cases h
    exact ErrorKind.noConfusion
  · split at h
    · cases h
    · next hfailed =>
      cases h
      exact kind_of_syncStatus hfailed
    · split at h
      · cases h
        exact ErrorKind.noConfusion
      · cases h

/-- **A search never fails because an object is absent.** It does not look at objects: it
fails for want of a kind, of rights, of time or of a relist. -/
theorem kind_of_current (h : (s.current c).2 = some (.error e)) : e.kind ≠ .notFound := by
  simp only [current] at h
  split at h
  · simp only [approach] at h
    split at h
    · cases h
    · split at h
      · cases h
        exact ErrorKind.noConfusion
      · cases h
  · split at h
    · simp only [enter] at h
      split at h
      · cases h
      · cases h
    · cases h
  · next t hcall =>
    simp only [findResource] at h
    split at h
    · next e' hresolved =>
      cases h
      exact kind_of_resolve hresolved
    · cases h
  · next t r access left hcall =>
    rcases left with _ | ⟨verb, left⟩
    · simp only [probeRights] at h
      split at h
      · next e' hrefused =>
        cases h
        simp only [Access.ensure] at hrefused
        split at hrefused
        · cases hrefused
        · cases hrefused
          exact ErrorKind.noConfusion
      · exact kind_of_awaitSync h
    · cases h
  · exact kind_of_awaitSync h
  · cases h

end

end Cache

end KindCache
