import KindCache.Proofs.Cache.Absence
import KindCache.Proofs.Cache.Bootstrap
import KindCache.Proofs.Retry.Budget

/-!
# Reads that are tried again

A call for one object looks it up in the watcher of its kind, without the selector of the
query, and looks again after a pause as long as the failure may pass. The selector has its say
at the end. What comes out is what the store itself would have said to the query with its
selector at the last try, and the tries go on just as long as the store would have said that
it does not know.

* `Verdict` — how a call ends, by what the store says at its last try;
* `Tries` — a leg that is a try; it ends the call (`Tries.ends`), or a pause follows
  (`Tries.pauses`);
* `Gap`, `paused_run` — what else happens during a pause;
* `atTry`, `comes_to_try` — the states in which a call tries to read, from the end of its
  search on;
* `readCourse`, `read_follows_course` — the legs of a read come to what `Retry.run` makes of the
  outcomes that the call sees, one after the other;
* `LastTry`, `read_retries` — every call comes to a last try.

A pause may be of no length. It is a pause all the same: each try is a leg of its own, and
anything may happen in between.
-/

namespace KindCache

namespace Cache

/-- How a call ends whose last try was number `i`, counted from zero, by what the store said to
the query then. -/
inductive Verdict (counted : Bool) (q : Query) (name : String) (i : Nat) :
    Except CacheError Document → Outcome → Prop where
  /-- the object is there -/
  | found (d : Document) :
    Verdict counted q name i (.ok d) (if counted then .counted d i else .document d)
  /-- it is absent for good, in the words of the store -/
  | absent {e : CacheError} (h : e.kind = .notFound) :
    Verdict counted q name i (.error e) (.failed e)
  /-- the selector excludes it -/
  | excluded (ref sel : String) : Verdict counted q name i (.error (.filteredOut ref sel))
    (.failed (.filteredOut (q.gvk.text ++ " " ++ (ObjectRef.of q.ns name).text) sel))
  /-- the store does not know, and the tries are used up -/
  | exhausted {e : CacheError} (h : e.kind = .transient) :
    Verdict counted q name i (.error e) (.failed (.exhausted q.text i e))

section

variable {s s' : Cache} {c : CallId} {counted : Bool} {q : Query} {name : String}
  {w : WatcherId} {watcher : Watcher} {i : Nat}

/-- The selector is asked at the end of a read, and says what it says in the store. So the
look without the selector, which decides on further tries, and the answer of the store with
it agree on everything but this. -/
theorem readOutcome_verdict (watcher : Watcher) (counted : Bool) (q : Query) (name : String)
    (i : Nat) : Verdict counted q name i (watcher.get q.ns name q.selector)
      (readOutcome counted q name i (watcher.get q.ns name none)) := by
  rw [Watcher.get_eq_screen]
  rcases hget : watcher.get q.ns name none with e | d
  · show Verdict counted q name i (.error e)
      (.failed (if e.isNotFound then e else .exhausted q.text i e))
    rcases Watcher.kind_of_get hget with hkind | hkind
    · have hfinal : e.isNotFound = true := decide_eq_true hkind
      rw [if_pos hfinal]
      exact .absent hkind
    · have hopen : ¬ e.isNotFound = true := by simp [CacheError.isNotFound, hkind]
      rw [if_neg hopen]
      exact .exhausted hkind
  · show Verdict counted q name i (Watcher.screen _ q.selector d) _
    simp only [Watcher.screen, readOutcome]
    rcases hfilter : q.selector.filter (fun sel => !sel.selects d.labels) with _ | sel
    · simp only [hfilter]
      exact .found d
    · simp only [hfilter]
      exact .excluded ..

/-- A call fails with an error of the class of that of the store. The wrapper around the
last error of used up tries is no exception, it may be tried again as well. -/
theorem Verdict.kind {e : CacheError} (h : Verdict counted q name i
      (watcher.get q.ns name q.selector) (.failed e)) :
    watcher.Fails q.ns name q.selector e.kind := by
  generalize hread : watcher.get q.ns name q.selector = result at h
  generalize hout : Outcome.failed e = outcome at h
  cases h with
  | found d =>
    split at hout <;> cases hout
  | absent | excluded | exhausted =>
    obtain rfl := Outcome.failed.inj hout
    exact ⟨_, hread, rfl⟩

/-! ## One try -/

/-- What a call has reported. -/
def reports (c : CallId) (s : Cache) : List Completion :=
  s.log.filter (·.call = c)

/-- A leg of a call is the try number `i` to read, in some state of the leg. The first try
comes after the last leg of a search, which is why the state is not always that before the
leg. -/
structure Tries (s : Cache) (c : CallId) (counted : Bool) (q : Query) (name : String)
    (w : WatcherId) (i : Nat) (s' : Cache) : Prop where
  leg : s.advance c = s'.tryRead c counted q name w i
  born : c < s'.calls.length
  watchers : s'.watchers = s.watchers
  settings : s'.settings = s.settings
  log : s'.log = s.log
  now : s'.now = s.now

/-- A search that succeeds opens no stream in the leg of its success: a new watcher is not
in sync, and one that was found is not new. -/
theorem Leads.watchers_of_answer {leg : Leg} (h : Leads s c leg) (hw : leg.2 = some (.ok w)) :
    leg.1.watchers = s.watchers := by
  cases h with
  | found hcall hseen => rfl
  | shared hcall hturn hseen => exact leaveSlot_watchers ..
  | @succeeded t v s₁ watcher ha hget hsynced =>
    refine (leaveSlot_watchers ..).trans ?_
    cases ha with
    | waiting hcall => rfl
    | @opening r access hcall =>
      show (s.watcherFor r).1.watchers = s.watchers
      obtain ⟨v, hrun⟩ := running_of_synced hget hsynced
      rw [watcherFor_running hrun]
  | refused | failed | expired => cases hw
  | resting | joined | begun | resolved | reviewed | waited => cases hw

theorem Asked.settings (h : Asked s s') : s'.settings = s.settings := by
  obtain ⟨cluster, registry, meters⟩ := h
  rfl

theorem Awaits.settings {t : Ticket} (h : Awaits s c t w s') : s'.settings = s.settings := by
  cases h with
  | @opening r access hcall =>
    obtain ⟨cluster, watchers, streams, meters, heq⟩ := s.watcherFor_eq r
    rw [heq]
  | waiting hcall => rfl

theorem leaveSlot_settings (s : Cache) (t : Ticket) : (s.leaveSlot t).settings = s.settings := by
  obtain ⟨slots, slotOf, heq⟩ := s.leaveSlot_eq t
  rw [heq]

/-- No leg changes the settings, so the number of tries and the length of pauses are those
at the start of the call. -/
theorem Leads.settings {leg : Leg} (h : Leads s c leg) : leg.1.settings = s.settings := by
  cases h with
  | resting | found | refused | begun => rfl
  | @joined use q hcall hw =>
    obtain ⟨slots, slotOf, i, heq⟩ := s.enqueue_eq c use q
    rw [heq]
  | shared => exact leaveSlot_settings ..
  | resolved hcall hs' | reviewed hcall hs' =>
    have hsame := hs'.settings
    exact hsame
  | waited ha =>
    have hsame := ha.settings
    exact hsame
  | failed hcall hs' => exact (leaveSlot_settings ..).trans hs'.settings
  | expired ha => exact (leaveSlot_settings ..).trans ha.settings
  | succeeded ha hget hsynced =>
    have hsame := ha.settings
    exact (leaveSlot_settings ..).trans hsame

/-- The first try belongs to the leg that ends the search. There is no pause before it. -/
theorem tries_first (herrand : (s.call c).errand? = some (.get counted, q))
    (hname : q.name = some name) (hfound : s.current c = (s', some (.ok w))) :
    Tries s c counted q name w 0 s' := by
  have hleads : Leads s c (s', some (.ok w)) := hfound ▸ s.current_leads c
  refine ⟨?_, ?_, hleads.watchers_of_answer rfl, hleads.settings, hleads.steady.log,
    hleads.steady.now⟩
  · have hlacks : lacksName (.get counted) q = false := by
      rw [lacksName, hname]
      rfl
    rw [advance_of_errand herrand hlacks, proceed, hfound]
    simp only [conclude, serve, hname]
  · have hlength : s'.calls.length = s.calls.length := hleads.calls_length
    rw [hlength]
    exact lt_of_errand herrand

/-- Another try comes when the pause is over, with the same watcher. The search is not done
again, even if this watcher has been replaced. -/
theorem tries_again {wake : Nat} (h : s.call c = .pausing counted q name w i wake)
    (hwake : wake ≤ s.now) : Tries s c counted q name w i s := by
  refine ⟨?_, lt_of_call (by rw [h]; exact Call.noConfusion), rfl, rfl, rfl, rfl⟩
  simp only [advance, h, if_pos hwake]

/-- A look is not final exactly if the store does not know, for the selector has no say in
whether a read is tried again. -/
theorem not_final_iff : ¬ Retry.Final (fun e : CacheError => !e.isNotFound)
      (watcher.get q.ns name none) ↔ watcher.Fails q.ns name q.selector .transient := by
  rw [Watcher.fails_transient_iff]
  rcases watcher.get q.ns name none with e | d
  · simp [Retry.Final]
  · refine iff_of_false (fun h => h trivial) ?_
    rintro ⟨e, ⟨⟩, -⟩

section

variable (h : Tries s c counted q name w i s') (hget : s.watchers[w]? = some watcher)

include h hget

theorem Tries.readOnce : s'.readOnce q name w = watcher.get q.ns name none := by
  simp only [Cache.readOnce, h.watchers, hget]

/-- There is another try if this one fails, but not for good, and it is not the last one. -/
theorem Tries.again_iff : Retry.again s'.readTries (i + 1) (fun e => !e.isNotFound)
      (s'.readOnce q name w) = true ↔
    watcher.Fails q.ns name q.selector .transient ∧ i + 1 < s.readTries := by
  have hpos : max s.readTries 1 = s.readTries := Nat.max_eq_left (Nat.le_max_right _ _)
  rw [h.readOnce hget, Retry.again_iff, not_final_iff, Cache.readTries, h.settings,
    ← Cache.readTries, hpos]

/-- The last try ends the call, and so does one that succeeds or fails for good. The call
reports what was found, with the number of tries before this one. -/
theorem Tries.ends
    (hlast : watcher.Fails q.ns name q.selector .transient → i + 1 = s.readTries) :
    (s.advance c).log = s.log ++
        [⟨c, readOutcome counted q name i (watcher.get q.ns name none), s.now⟩] ∧
      (s.advance c).call c = .over ∧ c < (s.advance c).calls.length := by
  have hstop : ¬ Retry.again s'.readTries (i + 1) (fun e => !e.isNotFound)
      (s'.readOnce q name w) = true := by
    rw [h.again_iff hget]
    exact fun ⟨hfails, hmore⟩ => Nat.ne_of_lt hmore (hlast hfails)
  rw [h.leg, tryRead, if_neg hstop, h.readOnce hget]
  refine ⟨?_, ?_, ?_⟩
  · show s'.log ++ [⟨c, _, s'.now⟩] = _
    rw [h.log, h.now]
  · exact (call_of_set_self rfl).elim id id
  · show c < (s'.calls.set c .over).length
    rw [List.length_set]
    exact h.born

/-- Otherwise there is a pause, and nothing is reported. When it is over is fixed now, by
the clock of the cache. -/
theorem Tries.pauses (hfails : watcher.Fails q.ns name q.selector .transient)
    (hmore : i + 1 < s.readTries) :
    (s.advance c).call c =
        .pausing counted q name w (i + 1) (s.now + s.settings.getRetryDelay.ticks) ∧
      (s.advance c).log = s.log := by
  rw [h.leg, tryRead, if_pos ((h.again_iff hget).mpr ⟨hfails, hmore⟩), h.settings, h.now]
  exact ⟨by rw [call_of_set rfl h.born, if_pos rfl], h.log⟩

end

/-! ## Pauses -/

/-- How long a run takes. -/
def elapsed : List Move → Nat
  | [] => 0
  | m :: moves => m.lasts + elapsed moves

/-- What a call may see of the world between two tries: anything may happen but that it is
dropped, and it does its next leg as soon as it is asked to after the pause. -/
structure Gap (c : CallId) (delay : Nat) (moves : List Move) : Prop where
  kept : .cancel c ∉ moves
  due : delay ≤ elapsed moves
  /-- a leg that comes too early finds the call waiting -/
  early : ∀ before after, moves = before ++ .advance c :: after → elapsed before < delay

theorem Advance.now (h : Advance s c s') : s'.now = s.now := by
  cases h with
  | idle => rfl
  | onward hleg => exact (Leads.steady (hleg ▸ s.current_leads c)).now
  | answered herrand hleg hend =>
    exact hend.now.trans (Leads.steady (hleg ▸ s.current_leads c)).now
  | aside hcall hend => exact hend.now

theorem Advance.settings (h : Advance s c s') : s'.settings = s.settings := by
  cases h with
  | idle => rfl
  | onward hleg => exact Leads.settings (hleg ▸ s.current_leads c)
  | answered herrand hleg hend =>
    exact hend.settings.trans (Leads.settings (hleg ▸ s.current_leads c))
  | aside hcall hend => exact hend.settings

theorem perform_settings (s : Cache) (m : Move) : (s.perform m).settings = s.settings := by
  rcases s.leg_or_outward m with ⟨c, rfl⟩ | hm
  · exact (s.advance_cases c).settings
  · exact hm.settings

theorem run_settings (s : Cache) (moves : List Move) :
    (s.runMoves moves).settings = s.settings := by
  induction moves generalizing s with
  | nil => rfl
  | cons m moves ih => exact (ih _).trans (perform_settings s m)

theorem perform_now (s : Cache) (m : Move) : (s.perform m).now = s.now + m.lasts := by
  rcases s.leg_or_outward m with ⟨c, rfl⟩ | hm
  · exact (s.advance_cases c).now
  · exact hm.now

theorem run_now (s : Cache) (moves : List Move) :
    (s.runMoves moves).now = s.now + elapsed moves := by
  induction moves generalizing s with
  | nil => rfl
  | cons m moves ih =>
    rw [runMoves_cons, ih, perform_now, elapsed, Nat.add_assoc]

/-- A call reports only in its own legs. To be dropped is no report. -/
theorem perform_reports {m : Move} (hm : m ≠ .advance c) :
    reports c (s.perform m) = reports c s := by
  rcases s.leg_or_outward m with ⟨d, rfl⟩ | houtward
  · have hd : ¬ d = c := by
      rintro rfl
      exact hm rfl
    rw [perform, reports, reports]
    rcases s.advance_notes d with hsame | ⟨outcome, -, hlast⟩
    · rw [hsame]
    · simp [hlast, hd]
  · rw [reports, reports, houtward.log]

/-- **During a pause, a call stays where it is.** Others move on as they like; a leg of the
call itself that comes too early puts it back to where it was. -/
theorem paused_run {wake : Nat} {moves : List Move}
    (h : s.call c = .pausing counted q name w i wake) (hkept : .cancel c ∉ moves)
    (hearly : ∀ before after, moves = before ++ .advance c :: after →
      s.now + elapsed before < wake) :
    (s.runMoves moves).call c = .pausing counted q name w i wake ∧
      reports c (s.runMoves moves) = reports c s := by
  induction moves generalizing s with
  | nil => exact ⟨h, rfl⟩
  | cons m moves ih =>
    have hstep : (s.perform m).call c = .pausing counted q name w i wake ∧
        reports c (s.perform m) = reports c s := by
      by_cases hm : m = .advance c
      · subst hm
        have hwake : ¬ wake ≤ s.now := Nat.not_le_of_lt (hearly [] moves rfl)
        have hidle : s.perform (.advance c) = s := by
          simp only [perform, advance, h, if_neg hwake]
        rw [hidle]
        exact ⟨h, rfl⟩
      · have hcancel : m ≠ .cancel c := by
          rintro rfl
          exact hkept List.mem_cons_self
        refine ⟨?_, perform_reports hm⟩
        rcases perform_other (s := s) hm hcancel with ⟨hcall, -⟩ | ⟨hnew, -⟩
        · exact hcall.trans h
        · have hborn : c < s.calls.length := lt_of_call (by rw [h]; exact Call.noConfusion)
          exact absurd hnew (Nat.ne_of_lt hborn)
    obtain ⟨hcall, hreports⟩ := hstep
    obtain ⟨hcall', hreports'⟩ :=
      ih hcall (fun hmem => hkept (List.mem_cons_of_mem m hmem)) fun before after heq => by
        have hlt := hearly (m :: before) after (by rw [heq, List.cons_append])
        rw [elapsed] at hlt
        rw [perform_now]
        omega
    exact ⟨hcall', hreports'.trans hreports⟩

theorem advance_of_over (h : s.call c = .over) : s.advance c = s := by
  simp only [advance, h]

/-- A call that has ended never reports again, and its number is not given to another
one. -/
theorem over_run (h : s.call c = .over) (hborn : c < s.calls.length) (moves : List Move) :
    (s.runMoves moves).call c = .over ∧ c < (s.runMoves moves).calls.length ∧
      reports c (s.runMoves moves) = reports c s := by
  induction moves generalizing s with
  | nil => exact ⟨h, hborn, rfl⟩
  | cons m moves ih =>
    have hstep : (s.perform m).call c = .over ∧ c < (s.perform m).calls.length ∧
        reports c (s.perform m) = reports c s := by
      by_cases hm : m = .advance c
      · subst hm
        rw [perform, advance_of_over h]
        exact ⟨h, hborn, rfl⟩
      · by_cases hcancel : m = .cancel c
        · subst hcancel
          refine ⟨?_, ?_, perform_reports hm⟩
          · rw [perform, call_cancel, if_pos rfl]
          · obtain ⟨slots, heq⟩ := s.cancel_eq c
            rw [perform, heq, List.length_set]
            exact hborn
        · rcases perform_other (s := s) hm hcancel with ⟨hcall, hlength⟩ | ⟨hnew, -⟩
          · exact ⟨hcall.trans h, hlength.mpr hborn, perform_reports hm⟩
          · exact absurd hnew (Nat.ne_of_lt hborn)
    obtain ⟨hcall, hborn', hreports⟩ := hstep
    obtain ⟨hover, hborn'', hsame⟩ := ih hcall hborn'
    exact ⟨hover, hborn'', hsame.trans hreports⟩

/-! ## The course of a call -/

/-- The state at each try of a call, if each is followed by a gap. -/
def atTry (c : CallId) (gap : Nat → List Move) (s : Cache) : Nat → Cache
  | 0 => s
  | i + 1 => ((atTry c gap s i).advance c).runMoves (gap i)

section

variable {gap : Nat → List Move}

theorem atTry_settings (c : CallId) (gap : Nat → List Move) (s : Cache) (i : Nat) :
    (atTry c gap s i).settings = s.settings := by
  induction i with
  | zero => rfl
  | succ i ih =>
    rw [atTry, run_settings, ((atTry c gap s i).advance_cases c).settings, ih]

/-- From one try to the next, watchers go on and none is lost, so the watcher of the read is
there at each try. -/
theorem atTry_grows (c : CallId) (gap : Nat → List Move) (s : Cache) (i : Nat) :
    Grows (atTry c gap s i).watchers (atTry c gap s (i + 1)).watchers :=
  ((atTry c gap s i).advance_cases c).grows.trans (run_grows _ _)

theorem atTry_now (c : CallId) (gap : Nat → List Move) (s : Cache) (i : Nat) :
    (atTry c gap s (i + 1)).now = (atTry c gap s i).now + elapsed (gap i) := by
  rw [atTry, run_now, ((atTry c gap s i).advance_cases c).now]

/-- The tries are as far apart as the pauses are long, or further: a pause that is over has
to wait for its leg. -/
theorem atTry_late {delay : Nat} (hgap : ∀ i, Gap c delay (gap i)) (i : Nat) :
    s.now + i * delay ≤ (atTry c gap s i).now := by
  induction i with
  | zero => simp [atTry]
  | succ i ih =>
    have hdue := (hgap i).due
    rw [atTry_now, Nat.succ_mul]
    omega

/-- If that comes at once, they are exactly as far apart. -/
theorem atTry_punctual {delay : Nat} (hgap : ∀ i, elapsed (gap i) = delay) (i : Nat) :
    (atTry c gap s i).now = s.now + i * delay := by
  induction i with
  | zero => simp [atTry]
  | succ i ih => rw [atTry_now, ih, hgap, Nat.succ_mul, Nat.add_assoc]

/-- A call that has ended reports no more, whatever would have been its later tries. -/
theorem atTry_over (h : ((atTry c gap s i).advance c).call c = .over)
    (hborn : c < ((atTry c gap s i).advance c).calls.length) {k : Nat} (hk : i < k) :
    reports c (atTry c gap s k) = reports c ((atTry c gap s i).advance c) := by
  have hrest : ∀ d, (atTry c gap s (i + d + 1)).call c = .over ∧
      c < (atTry c gap s (i + d + 1)).calls.length ∧
      reports c (atTry c gap s (i + d + 1)) = reports c ((atTry c gap s i).advance c) := by
    intro d
    induction d with
    | zero => exact over_run h hborn (gap i)
    | succ d ih =>
      obtain ⟨hcall, hborn, hreports⟩ := ih
      obtain ⟨hcall', hborn', hreports'⟩ :=
        over_run hcall hborn (.advance c :: gap (i + d + 1))
      exact ⟨hcall', hborn', hreports'.trans hreports⟩
  obtain ⟨d, rfl⟩ := Nat.exists_eq_add_of_lt hk
  exact (hrest d).2.2

section

variable {watch : Nat → Watcher} (hfirst : Tries s c counted q name w 0 s')
  (hgap : ∀ j, Gap c s.settings.getRetryDelay.ticks (gap j))
  (hget : ∀ j, (atTry c gap s j).watchers[w]? = some (watch j))

include hfirst hgap hget

/-- As long as the tries fail, but not for good, the next one comes after a pause. The
induction is on the number of tries, with `Tries.pauses` and `paused_run` for each of
them. -/
theorem comes_to_try {k : Nat} (hk : k < s.readTries)
    (hfails : ∀ j < k, (watch j).Fails q.ns name q.selector .transient) :
    (∃ s₁, Tries (atTry c gap s k) c counted q name w k s₁) ∧
      reports c (atTry c gap s k) = reports c s := by
  induction k with
  | zero => exact ⟨⟨s', hfirst⟩, rfl⟩
  | succ k ih =>
    obtain ⟨⟨s₁, htries⟩, hreports⟩ :=
      ih (Nat.lt_of_succ_lt hk) fun j hj => hfails j (Nat.lt_succ_of_lt hj)
    have hsettings := atTry_settings c gap s k
    have hmore : k + 1 < (atTry c gap s k).readTries := by
      rwa [readTries, hsettings, ← readTries]
    obtain ⟨hcall, hlog⟩ := htries.pauses (hget k) (hfails k (Nat.lt_succ_self k)) hmore
    have hnow : ((atTry c gap s k).advance c).now = (atTry c gap s k).now :=
      ((atTry c gap s k).advance_cases c).now
    have hearly : ∀ before after, gap k = before ++ .advance c :: after →
        ((atTry c gap s k).advance c).now + elapsed before <
          (atTry c gap s k).now + (atTry c gap s k).settings.getRetryDelay.ticks := by
      intro before after heq
      rw [hnow, hsettings]
      exact Nat.add_lt_add_left ((hgap k).early before after heq) _
    obtain ⟨hcall', hreports'⟩ := paused_run hcall (hgap k).kept hearly
    refine ⟨⟨_, tries_again hcall' ?_⟩, ?_⟩
    · have hdue := (hgap k).due
      rw [atTry_now, hsettings]
      omega
    · rw [atTry, hreports', reports, hlog]
      exact hreports

/-- A call ends with its last try, and reports no more whatever happens later. -/
theorem ends_at_last (hi : i < s.readTries)
    (hbefore : ∀ j < i, (watch j).Fails q.ns name q.selector .transient)
    (hlast : (watch i).Fails q.ns name q.selector .transient → i + 1 = s.readTries)
    {k : Nat} (hk : i < k) : reports c (atTry c gap s k) = reports c s ++
      [⟨c, readOutcome counted q name i ((watch i).get q.ns name none),
        (atTry c gap s i).now⟩] := by
  obtain ⟨⟨s₁, htries⟩, hreports⟩ := comes_to_try hfirst hgap hget hi hbefore
  obtain ⟨hlog, hover, hborn⟩ := htries.ends (hget i) fun hfails => by
    rw [readTries, atTry_settings, ← readTries]
    exact hlast hfails
  rw [atTry_over hover hborn hk, reports, hlog, List.filter_append, ← reports, hreports]
  simp

end

end

/-! ## A read as a retried operation -/

/-- The course of a read, if the watcher is as given at each of its tries: what is tried is to
look the object up, whatever the selector says, and what may pass is that it is not known. -/
def readCourse (s : Cache) (q : Query) (name : String) (watch : Nat → Watcher) :
    Retry.Retried CacheError Document :=
  Retry.run s.settings.getAttempts.toNat (fun i => (watch i).get q.ns name none)
    fun e => !e.isNotFound

/-- Where the course ends: the store did not know at any try before, and it still does not
know at the last one only if the tries are used up. This is what `Retry.run` is known to do,
in the words of the store. -/
theorem readCourse_last (s : Cache) (q : Query) (name : String) (watch : Nat → Watcher) :
    ∃ i, Retry.Takes (fun i => (watch i).get q.ns name none) 0 i (s.readCourse q name watch) ∧
      i < s.readTries ∧ (∀ j < i, (watch j).Fails q.ns name q.selector .transient) ∧
      ((watch i).Fails q.ns name q.selector .transient → i + 1 = s.readTries) := by
  have hbudget : 0 + (s.settings.getAttempts.toNat - 1) + 1 =
      max s.settings.getAttempts.toNat 1 := by omega
  obtain ⟨i, hi, htakes, hopen, hfinal⟩ := Retry.runFrom_takes
    (fun i => (watch i).get q.ns name none) (fun e => !e.isNotFound) hbudget
  simp only [Nat.zero_add, not_final_iff] at hopen hfinal
  refine ⟨i, htakes, ?_, hopen, fun hfails => ?_⟩
  · rw [readTries]
    omega
  · have hall : ¬ i < s.settings.getAttempts.toNat - 1 :=
      fun hless => not_final_iff.mpr hfails (hfinal hless)
    rw [readTries]
    omega

section

variable {gap : Nat → List Move} {watch : Nat → Watcher}
  (hfirst : Tries s c counted q name w 0 s')
  (hgap : ∀ j, Gap c s.settings.getRetryDelay.ticks (gap j))
  (hget : ∀ j, (atTry c gap s j).watchers[w]? = some (watch j))

include hfirst hgap hget

/-- **A read is a retried operation.** The legs of the call come to what `Retry.run` makes of
the outcomes that the call sees, although they are spread over a run in which anything may
happen between two of them: the call reports the result of that course and its number of
retries, and if it is resumed as soon as each pause is over, it does so after the time that the
course has waited. -/
theorem read_follows_course :
    (∀ k, (s.readCourse q name watch).retries < k → reports c (atTry c gap s k) =
      reports c s ++ [⟨c, readOutcome counted q name (s.readCourse q name watch).retries
        (s.readCourse q name watch).result,
        (atTry c gap s (s.readCourse q name watch).retries).now⟩]) ∧
    ((∀ j, elapsed (gap j) = s.settings.getRetryDelay.ticks) →
      (atTry c gap s (s.readCourse q name watch).retries).now =
        s.now + (s.readCourse q name watch).waited s.settings.getRetryDelay.ticks) := by
  obtain ⟨i, htakes, hi, hbefore, hlast⟩ := s.readCourse_last q name watch
  rw [htakes.result, htakes.retries, Retry.Retried.waited, htakes.pauses, Nat.zero_add]
  exact ⟨fun k hk => ends_at_last hfirst hgap hget hi hbefore hlast hk,
    fun hpunctual => atTry_punctual hpunctual i⟩

end

/-- A call has its last try, and how it ends with it. The watcher is as it is at each try. -/
structure LastTry (s : Cache) (c : CallId) (counted : Bool) (q : Query) (name : String)
    (gap : Nat → List Move) (watch : Nat → Watcher) (i : Nat) (outcome : Outcome) : Prop where
  within : i < s.readTries
  /-- the store did not know before -/
  before : ∀ j < i, (watch j).Fails q.ns name q.selector .transient
  /-- it still does not only if the tries are used up -/
  last : (watch i).Fails q.ns name q.selector .transient → i + 1 = s.readTries
  verdict : Verdict counted q name i ((watch i).get q.ns name q.selector) outcome
  /-- an error is of the class of that of the store -/
  kind : ∀ e, outcome = .failed e → (watch i).Fails q.ns name q.selector e.kind
  /-- this is all that the call ever reports -/
  reported : ∀ k, i < k →
    reports c (atTry c gap s k) = reports c s ++ [⟨c, outcome, (atTry c gap s i).now⟩]
  /-- it does not report before -/
  silent : ∀ k ≤ i, reports c (atTry c gap s k) = reports c s
  late : s.now + i * s.settings.getRetryDelay.ticks ≤ (atTry c gap s i).now
  /-- nor later, if it is asked to do its leg at once after each pause -/
  punctual : (∀ j, elapsed (gap j) = s.settings.getRetryDelay.ticks) →
    (atTry c gap s i).now = s.now + i * s.settings.getRetryDelay.ticks

/-- The watcher that a search has ended with is there at each try. It need not be the same
as before: it may have been relisted, have come to harm or have ended. -/
theorem exists_watch (gap : Nat → List Move) (hfirst : Tries s c counted q name w 0 s')
    (hfound : s.current c = (s', some (.ok w))) :
    ∃ watch : Nat → Watcher, ∀ i, (atTry c gap s i).watchers[w]? = some (watch i) := by
  have hthere : ∀ i, ∃ watcher, (atTry c gap s i).watchers[w]? = some watcher := by
    intro i
    induction i with
    | zero =>
      obtain ⟨watcher, hget⟩ := answer_exists (congrArg Prod.snd hfound)
      rw [hfound] at hget
      change s'.watchers[w]? = _ at hget
      exact ⟨watcher, by rw [atTry, ← hfirst.watchers, hget]⟩
    | succ i ih =>
      obtain ⟨watcher, hget⟩ := ih
      obtain ⟨moves, hget'⟩ := (atTry_grows c gap s i).kept w watcher hget
      exact ⟨_, hget'⟩
  choose watch hget using hthere
  exact ⟨watch, hget⟩

/-- **The law of reads.** A call whose search has ended with a watcher looks up its object
there until the store knows whether there is such an object, and at most as often as the
settings say, with a pause between any two tries. It ends as the store says at the last try,
whatever has happened to the watcher between the tries. -/
theorem read_retries {gap : Nat → List Move}
    (herrand : (s.call c).errand? = some (.get counted, q)) (hname : q.name = some name)
    (hfound : s.current c = (s', some (.ok w)))
    (hgap : ∀ i, Gap c s.settings.getRetryDelay.ticks (gap i)) :
    ∃ watch : Nat → Watcher, (∀ i, (atTry c gap s i).watchers[w]? = some (watch i)) ∧
      ∃ i outcome, LastTry s c counted q name gap watch i outcome := by
  have hfirst := tries_first herrand hname hfound
  obtain ⟨watch, hget⟩ := exists_watch gap hfirst hfound
  obtain ⟨i, -, hi, hbefore, hlast⟩ := s.readCourse_last q name watch
  have hverdict := readOutcome_verdict (watch i) counted q name i
  refine ⟨watch, hget, i, _, hi, hbefore, hlast, hverdict, ?_,
    fun k hk => ends_at_last hfirst hgap hget hi hbefore hlast hk, ?_,
    atTry_late hgap i, fun hpunctual => atTry_punctual hpunctual i⟩
  · intro e he
    rw [he] at hverdict
    exact hverdict.kind
  · intro k hk
    have hsome := fun j hj => hbefore j (Nat.lt_of_lt_of_le hj hk)
    exact (comes_to_try hfirst hgap hget (Nat.lt_of_le_of_lt hk hi) hsome).2

/-! ## A call that waits for an object -/

/-- Pauses of two milliseconds. -/
def impatient : Settings :=
  { Settings.standard with getRetryDelay := .ofMillis 2 }

/-- The stream of pods fails, and someone asks for a pod that is not there yet. -/
def unsure : Cache :=
  (starting onePod impatient).runMoves <|
    [.submit (.use .handOut (.ofKind Watcher.pods.gvk))] ++ search 0 ++
      [.watch 0 (.batch 1), .advance 0, .watch 0 (.arrive [.fault "gone"]), .watch 0 (.batch 1),
        .submit (.use (.get true) ((Query.ofKind Watcher.pods.gvk).named "b"))]

/-- The pod comes during the first pause, after the call was asked in vain to go on. -/
def recovery : Nat → List Move
  | 0 => [.tick, .advance 1, .watch 0 (.arrive [.event (.applied (Watcher.pod "b" "new"))]),
      .watch 0 (.batch 1), .tick]
  | _ + 1 => [.tick, .tick]

theorem recovery_gap (i : Nat) : Gap 1 2 (recovery i) := by
  cases i with
  | zero =>
    refine ⟨by simp [recovery], Nat.le_refl 2, ?_⟩
    rintro (_ | ⟨m, _ | ⟨m', before⟩⟩) after heq
    · cases heq
    · obtain rfl := (List.cons.inj heq).1
      exact Nat.one_lt_two
    · -- there is no leg of the call in what follows
      rw [List.cons_append, List.cons_append] at heq
      have hrest := (List.cons.inj (List.cons.inj heq).2).2
      have hmem : Move.advance 1 ∈ before ++ .advance 1 :: after := by simp
      rw [← hrest] at hmem
      simp at hmem
  | succ i =>
    refine ⟨by simp [recovery], Nat.le_refl 2, ?_⟩
    intro before after heq
    have hmem : Move.advance 1 ∈ before ++ .advance 1 :: after := by simp
    rw [← heq] at hmem
    simp [recovery] at hmem

theorem read_retries_unsure :
    reports 1 (atTry 1 recovery unsure 2) =
      [⟨1, .counted (Watcher.pod "b" "new") 1, 2⟩] ∧
    ∃ watch : Nat → Watcher,
      (∀ i, (atTry 1 recovery unsure i).watchers[0]? = some (watch i)) ∧
      ∃ i outcome, LastTry unsure 1 true ((Query.ofKind Watcher.pods.gvk).named "b") "b"
        recovery watch i outcome :=
  ⟨rfl, read_retries rfl rfl rfl recovery_gap⟩

end

end Cache

end KindCache
