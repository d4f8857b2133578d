import KindCache.Proofs.Cache.Bootstrap
import KindCache.Proofs.Cache.Readiness

/-!
# The first touch of a kind

However many calls ask for a kind, and in whatever order they come, proceed and
are dropped: if the first start of the kind ends with a watcher that keeps
running, it is the only one. Its rights are asked for once, its stream is opened
once, and everyone who is answered gets that watcher.

* `Once` — what is done for a kind in the rest of a run;
* `Settled.once`, `once_of_starts`, `once_of_fresh` — the rest of a run after the
  start, from within it, and before it;
* `first_touch` — starts exclude one another, follow on one another only with a
  cause, and do everything once.
-/

namespace KindCache

/-- The rights that a call which starts a kind still has to ask for. -/
def Call.left : Call → List Verb
  | .resolving _ => Verb.required
  | .probing _ _ _ left => left
  | _ => []

namespace Cache

/-- What is done for a kind in the rest of a run: the calls that begin to start it, the
rights that are asked for, and no stream or answer but one. The rest of a run is what is
looked at, so that each move is put in front of what is known of the moves behind it. -/
structure Once (g : GroupVersionKind) (w : WatcherId) (s : Cache) (moves : List Move)
    (begins : List CallId) (verbs : List Verb) : Prop where
  begun : trace (begun g) s moves = begins
  asked : trace (asked g) s moves = verbs
  openedFor : ∀ v ∈ trace (openedFor g) s moves, v = w
  answered : ∀ v ∈ trace (answered g) s moves, v = w

section

variable {s s' : Cache} {c d : CallId} {t : Ticket} {g : GroupVersionKind} {v w : WatcherId}
  {m : Move} {moves : List Move} {begins : List CallId} {verbs : List Verb}

/-- A move in front of the rest of a run. What the move itself opens or answers has to be
the one watcher; what it begins or asks for is added to the lists. -/
theorem Once.cons (h : Once g w (s.perform m) moves begins verbs)
    (hopened : ∀ v, Cache.openedFor g s m = some v → v = w)
    (hanswered : ∀ v, Cache.answered g s m = some v → v = w) :
    Once g w s (m :: moves) ((Cache.begun g s m).toList ++ begins)
      ((Cache.asked g s m).toList ++ verbs) := by
  refine ⟨?_, ?_, fun v hv => ?_, fun v hv => ?_⟩
  · rw [trace_cons, h.begun]
  · rw [trace_cons, h.asked]
  · rw [trace_cons] at hv
    rcases List.mem_append.mp hv with hv | hv
    · exact hopened v (Option.mem_toList.mp hv)
    · exact h.openedFor v hv
  · rw [trace_cons] at hv
    rcases List.mem_append.mp hv with hv | hv
    · exact hanswered v (Option.mem_toList.mp hv)
    · exact h.answered v hv

/-- A move that has nothing to do with starting the kind adds nothing. It may answer a call,
but with a watcher that was known before. -/
theorem Once.aside (h : Once g w (s.perform m) moves begins verbs) (hm : Aside g s m)
    (hknown : ∀ v, s.seenWatcher? g = some v → v = w) :
    Once g w s (m :: moves) begins verbs := by
  have hcons := h.cons (s := s) (m := m) (fun v hv => ?_) fun v hv => hknown v (hm.answered v hv)
  · rwa [hm.begun, hm.asked] at hcons
  · rw [hm.openedFor] at hv
    cases hv

/-! ## After the start -/

/-- Nothing more is done for a kind that is settled, as long as its watcher runs. Every
move is aside, by induction on the run: the watcher that runs at the end has run at each
point. -/
theorem Settled.once (h : Settled s g w) (hs : Streams s)
    (hrun : (s.runMoves moves).isRunning w = true) : Once g w s moves [] [] := by
  induction moves generalizing s with
  | nil => exact ⟨rfl, rfl, fun _ hv => absurd hv List.not_mem_nil,
      fun _ hv => absurd hv List.not_mem_nil⟩
  | cons m moves ih =>
    obtain ⟨watcher, hget, -⟩ := h.marked
    obtain ⟨watcher', hget', -⟩ := (perform_grows s m).later hget
    have hafter : (s.perform m).isRunning w = true := (run_grows _ moves).running hget' hrun
    have hnow : s.isRunning w = true := (perform_grows s m).running hget hafter
    obtain ⟨haside, hsettled⟩ := h.perform hs hafter
    refine (ih hsettled (hs.perform m) hrun).aside haside fun v hv => ?_
    rw [h.seenWatcher? hs hnow] at hv
    exact (Option.some.inj hv).symm

/-! ## Within the start -/

/-- A call that comes to await a relist has asked for all rights. There is then nothing left
that the rest of the run could ask for. -/
theorem Awaits.left (h : Awaits s c t w s') :
    (s.call c).left = [] ∧ Cache.asked g s (.advance c) = none := by
  cases h with
  | opening hcall =>
    rw [Cache.asked, hcall]
    exact ⟨rfl, rfl⟩
  | waiting hcall =>
    rw [Cache.asked, hcall]
    exact ⟨rfl, rfl⟩

/-- A stream that is opened has the next number, and there is one watcher more than
before. -/
theorem openedFor_inv (h : Cache.openedFor g s (.advance c) = some v) :
    v = s.watchers.length ∧ s.watchers.length < (s.advance c).watchers.length := by
  change (if _ then (if _ then _ else _) else none) = some v at h
  split at h
  · split at h
    · next hmore => exact ⟨(Option.some.inj h).symm, hmore⟩
    · cases h
  · cases h

/-- The stream that it opens, if it does, is that of the watcher it awaits. The stream may
also be one that ran already; then nothing is opened for the kind at all. -/
theorem Awaits.openedFor (h : Awaits s c t w s')
    (hv : Cache.openedFor g s (.advance c) = some v) : v = w := by
  obtain ⟨rfl, hmore⟩ := openedFor_inv hv
  rcases (s.advance_cases c).watchers with hsame | ⟨t, r, access, hcall, hnew⟩
  · omega
  · cases h with
    | opening hcall' =>
      obtain ⟨-, rfl, -⟩ := Call.probing.inj (hcall.symm.trans hcall')
      rcases hrun : s.runningStream? r.streamName with _ | u
      · obtain ⟨cluster, watcher, heq, -⟩ := watcherFor_opened hrun
        rw [heq]
      · rw [watcherFor_running hrun] at hnew
        exact absurd hmore (hnew ▸ Nat.lt_irrefl _)
    | waiting hcall' =>
      rw [hcall] at hcall'
      cases hcall'

/-- A call that starts a kind and goes on need not ask again for what it has asked for, and
marks nothing. Read from the end, this adds up to all three rights over the whole start. -/
theorem Leads.left {leg : Leg} (h : Leads s c leg) (hnone : leg.2 = none)
    (ht : (s.call c).starting? = some t) :
    (s.call c).left = (Cache.asked t.query.gvk s (.advance c)).toList ++ (leg.1.call c).left ∧
      leg.1.seen = s.seen := by
  have hticket := ticket?_of_starting ht
  cases h with
  | resting hcall =>
    rw [hcall] at ht
    cases ht
  | joined hcall | begun hcall =>
    rw [hcall] at ht
    cases ht
  | resolved hcall hs' =>
    rw [call_of_move hs'.apart hticket, Cache.asked, hcall]
    exact ⟨rfl, hs'.seen⟩
  | @reviewed u r access access' verb left s' hcall hs' =>
    rw [hcall] at ht
    obtain rfl := Option.some.inj ht
    have hasked : Cache.asked u.query.gvk s (.advance c) = some verb := by
      simp only [Cache.asked, hcall, if_true]
    rw [call_of_move hs'.apart hticket, hasked, hcall]
    exact ⟨rfl, hs'.seen⟩
  | waited ha =>
    have hasked := (ha.left (g := t.query.gvk)).2
    rw [call_of_move ha.apart hticket, hasked, ha.left (g := t.query.gvk) |>.1]
    exact ⟨rfl, ha.seen⟩
  | found | refused | shared | failed | expired | succeeded => cases hnone

/-- A call that awaits a relist keeps to its watcher, and is the one that opens a stream. So
of one start, at most one stream is opened, and it is that of the watcher in the point of
the call. -/
theorem Leads.awaits {leg : Leg} (h : Leads s c leg) (hnone : leg.2 = none)
    (ht : (s.call c).starting? = some t) :
    (∀ v, Cache.openedFor g s (.advance c) = some v →
      ∃ deadline, leg.1.call c = .syncing t v deadline) ∧
    ∀ u v deadline, s.call c = .syncing u v deadline →
      ∃ deadline, leg.1.call c = .syncing t v deadline := by
  have hopened : ∀ {v}, Cache.openedFor g s (.advance c) = some v →
      ∃ t r access, s.call c = .probing t r access [] := by
    intro v hv
    obtain ⟨-, hmore⟩ := openedFor_inv hv
    rcases (s.advance_cases c).watchers with hsame | ⟨t, r, access, hcall, -⟩
    · omega
    · exact ⟨t, r, access, hcall⟩
  cases h with
  | resting hcall =>
    rw [hcall] at ht
    cases ht
  | joined hcall | begun hcall =>
    rw [hcall] at ht
    cases ht
  | resolved hcall hs' | reviewed hcall hs' =>
    refine ⟨fun v hv => ?_, fun u v deadline hsync => ?_⟩
    · obtain ⟨t, r, access, hcall'⟩ := hopened hv
      rw [hcall] at hcall'
      cases hcall'
    · rw [hcall] at hsync
      cases hsync
  | @waited u w s' deadline ha =>
    obtain rfl := Option.some.inj (ha.starting.symm.trans ht)
    have hcall : (s'.setCall c (.syncing u w deadline)).call c = .syncing u w deadline :=
      call_of_move ha.apart (ticket?_of_starting ht)
    refine ⟨fun v hv => ?_, fun u' v deadline' hsync => ?_⟩
    · obtain rfl := ha.openedFor hv
      exact ⟨deadline, hcall⟩
    · cases ha with
      | opening hcall' =>
        rw [hcall'] at hsync
        cases hsync
      | waiting hcall' =>
        obtain ⟨-, rfl, -⟩ := Call.syncing.inj (hcall'.symm.trans hsync)
        exact ⟨deadline, hcall⟩
  | found | refused | shared | failed | expired | succeeded => cases hnone

/-- A call that starts a kind is answered with the watcher that it awaits. The stream may
have been opened in this very leg, when it ran already and its relist was there. -/
theorem Leads.awaited {leg : Leg} (h : Leads s c leg) (hw : leg.2 = some (.ok w))
    (ht : (s.call c).starting? = some t) : ∃ s', Awaits s c t w s' := by
  cases h with
  | succeeded ha hget hsynced =>
    obtain rfl := Option.some.inj (ha.starting.symm.trans ht)
    obtain rfl := Except.ok.inj (Option.some.inj hw)
    exact ⟨_, ha⟩
  | found hcall | shared hcall =>
    rw [hcall] at ht
    cases ht
  | refused | failed | expired => cases hw
  | resting | joined | begun | resolved | reviewed | waited => cases hw

/-- Whoever starts a kind does not begin to. -/
theorem begun_eq_none (hc : s.starts c g = true) : begun g s (.advance c) = none := by
  refine if_neg ?_
  rw [hc]
  exact Bool.false_ne_true

/-- A leg that goes on, within the start of a kind. What is left to ask for after the leg,
with what the leg asks for in front, is what was left before. -/
theorem once_of_onward (hc : s.starts c g = true) (hleg : s.current c = (s', none))
    (hawaits : ∀ t v deadline, (s.perform (.advance c)).call c = .syncing t v deadline → v = w)
    (honce : Once g w (s.perform (.advance c)) moves [] ((s.perform (.advance c)).call c).left) :
    (∀ t v deadline, s.call c = .syncing t v deadline → v = w) ∧
      Once g w s (.advance c :: moves) [] (s.call c).left := by
  obtain ⟨t, ht, rfl⟩ := starts_iff.mp hc
  have hleads : Leads s c (s', none) := hleg ▸ s.current_leads c
  have hs' : s.perform (.advance c) = s' := advance_onward (ticket?_of_starting ht) hleg
  obtain ⟨hopened, hkept⟩ := hleads.awaits (g := t.query.gvk) rfl ht
  have hcons := honce.cons (s := s) (m := .advance c) (fun v hv => ?_) fun v hv => ?_
  · refine ⟨fun u v deadline hcall => ?_, ?_⟩
    · obtain ⟨later, hcall'⟩ := hkept u v deadline hcall
      exact hawaits t v later (hs' ▸ hcall')
    · have hbegun : begun t.query.gvk s (.advance c) = none := begun_eq_none hc
      rw [hbegun, hs', ← (hleads.left rfl ht).1] at hcons
      exact hcons
  · obtain ⟨deadline, hcall⟩ := hopened v hv
    exact hawaits t v deadline (hs' ▸ hcall)
  · obtain ⟨e, he, -, hok⟩ := answered_inv hv
    obtain rfl := Move.advance.inj he
    rw [hleg] at hok
    cases hok

/-- The leg that ends the start of a kind with a watcher. From here on the kind is settled,
and `Settled.once` says what becomes of the rest of the run. -/
theorem once_of_answered (hs : Streams s) (hturns : Turns s) (hc : s.starts c g = true)
    (hleg : (s.current c).2 = some (.ok w))
    (hrun : ((s.perform (.advance c)).runMoves moves).isRunning w = true) :
    (∀ t v deadline, s.call c = .syncing t v deadline → v = w) ∧
      Once g w s (.advance c :: moves) [] (s.call c).left := by
  obtain ⟨t, ht, rfl⟩ := starts_iff.mp hc
  obtain ⟨s', ha⟩ := (s.current_leads c).awaited hleg ht
  have hended : ended t.query.gvk s (.advance c) = some (c, some w) := ended_of_answer hc hleg
  have honce := (settled_of_ended hs hturns hended).once (hs.perform _) hrun
  have hcons := honce.cons (s := s) (m := .advance c) (fun v hv => ha.openedFor hv) fun v hv => ?_
  · obtain ⟨hleft, hasked⟩ := ha.left (g := t.query.gvk)
    have hbegun : begun t.query.gvk s (.advance c) = none := begun_eq_none hc
    rw [hbegun, hasked] at hcons
    rw [hleft]
    refine ⟨fun u v deadline hcall => ?_, hcons⟩
    cases ha with
    | opening hcall' =>
      rw [hcall'] at hcall
      cases hcall
    | waiting hcall' =>
      obtain ⟨-, rfl, -⟩ := Call.syncing.inj (hcall.symm.trans hcall')
      rfl
  · obtain ⟨e, he, -, hok⟩ := answered_inv hv
    obtain rfl := Move.advance.inj he
    exact Except.ok.inj (Option.some.inj (hok.symm.trans hleg))

/-- The rest of a run after a call has begun to start a kind. By induction on the run: the
moves of that call are the legs above, all others are aside, and no other call can begin
before this one has ended. -/
theorem once_of_starts (hs : Reachable s) (hc : s.starts c g = true)
    (hseen : s.seen.lookup g = none)
    (hended : (trace (ended g) s moves).head? = some (d, some w))
    (hrun : (s.runMoves moves).isRunning w = true) :
    d = c ∧ (∀ t v deadline, s.call c = .syncing t v deadline → v = w) ∧
      Once g w s moves [] (s.call c).left := by
  -- every leg of the call uses up some of what it has left to ask for
  induction moves generalizing s with
  | nil => cases hended
  | cons m moves ih =>
    have hstreams := streams_of_reachable hs
    have hturns := turns_of_reachable hs
    have hunknown := seenWatcher?_eq_none hseen
    rcases begun_or_aside g s m with ⟨e, he⟩ | ⟨e, he, hm⟩ | haside
    · -- nobody else can begin
      rw [idle_of_begun hs he c] at hc
      cases hc
    · obtain rfl := hturns.exclusive he hc
      rw [trace_cons] at hended
      rcases hm with rfl | rfl
      · obtain ⟨t, ht, rfl⟩ := starts_iff.mp hc
        have hend : ended t.query.gvk s (.advance e) =
            (s.current e).2.map fun answer => (e, answer.toOption) := if_pos hc
        rw [hend] at hended
        rcases hleg : s.current e with ⟨s', _ | err | v⟩ <;> rw [hleg] at hended
        · have hstarts := starts_of_onward hc hleg
          have hsame : (s.perform (.advance e)).seen = s.seen := by
            rw [perform, advance_onward (ticket?_of_starting ht) hleg]
            exact (Leads.left (hleg ▸ s.current_leads e) rfl ht).2
          obtain ⟨hde, hawaits, honce⟩ := ih (hs.perform _) hstarts (hsame ▸ hseen) hended hrun
          exact ⟨hde, once_of_onward hc hleg hawaits honce⟩
        · cases hended
        · obtain ⟨rfl, rfl⟩ : e = d ∧ v = w := by
            cases hended
            exact ⟨rfl, rfl⟩
          exact ⟨rfl, once_of_answered hstreams hturns hc (congrArg (·.2) hleg) hrun⟩
      · -- a dropped call ends without a watcher
        have hdropped : ended g s (.cancel e) = some (e, none) := if_pos hc
        rw [hdropped] at hended
        cases hended
    · -- the call and what is known of the kind stay as they are
      have hcall := haside.call c hc
      have hafter : (s.perform m).starts c g = true := by
        rw [Cache.starts, hcall]
        exact hc
      rw [trace_cons, haside.ended] at hended
      obtain ⟨hdc, hawaits, honce⟩ := ih (hs.perform m) hafter (haside.seen.trans hseen) hended hrun
      rw [hcall] at hawaits honce
      refine ⟨hdc, hawaits, honce.aside haside fun v hv => ?_⟩
      rw [hunknown] at hv
      cases hv

/-! ## Before the start -/

/-- A whole run in which the first start of a kind ends with a watcher. Before that start
nobody is answered with a watcher of the kind, since it is not marked. -/
theorem once_of_fresh (hs : Reachable s) (hidle : ∀ c, s.starts c g = false)
    (hseen : s.seen.lookup g = none)
    (hended : (trace (ended g) s moves).head? = some (d, some w))
    (hrun : (s.runMoves moves).isRunning w = true) : Once g w s moves [d] Verb.required := by
  -- up to the move at which a call begins, nothing concerns the kind
  induction moves generalizing s with
  | nil => cases hended
  | cons m moves ih =>
    have hunknown := seenWatcher?_eq_none hseen
    have hnone : ended g s m = none := ended_eq_none fun c _ => hidle c
    rw [trace_cons, hnone] at hended
    rcases begun_or_aside g s m with ⟨e, he⟩ | ⟨e, he, -⟩ | haside
    · obtain ⟨rfl, -, hbegins, t, hcall, -, -, hmoved⟩ := begun_inv he
      have hpoint : (s.perform (.advance e)).call e = .resolving t := by
        rw [hmoved]
        exact call_of_move ⟨rfl, rfl, rfl⟩ (by rw [hcall]; rfl)
      have hsame : (s.perform (.advance e)).seen = s.seen := by
        rw [hmoved]
        rfl
      obtain ⟨rfl, -, honce⟩ := once_of_starts (hs.perform _) hbegins (hsame ▸ hseen) hended hrun
      rw [hpoint] at honce
      have hopened : openedFor g s (.advance d) = none := openedFor_eq_none fun c _ => hidle c
      have hasked : asked g s (.advance d) = none := asked_eq_none fun c _ => hidle c
      have hcons := honce.cons (fun v hv => by rw [hopened] at hv; cases hv) fun v hv => ?_
      · rwa [he, hasked] at hcons
      · obtain ⟨c, -, hkind, hok⟩ := answered_inv hv
        rcases (s.current_leads c).known hok hkind with hknown | hstarts
        · rw [hunknown] at hknown
          cases hknown
        · rw [hidle c] at hstarts
          cases hstarts
    · rw [hidle e] at he
      cases he
    · have honce := ih (hs.perform m) (haside.idle hidle) (haside.seen.trans hseen) hended hrun
      refine honce.aside haside fun v hv => ?_
      rw [hunknown] at hv
      cases hv

/-! ## Streams have different watchers -/

/-- A move opens at most one stream, whichever way it is opened. -/
theorem perform_length (s : Cache) (m : Move) :
    (s.perform m).watchers.length = s.watchers.length ∨
      (s.perform m).watchers.length = s.watchers.length + 1 := by
  have hfor : ∀ r, (s.watcherFor r).1.watchers.length = s.watchers.length ∨
      (s.watcherFor r).1.watchers.length = s.watchers.length + 1 := by
    intro r
    rcases hrun : s.runningStream? r.streamName with _ | u
    · obtain ⟨cluster, watcher, heq, -⟩ := watcherFor_opened hrun
      rw [heq]
      exact .inr List.length_append
    · rw [watcherFor_running hrun]
      exact .inl rfl
  cases m with
  | advance c =>
    rcases (s.advance_cases c).watchers with hsame | ⟨t, r, access, -, hnew⟩
    · exact .inl hsame
    · rw [perform, hnew]
      exact hfor r
  | cancel c =>
    obtain ⟨slots, heq⟩ := s.cancel_eq c
    rw [perform, heq]
    exact .inl rfl
  | watch w m => exact .inl (List.length_modify ..)
  | gauge w =>
    obtain ⟨meters, heq⟩ := s.gaugeOf_eq w
    rw [perform, heq]
    exact .inl rfl
  | watcherFor r => exact hfor r
  | standalone r cap =>
    obtain ⟨cluster, watcher, heq, -⟩ := s.spawn_eq r cap false
    refine .inr ?_
    show (s.standalone r cap).1.watchers.length = _
    rw [Cache.standalone, heq]
    exact List.length_append
  | shutDown => exact .inl (List.length_map ..)
  | submit | tick | program => exact .inl rfl

/-- The streams that a run opens have the next numbers. Since none of these occurs twice, a
watcher that is answered was opened exactly once. -/
theorem trace_opened (s : Cache) (moves : List Move) :
    ∃ n, (s.runMoves moves).watchers.length = s.watchers.length + n ∧
      trace opened s moves = List.range' s.watchers.length n := by
  induction moves generalizing s with
  | nil => exact ⟨0, rfl, rfl⟩
  | cons m moves ih =>
    obtain ⟨n, hlength, htrace⟩ := ih (s.perform m)
    rcases perform_length s m with hsame | hmore
    · refine ⟨n, ?_, ?_⟩
      · rw [runMoves_cons, hlength, hsame]
      · have hnone : opened s m = none := if_neg (by omega)
        rw [trace_cons, htrace, hnone, hsame]
        rfl
    · refine ⟨n + 1, ?_, ?_⟩
      · rw [runMoves_cons, hlength, hmore]
        omega
      · have hsome : opened s m = some s.watchers.length := if_pos (by omega)
        rw [trace_cons, htrace, hsome, hmore, List.range'_succ]
        rfl

end

/-- At any time, at most one call is starting a kind. Before a kind is started
again, the start before has failed or was dropped, or the watcher that it ended
with runs no more. And if the first start ends with a watcher that keeps running,
there is no other one: each right is asked for once, the watcher's stream is opened
once and no other one on behalf of the kind, and all answers are this watcher. -/
theorem first_touch (g : GroupVersionKind) :
    (∀ s, Reachable s → ∀ c d, s.starts c g = true → s.starts d g = true → c = d) ∧
    (∀ s, Reachable s → ∀ m between m' c d, begun g s m = some c →
      begun g ((s.perform m).runMoves between) m' = some d →
      ∃ before e after outcome, between = before ++ e :: after ∧
        ended g ((s.perform m).runMoves before) e = some (c, outcome) ∧
        ∀ w, outcome = some w → ((s.perform m).runMoves between).isRunning w = false) ∧
    ∀ cluster settings moves c w,
      (trace (ended g) (starting cluster settings) moves).head? = some (c, some w) →
      ((starting cluster settings).runMoves moves).isRunning w = true →
      trace (begun g) (starting cluster settings) moves = [c] ∧
      trace (asked g) (starting cluster settings) moves = Verb.required ∧
      (trace opened (starting cluster settings) moves).count w = 1 ∧
      (∀ v ∈ trace (openedFor g) (starting cluster settings) moves, v = w) ∧
      ∀ v ∈ trace (answered g) (starting cluster settings) moves, v = w := by
  refine ⟨fun s hs c d hc hd => (turns_of_reachable hs).exclusive hc hd,
    fun s hs m between m' c d => ended_between hs, fun cluster settings moves c w hended hrun => ?_⟩
  have hs : Reachable (starting cluster settings) := reachable_run cluster settings []
  obtain ⟨hbegun, hasked, hopened, hanswered⟩ :=
    once_of_fresh hs (fun _ => rfl) rfl hended hrun
  refine ⟨hbegun, hasked, ?_, hopened, hanswered⟩
  -- the watcher is there at the end, so its number is among those of the streams
  obtain ⟨n, hlength, htrace⟩ := trace_opened (starting cluster settings) moves
  obtain ⟨watcher, hget, -⟩ := isRunning_iff.mp hrun
  obtain ⟨hw, -⟩ := List.getElem?_eq_some_iff.mp hget
  rw [htrace, List.count_range_1', if_pos ⟨Nat.zero_le _, hlength ▸ hw⟩]

/-- Two calls ask for pods. The first one starts the kind, and the second one, which
came in the middle of it, shares the watcher. -/
def sharing : List Move :=
  [.submit (.use .handOut (.ofKind Watcher.pods.gvk)), .advance 0,
    .submit (.use .handOut (.ofKind Watcher.pods.gvk)), .advance 1] ++ search 0 ++
    [.watch 0 (.batch 1), .advance 0, .advance 1]

/-- A call that has its turn. -/
def turn : List Move :=
  [.submit (.use .handOut (.ofKind Watcher.pods.gvk)), .advance 0]

/-- It is dropped, and another one has its turn. -/
def handOver : List Move :=
  [.cancel 0, .submit (.use .handOut (.ofKind Watcher.pods.gvk)), .advance 1]

theorem first_touch_pods :
    (∃ before e after outcome, handOver = before ++ e :: after ∧
      ended Watcher.pods.gvk ((((starting onePod .standard).runMoves turn).perform
        (.advance 0)).runMoves before) e = some (0, outcome) ∧
      ∀ w, outcome = some w → ((((starting onePod .standard).runMoves turn).perform
        (.advance 0)).runMoves handOver).isRunning w = false) ∧
    trace (begun Watcher.pods.gvk) (starting onePod .standard) sharing = [0] ∧
    trace (asked Watcher.pods.gvk) (starting onePod .standard) sharing = Verb.required ∧
    (trace opened (starting onePod .standard) sharing).count 0 = 1 ∧
    (∀ v ∈ trace (openedFor Watcher.pods.gvk) (starting onePod .standard) sharing, v = 0) ∧
    ∀ v ∈ trace (answered Watcher.pods.gvk) (starting onePod .standard) sharing, v = 0 := by
  obtain ⟨-, hbetween, honce⟩ := first_touch Watcher.pods.gvk
  refine ⟨?_, honce onePod .standard sharing 0 0 rfl rfl⟩
  exact hbetween _ (reachable_run onePod .standard turn) (.advance 0) handOver (.advance 1) 0 1
    rfl rfl

end Cache

end KindCache
