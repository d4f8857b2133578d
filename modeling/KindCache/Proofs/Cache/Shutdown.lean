import KindCache.Proofs.Cache.Permission
import KindCache.Proofs.Cache.Queues
import KindCache.Proofs.Watcher.History

/-!
# After the shutdown

A cache that was told to stop turns away whoever comes later, but a call that waits
for its turn at that time is not asked again: once it has its turn, it starts its
kind.

* `Winding` — how a call may go on after the shutdown; `run_winding` says that every
  call does so;
* `Halting` — all watchers of the cache have been asked to stop, and so are those that
  come later;
* `exists_turn` — a call that waits for its turn may come to it, with its kind not
  running;
* `begins_after_shutDown` — hence those calls, and no others, may begin to start a
  kind, and what becomes of that;
* `queued_start` — the case occurs.
-/

namespace KindCache

/-- How a call may go on once the cache was told to stop. It takes no part in a slot
if it has not done so before, and waits for no relist. -/
inductive Winding : Call → Call → Prop where
  /-- it does not move -/
  | stays (call : Call) : Winding call call
  /-- it takes part in no slot -/
  | outside {call call' : Call} (h : call'.ticket? = none) : Winding call call'
  /-- it has got its turn and begins to start its kind -/
  | begins {call : Call} {t : Ticket} (h : call.ticket? = some t) : Winding call (.resolving t)
  /-- it asks for the rights on the resource of its kind -/
  | asks {call : Call} {t : Ticket} (h : call.ticket? = some t) (r : Resource)
    (access : Access) (left : List Verb) : Winding call (.probing t r access left)

namespace Winding

variable {a b d : Call} {t : Ticket}

/-- Whoever takes part in a slot has done so with the same ticket. In particular nobody who
was outside at the shutdown gets into a slot later. -/
theorem ticket? (h : Winding a b) (hb : b.ticket? = some t) : a.ticket? = some t := by
  cases h with
  | stays => exact hb
  | outside h =>
    rw [h] at hb
    cases hb
  | begins h | asks h =>
    cases hb
    exact h

/-- Winding up goes on: what may come after it is what may come in it. -/
theorem trans (h : Winding a b) (h' : Winding b d) : Winding a d := by
  cases h' with
  | stays => exact h
  | outside h' => exact .outside h'
  | begins h' => exact .begins (h.ticket? h')
  | asks h' r access left => exact .asks (h.ticket? h') r access left

/-- Whoever waits for its turn has waited for it, since the only way to this point is
through joining, and that is what the shutdown has closed. -/
theorem queued (h : Winding a b) (hb : b = .queued t) : a = .queued t := by
  subst hb
  cases h with
  | stays => rfl
  | outside h => cases h

/-- Whoever awaits a relist was starting its kind. A call that only begins after the
shutdown never gets to this point. -/
theorem syncing {w : WatcherId} {deadline : Option Nat} (h : Winding a b)
    (hb : b = .syncing t w deadline) : a.starting? = some t := by
  subst hb
  cases h with
  | stays => rfl
  | outside h => cases h

end Winding

namespace Cache

/-- All watchers of a cache have been asked to stop. -/
def Halting (watchers : List Watcher) : Prop :=
  ∀ watcher ∈ watchers, watcher.tied = true → watcher.stopRequested = true

/-- A leg has asked the cluster nothing, opened no stream and marked no kind. -/
structure Quiet (s s' : Cache) : Prop extends Still s s' where
  cluster : s'.cluster = s.cluster
  registry : s'.registry = s.registry

section

variable {s s' : Cache} {c d : CallId} {t : Ticket} {w : WatcherId} {r : Resource}
  {g : GroupVersionKind} {m : Move}

/-! ## The shutdown lasts -/

/-- No leg of a call has a hand in the shutdown. -/
theorem Advance.shutdown (h : Advance s c s') : s'.shutdown = s.shutdown := by
  cases h with
  | idle => rfl
  | onward hleg => exact (Leads.steady (hleg ▸ s.current_leads c)).shutdown
  | answered herrand hleg hend =>
    exact hend.shutdown.trans (Leads.steady (hleg ▸ s.current_leads c)).shutdown
  | aside hcall hend => exact hend.shutdown

/-- Only a shutdown tells the cache to stop. -/
theorem perform_shutdown (h : m ≠ .shutDown) : (s.perform m).shutdown = s.shutdown := by
  rcases s.leg_or_outward m with ⟨c, rfl⟩ | hm
  · exact (s.advance_cases c).shutdown
  · exact hm.shutdown h

/-- There is no way back: a cache that was told to stop is so after every run. -/
theorem run_shutdown (hdown : s.shutdown = true) (moves : List Move) :
    (s.runMoves moves).shutdown = true := by
  induction moves generalizing s with
  | nil => exact hdown
  | cons m moves ih =>
    refine ih ?_
    by_cases hm : m = .shutDown
    · subst hm
      rfl
    · rw [perform_shutdown hm, hdown]

/-! ## How calls go on -/

/-- After the shutdown a new call is answered at once: with the watcher if its kind is
running, and otherwise it is turned away before it takes part in a slot. -/
theorem current_fresh (hdown : s.shutdown = true) {use : Use} {q : Query}
    (h : s.call c = .fresh (.use use q)) :
    (s.current c).1 = s ∧ (s.current c).2 ≠ none := by
  simp only [current, h, approach]
  split
  · exact ⟨rfl, Option.some_ne_none _⟩
  · rw [if_pos hdown]
    exact ⟨rfl, Option.some_ne_none _⟩

theorem syncStatus_ne_waiting (watcher : Watcher) : watcher.syncStatus true ≠ .waiting := by
  simp only [Watcher.syncStatus, if_true]
  split <;> exact Watcher.SyncStatus.noConfusion

/-- After the shutdown nobody waits for a relist. The shutdown is one of the things that a
waiter listens to, so it answers if nothing else does. -/
theorem awaitSync_ne_none (hdown : s.shutdown = true) (c : CallId) (t : Ticket)
    (w : WatcherId) (deadline : Option Nat) : (s.awaitSync c t w deadline).2 ≠ none := by
  simp only [awaitSync, hdown]
  split
  · exact Option.some_ne_none _
  · next watcher hget =>
    split
    · exact Option.some_ne_none _
    · exact Option.some_ne_none _
    · next hwaiting => exact absurd hwaiting (syncStatus_ne_waiting watcher)

/-- So a search that comes to a relist is over, be it that it has just opened the stream or
that it has waited before. -/
theorem Awaits.answers (h : Awaits s c t w s') (hdown : s.shutdown = true) :
    (s.current c).2 ≠ none := by
  have hdown' := h.steady.shutdown.trans hdown
  cases h with
  | @opening r access hcall =>
    simp only [current, hcall, probeRights]
    split
    · exact Option.some_ne_none _
    · exact awaitSync_ne_none hdown' c t _ _
  | waiting hcall =>
    simp only [current, hcall]
    exact awaitSync_ne_none hdown c t w _

/-- A leg of a search that goes on winds it up. The two legs that would not, joining and
awaiting a relist, are those that are answered at once now. -/
theorem onward_winding (hdown : s.shutdown = true) (hleg : s.current c = (s', none)) :
    Winding (s.call c) (s'.call c) := by
  have hnone : (s.current c).2 = none := by rw [hleg]
  have hleads : Leads s c (s', none) := hleg ▸ s.current_leads c
  cases hleads with
  | resting => exact .stays _
  | joined hcall => exact absurd hnone (current_fresh hdown hcall).2
  | @begun t hcall =>
    have ht : (s.call c).ticket? = some t := by
      rw [hcall]
      rfl
    rw [call_of_move ⟨rfl, rfl, rfl⟩ ht]
    exact .begins ht
  | @resolved t r s' hcall hs' =>
    have ht : (s.call c).ticket? = some t := by
      rw [hcall]
      rfl
    rw [call_of_move hs'.apart ht]
    exact .asks ht ..
  | @reviewed t r access access' verb left s' hcall hs' =>
    have ht : (s.call c).ticket? = some t := by
      rw [hcall]
      rfl
    rw [call_of_move hs'.apart ht]
    exact .asks ht ..
  | waited ha => exact absurd hnone (ha.answers hdown)

/-- The same for all legs: whoever is answered or pauses is out of all slots. -/
theorem Advance.winding (h : Advance s c s') (hdown : s.shutdown = true) :
    Winding (s.call c) (s'.call c) := by
  cases h with
  | idle => exact .stays _
  | onward hleg => exact onward_winding hdown hleg
  | answered herrand hleg hend => exact .outside (ticket?_of_errand hend.errand?)
  | aside hcall hend => exact .outside (ticket?_of_errand hend.errand?)

/-- A move of another call does not concern the call, one that drops it takes it out of its
slot, and a call that is made starts outside. -/
theorem perform_winding (hdown : s.shutdown = true) (m : Move) (c : CallId) :
    Winding (s.call c) ((s.perform m).call c) := by
  by_cases hadvance : m = .advance c
  · subst hadvance
    exact (s.advance_cases c).winding hdown
  · by_cases hcancel : m = .cancel c
    · subst hcancel
      refine .outside ?_
      rw [perform, call_cancel, if_pos rfl]
      rfl
    · rcases perform_other (s := s) hadvance hcancel with ⟨hcall, -⟩ | ⟨-, -, request, hcall⟩
      · rw [hcall]
        exact .stays _
      · refine .outside ?_
        rw [hcall]
        rfl

/-- **After the shutdown, all calls wind up.** `Winding` is transitive, so one move at a
time is enough. -/
theorem run_winding (hdown : s.shutdown = true) (moves : List Move) (c : CallId) :
    Winding (s.call c) ((s.runMoves moves).call c) := by
  induction moves generalizing s with
  | nil => exact .stays _
  | cons m moves ih =>
    exact (perform_winding hdown m c).trans (ih (run_shutdown hdown [m]))

/-! ## How watchers go on -/

/-- Watchers that go on stay asked to stop, and a watcher does not become tied to a cache
later. -/
theorem Halting.evolve {ws ws' : List Watcher} (h : Halting ws) (hws : Evolves ws ws') :
    Halting ws' := by
  intro watcher' hmem htied
  obtain ⟨i, hget'⟩ := List.mem_iff_getElem?.mp hmem
  obtain ⟨watcher, hget, hlater⟩ := hws.before hget'
  obtain ⟨moves, hran⟩ := hws.ran i watcher hget
  obtain rfl := Option.some.inj (hran.symm.trans hget')
  exact Watcher.run_stopRequested
    (h watcher (List.mem_of_getElem? hget) (hlater.tied.symm.trans htied)) moves

/-- A watcher that comes along has to have been asked itself. -/
theorem Halting.snoc {ws : List Watcher} {watcher : Watcher} (h : Halting ws)
    (hnew : watcher.tied = true → watcher.stopRequested = true) : Halting (ws ++ [watcher]) :=
  List.forall_mem_append.mpr ⟨h, List.forall_mem_singleton.mpr hnew⟩

/-- A stream that is opened after the shutdown is asked to stop from the start, for the
watcher is given the token of the cache, and that is cancelled. -/
theorem Halting.watcherFor (h : Halting s.watchers) (hdown : s.shutdown = true) (r : Resource) :
    Halting (s.watcherFor r).1.watchers := by
  rcases hrun : s.runningStream? r.streamName with _ | w
  · obtain ⟨watcher, hwatchers, -, -, hstop⟩ := watcherFor_new hrun
    rw [hwatchers]
    exact h.snoc (hstop hdown)
  · rw [watcherFor_running hrun]
    exact h

/-- A leg of a search opens at most that one stream. -/
theorem Halting.leg (h : Halting s.watchers) (hdown : s.shutdown = true) {leg : Leg}
    (hleg : Leads s c leg) : Halting leg.1.watchers := by
  rcases hleg.watchers with hsame | ⟨t, r, access, -, hsame⟩
  · exact hsame ▸ h
  · exact hsame ▸ h.watcherFor hdown r

/-- What comes after the search, a list or a read, only lets the watchers go on. -/
theorem Halting.advance (h : Halting s.watchers) (hdown : s.shutdown = true)
    (hs' : Advance s c s') : Halting s'.watchers := by
  cases hs' with
  | idle => exact h
  | onward hleg => exact h.leg hdown (hleg ▸ s.current_leads c)
  | answered herrand hleg hend =>
    exact (h.leg hdown (hleg ▸ s.current_leads c)).evolve hend.evolves
  | aside hcall hend => exact h.evolve hend.evolves

/-- A move of a cache that was told to stop preserves the invariant. Watchers beside the
cache are opened freely, but they are not tied to it. -/
theorem Halting.perform (h : Halting s.watchers) (hdown : s.shutdown = true) (m : Move) :
    Halting (s.perform m).watchers := by
  cases m with
  | advance c => exact h.advance hdown (s.advance_cases c)
  | cancel c =>
    obtain ⟨slots, heq⟩ := s.cancel_eq c
    rw [Cache.perform, heq]
    exact h
  | watch w m => exact h.evolve (.modify _ _ fun _ => ⟨[m], rfl⟩)
  | gauge w =>
    obtain ⟨meters, heq⟩ := s.gaugeOf_eq w
    rw [Cache.perform, heq]
    exact h
  | watcherFor r => exact h.watcherFor hdown r
  | standalone r cap =>
    obtain ⟨watcher, hwatchers, -, hstop⟩ := s.spawn_new r cap false
    rw [Cache.perform, standalone, hwatchers]
    exact h.snoc (hstop hdown)
  | shutDown => exact h.evolve (shutDown_evolves s)
  | submit | tick | program => exact h

/-- The shutdown asks all watchers to stop, those that have ended as well. -/
theorem halting_shutDown (s : Cache) : Halting s.shutDown.watchers := by
  intro watcher hmem htied
  obtain ⟨old, -, rfl⟩ := List.mem_map.mp hmem
  by_cases hold : old.tied = true
  · rw [if_pos hold]
    rfl
  · rw [if_neg hold] at htied
    exact absurd htied hold

/-- The invariant begins with the shutdown, so the induction is on the whole run: before
the shutdown there is nothing to show, the shutdown establishes it, and later moves
preserve it. -/
theorem halting_of_reachable (hs : Reachable s) (hdown : s.shutdown = true) :
    Halting s.watchers := by
  refine hs.induction (motive := fun s => s.shutdown = true → Halting s.watchers)
    (fun cluster settings hdown => ?_) (fun s m ih hdown => ?_) hdown
  · cases hdown
  · by_cases hm : m = .shutDown
    · subst hm
      exact halting_shutDown s
    · rw [perform_shutdown hm] at hdown
      exact (ih hdown).perform hdown m

/-! ## How a call comes to its turn -/

/-- A kind is not running any more once its watcher has found that it is asked to stop. The
mark and the entry of the table still lead to the watcher, but a watcher that has ended does
not serve. -/
theorem seenWatcher?_halt (hs : Streams s) (hstop : Halting s.watchers)
    (hw : s.seenWatcher? g = some w) : (s.perform (.watch w .halt)).seenWatcher? g = none := by
  obtain ⟨name, hseen, hlookup, hrun⟩ := seenWatcher?_eq_some.mp hw
  obtain ⟨watcher, hget, hrunning⟩ := isRunning_iff.mp hrun
  obtain ⟨watcher', hget', htied, -⟩ := hs.tabled name w hlookup
  obtain rfl := Option.some.inj (hget.symm.trans hget')
  have hrequested := hstop watcher (List.mem_of_getElem? hget) htied
  have hguard : (watcher.running && watcher.stopRequested) = true := by
    rw [hrunning, hrequested]
    rfl
  have hhalt : watcher.halt = watcher.finish := if_pos hguard
  have hget₁ : (s.perform (.watch w .halt)).watchers[w]? = some watcher.halt := by
    show (s.watchers.modify w _)[w]? = _
    rw [List.getElem?_modify, hget]
    exact congrArg some (if_pos rfl)
  have hended : (s.perform (.watch w .halt)).isRunning w = false := by
    rw [isRunning, hget₁, hhalt]
    rfl
  rcases hnew : (s.perform (.watch w .halt)).seenWatcher? g with _ | v
  · rfl
  · obtain ⟨name', hseen', hlookup', hrun'⟩ := seenWatcher?_eq_some.mp hnew
    obtain rfl := Option.some.inj (hseen.symm.trans hseen')
    obtain rfl := Option.some.inj (hlookup.symm.trans hlookup')
    rw [hended] at hrun'
    cases hrun'

/-- Any calls may be dropped, in one go; the others stay where they are. -/
theorem runMoves_cancel (s : Cache) (ds : List CallId) (c : CallId) :
    (s.runMoves (ds.map .cancel)).call c = if c ∈ ds then .over else s.call c := by
  induction ds generalizing s with
  | nil => rfl
  | cons d ds ih =>
    rw [List.map_cons, runMoves_cons, ih, perform, call_cancel]
    by_cases hc : c ∈ ds
    · rw [if_pos hc, if_pos (List.mem_cons_of_mem d hc)]
    · rw [if_neg hc]
      by_cases hd : c = d
      · rw [if_pos hd, if_pos (hd ▸ List.mem_cons_self)]
      · rw [if_neg hd, if_neg fun hmem => (List.mem_cons.mp hmem).elim hd hc]

/-- Hence a call may be left alone, with everybody else over. -/
theorem exists_alone (s : Cache) (c : CallId) : ∃ moves,
    (s.runMoves moves).call c = s.call c ∧ ∀ d, d ≠ c → (s.runMoves moves).call d = .over := by
  refine ⟨((List.range s.calls.length).filter (· ≠ c)).map .cancel, ?_, fun d hd => ?_⟩
  · rw [runMoves_cancel, if_neg]
    intro hmem
    have hne : c ≠ c := of_decide_eq_true (List.mem_filter.mp hmem).2
    exact hne rfl
  · rw [runMoves_cancel]
    split
    · rfl
    · next hnot =>
      refine call_of_unborn (Nat.le_of_not_lt fun hlt => hnot ?_)
      exact List.mem_filter.mpr ⟨List.mem_range.mpr hlt, decide_eq_true hd⟩

/-- **A call that waits for its turn may come to it.** When the cache was told to stop this
takes no more than that all others go away, which leaves the call at the head of its slot,
and that the watcher of its kind stops, if there is one. -/
theorem exists_turn (hs : Reachable s) (hdown : s.shutdown = true) (h : s.call c = .queued t) :
    ∃ moves, (s.runMoves moves).call c = .queued t ∧
      (s.runMoves moves).hasTurn c t.slot = true ∧
      (s.runMoves moves).seenWatcher? t.query.gvk = none := by
  obtain ⟨moves, hcall, halone⟩ := s.exists_alone c
  rw [h] at hcall
  have hs' : Reachable (s.runMoves moves) := hs.runMoves moves
  have hturn : (s.runMoves moves).hasTurn c t.slot = true := by
    refine (queues_of_reachable hs').hasTurn (by rw [hcall]; rfl) fun d hd => ?_
    by_contra hne
    rw [halone d hne] at hd
    cases hd
  rcases hw : (s.runMoves moves).seenWatcher? t.query.gvk with _ | w
  · exact ⟨moves, hcall, hturn, hw⟩
  · refine ⟨moves ++ [.watch w .halt], ?_⟩
    rw [runMoves_append]
    exact ⟨hcall, hturn, seenWatcher?_halt (streams_of_reachable hs')
      (halting_of_reachable hs' (run_shutdown hdown moves)) hw⟩

/-- A call that has its turn begins to start a kind that is not running. That the cache was
told to stop is asked for before the slot, and not here. -/
theorem begun_of_turn (h : s.call c = .queued t) (hturn : s.hasTurn c t.slot = true)
    (hnone : s.seenWatcher? t.query.gvk = none) :
    begun t.query.gvk s (.advance c) = some c := by
  have ht : (s.call c).ticket? = some t := by
    rw [h]
    rfl
  have hleg : s.current c = (s.setCall c (.resolving t), none) := by
    simp only [current, h, hturn, if_true, enter, hnone]
  have hafter : (s.advance c).call c = .resolving t := by
    rw [advance_onward ht hleg]
    exact call_of_move ⟨rfl, rfl, rfl⟩ ht
  have hnot : s.starts c t.query.gvk = false := by
    rw [starts, h]
    rfl
  have hstarts : (s.advance c).starts c t.query.gvk = true :=
    starts_iff.mpr ⟨t, by rw [hafter]; rfl, rfl⟩
  refine if_pos ?_
  rw [hnot, hstarts]
  rfl

/-- After the shutdown, the calls that waited for their turn, and no others, may begin to
start a kind. One direction is `Winding.queued`, the other one is `exists_turn` with one
more leg. -/
theorem begins_iff (hs : Reachable s) (hdown : s.shutdown = true) :
    (∃ moves, c ∈ trace (begun g) s moves) ↔ ∃ t, s.call c = .queued t ∧ t.query.gvk = g := by
  refine ⟨fun ⟨moves, hmem⟩ => ?_, ?_⟩
  · obtain ⟨before, m, after, -, hbegun⟩ := mem_trace.mp hmem
    obtain ⟨-, -, -, t, hcall, hkind, -⟩ := begun_inv hbegun
    exact ⟨t, (run_winding hdown before c).queued hcall, hkind⟩
  · rintro ⟨t, hcall, rfl⟩
    obtain ⟨moves, hcall', hturn, hnone⟩ := exists_turn hs hdown hcall
    exact ⟨moves ++ [.advance c],
      mem_trace.mpr ⟨moves, .advance c, [], rfl, begun_of_turn hcall' hturn hnone⟩⟩

/-! ## What they do -/

/-- A call outside of all slots does nothing but end: a new one is answered by
`current_fresh`, and the others have no search. -/
theorem current_outside (hdown : s.shutdown = true) (h : (s.call c).ticket? = none) :
    (s.current c).1 = s := by
  have hidle : (s.call c).errand? = none → (s.current c).1 = s := fun herrand => by
    rw [current_of_errand herrand]
  rcases hcall : s.call c with (⟨use, q⟩ | w) | t | t | ⟨t, r, access, left⟩ | ⟨t, w, deadline⟩ |
    ⟨counted, q, name, w, left, wake⟩ | w | _ <;> rw [hcall] at h hidle
  · exact (current_fresh hdown hcall).1
  · exact hidle rfl
  · cases h
  · cases h
  · cases h
  · cases h
  · exact hidle rfl
  · exact hidle rfl
  · exact hidle rfl

/-- What follows a search, if it is not refused, is read off the watcher. It asks nobody. -/
theorem Ends.quiet (h : Ends s c s') : Quiet s s' :=
  ⟨⟨h.evolves.length, h.streams, h.seen⟩, h.cluster, h.registry⟩

/-- So a call outside of all slots changes nothing but its own point and the log. -/
theorem advance_quiet (hdown : s.shutdown = true) (h : (s.call c).ticket? = none) :
    Quiet s (s.advance c) := by
  have hsame := current_outside hdown h
  have hadvance := s.advance_cases c
  generalize s.advance c = s' at hadvance ⊢
  cases hadvance with
  | idle => exact ⟨⟨rfl, rfl, rfl⟩, rfl, rfl⟩
  | onward hleg =>
    rw [hleg] at hsame
    obtain rfl : s' = s := hsame
    exact ⟨⟨rfl, rfl, rfl⟩, rfl, rfl⟩
  | @answered s₁ s' use q answer herrand hleg hend =>
    rw [hleg] at hsame
    obtain rfl : s₁ = s := hsame
    exact hend.quiet
  | aside hcall hend => exact hend.quiet

/-- A call that has not waited for a relist marks its kind only with a watcher that was
in sync and ran before. A watcher that the leg opens itself would have to be in sync at
birth. -/
theorem marked_at_once (hnot : ∀ t w deadline, s.call c ≠ .syncing t w deadline)
    (hseen : (s.advance c).seen.lookup g ≠ s.seen.lookup g) :
    ∃ w, ended g s (.advance c) = some (c, some w) ∧ s.isRunning w = true ∧ s.InSync w ∧
      (s.advance c).watchers.length = s.watchers.length := by
  rcases (s.advance_cases c).marked with
    hsame | ⟨t, w, s₁, watcher, ha, hget, hsynced, hok, hput⟩
  · rw [hsame] at hseen
    exact absurd rfl hseen
  · have hkind : t.query.gvk = g := by
      by_contra hne
      rw [hput, Table.lookup_put, if_neg fun e => hne e.symm] at hseen
      exact hseen rfl
    have hended : ended g s (.advance c) = some (c, some w) :=
      ended_of_answer (starts_iff.mpr ⟨t, ha.starting, hkind⟩) hok
    cases ha with
    | @opening r access hcall =>
      -- a watcher that has just been opened would not be in sync
      obtain ⟨v, hrun⟩ := running_of_synced hget hsynced
      rw [watcherFor_running hrun] at hget hended
      refine ⟨v, hended, (runningStream?_eq_some.mp hrun).2, ⟨watcher, hget, hsynced⟩, ?_⟩
      rcases (s.advance_cases c).watchers with hsame | ⟨u, q, access', hcall', hnew⟩
      · exact hsame
      · obtain ⟨-, rfl, -⟩ := Call.probing.inj (hcall.symm.trans hcall')
        rw [hnew, watcherFor_running hrun]
    | waiting hcall => exact absurd hcall (hnot _ _ _)

end

/-- After the shutdown exactly those calls may begin to start a kind that were waiting
for their turn in its slot. Calls outside of all slots ask nothing, open nothing and
mark nothing any more. A start that begins after the shutdown marks its kind only with
a watcher that is running and in sync already, and opens no stream by that. All
watchers of the cache, those that are opened later included, are asked to stop. -/
theorem begins_after_shutDown {s : Cache} (hs : Reachable s) (hdown : s.shutdown = true) :
    (∀ g c, (∃ moves, c ∈ trace (begun g) s moves) ↔
      ∃ t, s.call c = .queued t ∧ t.query.gvk = g) ∧
    (∀ c moves, (s.call c).ticket? = none →
      Quiet (s.runMoves moves) ((s.runMoves moves).advance c)) ∧
    (∀ g c moves, c ∈ trace (begun g) s moves →
      ((s.runMoves moves).advance c).seen.lookup g ≠ (s.runMoves moves).seen.lookup g →
      ∃ w, ended g (s.runMoves moves) (.advance c) = some (c, some w) ∧
        (s.runMoves moves).isRunning w = true ∧ (s.runMoves moves).InSync w ∧
        ((s.runMoves moves).advance c).watchers.length = (s.runMoves moves).watchers.length) ∧
    ∀ moves, Halting (s.runMoves moves).watchers := by
  refine ⟨fun g c => begins_iff hs hdown, fun c moves hnone => ?_,
    fun g c moves hbegun hseen => ?_, fun moves => ?_⟩
  · refine advance_quiet (run_shutdown hdown moves) ?_
    rcases hticket : ((s.runMoves moves).call c).ticket? with _ | t
    · rfl
    · rw [(run_winding hdown moves c).ticket? hticket] at hnone
      cases hnone
  · obtain ⟨t, hcall, -⟩ := (begins_iff hs hdown).mp ⟨moves, hbegun⟩
    refine marked_at_once (fun u w deadline hsyncing => ?_) hseen
    -- the call was not awaiting a relist before, and does not come to
    have hstarting := (run_winding hdown moves c).syncing hsyncing
    rw [hcall] at hstarting
    cases hstarting
  · exact halting_of_reachable (hs.runMoves moves) (run_shutdown hdown moves)

/-! ## The case occurs -/

/-- Two calls ask for pods. The first one starts them and awaits the relist, and the
second one waits for its turn. -/
def queueing : List Move :=
  .submit (.use .handOut (.ofKind Watcher.pods.gvk)) :: search 0 ++
    [.submit (.use .handOut (.ofKind Watcher.pods.gvk)), .advance 1]

/-- The relist is held back until the cache is told to stop. -/
def stopped : Cache :=
  (starting (onePod.setHeld "pods" true) .standard).runMoves (queueing ++ [.shutDown])

/-- The first call gives up and its watcher stops. The second call has its turn. -/
def aftermath : List Move :=
  [.advance 0, .watch 0 .halt] ++ List.replicate 6 (.advance 1)

/-- The second call starts pods all the same: it is told the resource, asks for all
three rights and opens a second stream. -/
theorem queued_start : Reachable stopped ∧ stopped.shutdown = true ∧
    trace (begun Watcher.pods.gvk) stopped aftermath = [1] ∧
    heard 1 stopped aftermath = granted Watcher.pods ∧
    trace (openedFor Watcher.pods.gvk) stopped aftermath = [1] :=
  ⟨reachable_run .., rfl, rfl, rfl, rfl⟩

/-- The first call is dropped when the relist has come, and the cache is told to stop. -/
def abandoned : Cache :=
  (starting onePod .standard).runMoves
    (queueing ++ [.watch 0 (.batch 1), .cancel 0, .shutDown])

/-- The second call marks pods before the watcher has stopped, and a third call does
nothing. -/
theorem begins_after_shutDown_pods :
    (∃ moves, 1 ∈ trace (begun Watcher.pods.gvk) abandoned moves) ∧
    Quiet (abandoned.runMoves [.submit (.use .handOut (.ofKind Watcher.pods.gvk))])
      ((abandoned.runMoves [.submit (.use .handOut (.ofKind Watcher.pods.gvk))]).advance 2) ∧
    (∃ w, ended Watcher.pods.gvk (abandoned.runMoves (List.replicate 5 (.advance 1)))
        (.advance 1) = some (1, some w) ∧
      (abandoned.runMoves (List.replicate 5 (.advance 1))).isRunning w = true ∧
      (abandoned.runMoves (List.replicate 5 (.advance 1))).InSync w ∧
      ((abandoned.runMoves (List.replicate 5 (.advance 1))).advance 1).watchers.length =
        (abandoned.runMoves (List.replicate 5 (.advance 1))).watchers.length) ∧
    Halting (abandoned.runMoves [.watch 0 .halt, .watcherFor Watcher.pods]).watchers := by
  obtain ⟨hbegins, hquiet, hmarks, hhalting⟩ :=
    begins_after_shutDown (s := abandoned) (reachable_run ..) rfl
  refine ⟨(hbegins _ 1).mpr ⟨_, rfl, rfl⟩, hquiet 2 _ rfl, hmarks _ 1 _ ?_ ?_, hhalting _⟩
  · exact List.mem_singleton.mpr rfl
  · exact Option.some_ne_none "/v1/pods"

end Cache

end KindCache
