import KindCache.Proofs.Cache.Legs
import KindCache.Proofs.Numbers

/-!
# Runs of a cache

Calls and watchers do not decide when they run. A `Cache.Move` is one thing that
can happen to a cache, and a run is any sequence of moves: calls are made,
proceed by one leg at a time and are dropped anywhere between two legs, and
watchers move as `Watcher.Move` allows, each independently of the others.

* `Cache.perform`, `Cache.run`, `Cache.Reachable` — moves, runs and the states
  that they lead to from a new cache;
* `Cache.trace` — what the moves of a run have done, by some way to look at one
  move;
* `Cache.Evolves` — how watchers change in all moves that open no stream;
* `Cache.Outward` — what is left alone by a move that is no leg of a call;
* `Cache.Apart`, `Cache.Steady` — what calls do not notice, and what no leg touches.
-/

namespace KindCache

namespace Cache

/-- What can happen to a cache. A move is as small as it can be: a call does one leg, a
watcher takes one batch, time passes by one millisecond. A longer stretch of work is a run
of moves, with others in between or not. -/
inductive Move where
  /-- a call is made -/
  | submit (request : Request)
  /-- a call does a leg -/
  | advance (c : CallId)
  /-- a call is dropped -/
  | cancel (c : CallId)
  /-- a watcher moves -/
  | watch (w : WatcherId) (m : Watcher.Move)
  /-- the size of the store of a watcher is noted -/
  | gauge (w : WatcherId)
  /-- the watcher of a resource is asked for -/
  | watcherFor (r : Resource)
  /-- a watcher beside the cache is asked for -/
  | standalone (r : Resource) (cap : Nat)
  /-- the cache is asked to stop -/
  | shutDown
  /-- time passes -/
  | tick
  /-- the cluster changes -/
  | program (f : Cluster → Cluster)

/-- Note the size of the store of a watcher. -/
def gaugeOf (s : Cache) (w : WatcherId) : Cache :=
  match s.watchers[w]? with
  | some watcher => s.gauge watcher
  | none => s

/-- The state after a move. -/
def perform (s : Cache) : Move → Cache
  | .submit request => (s.submit request).1
  | .advance c => s.advance c
  | .cancel c => s.cancel c
  | .watch w m => s.modifyWatcher w (·.perform m)
  | .gauge w => s.gaugeOf w
  | .watcherFor r => (s.watcherFor r).1
  | .standalone r cap => (s.standalone r cap).1
  | .shutDown => s.shutDown
  | .tick => s.tick
  | .program f => s.modifyCluster f

/-- The state after a run. -/
def runMoves (s : Cache) (moves : List Move) : Cache :=
  moves.foldl perform s

@[simp] theorem runMoves_nil (s : Cache) : s.runMoves [] = s := rfl

@[simp] theorem runMoves_cons (s : Cache) (m : Move) (moves : List Move) :
    s.runMoves (m :: moves) = (s.perform m).runMoves moves := rfl

/-- A run can be cut at any place. Most proofs about a move somewhere in a run begin with
this. -/
theorem runMoves_append (s : Cache) (moves more : List Move) :
    s.runMoves (moves ++ more) = (s.runMoves moves).runMoves more :=
  List.foldl_append

/-- The states that runs lead to. -/
def Reachable (s : Cache) : Prop :=
  ∃ cluster settings moves, s = (starting cluster settings).runMoves moves

/-- Every run of a new cache leads to a reachable state. -/
theorem reachable_run (cluster : Cluster) (settings : Settings) (moves : List Move) :
    Reachable ((starting cluster settings).runMoves moves) :=
  ⟨cluster, settings, moves, rfl⟩

theorem Reachable.runMoves {s : Cache} (hs : Reachable s) (moves : List Move) :
    Reachable (s.runMoves moves) := by
  obtain ⟨cluster, settings, before, rfl⟩ := hs
  refine ⟨cluster, settings, before ++ moves, ?_⟩
  rw [runMoves_append]

theorem Reachable.perform {s : Cache} (hs : Reachable s) (m : Move) :
    Reachable (s.perform m) :=
  hs.runMoves [m]

/-- What a new cache has and every move preserves, all reachable states have. All invariants
of a cache are proved by this, from a lemma about the start and one about a move. -/
theorem Reachable.induction {motive : Cache → Prop}
    (start : ∀ cluster settings, motive (starting cluster settings))
    (step : ∀ s m, motive s → motive (s.perform m)) {s : Cache} (hs : Reachable s) :
    motive s := by
  obtain ⟨cluster, settings, moves, rfl⟩ := hs
  have hrun : ∀ moves s, motive s → motive (s.runMoves moves) := by
    intro moves
    induction moves with
    | nil => exact fun s hs => hs
    | cons m moves ih => exact fun s hs => ih _ (step s m hs)
  exact hrun moves _ (start cluster settings)

/-! ## Traces -/

section

variable {α : Type}

/-- What the moves of a run have done. What is looked for in a move is up to the function,
which sees the state in front of it; so one definition serves for starts, questions,
streams, answers and replies. -/
def trace (f : Cache → Move → Option α) (s : Cache) : List Move → List α
  | [] => []
  | m :: moves => (f s m).toList ++ trace f (s.perform m) moves

theorem trace_cons (f : Cache → Move → Option α) (s : Cache) (m : Move) (moves : List Move) :
    trace f s (m :: moves) = (f s m).toList ++ trace f (s.perform m) moves :=
  rfl

/-- What a longer run has done is what its parts have done, the second from where the first
has led. -/
theorem trace_append (f : Cache → Move → Option α) (s : Cache) (moves more : List Move) :
    trace f s (moves ++ more) = trace f s moves ++ trace f (s.runMoves moves) more := by
  induction moves generalizing s with
  | nil => rfl
  | cons m moves ih =>
    rw [List.cons_append, trace_cons, ih, ← List.append_assoc]
    rfl

/-- What a run has done, one of its moves has done, in the state that the moves before it
have led to. -/
theorem mem_trace {f : Cache → Move → Option α} {s : Cache} {moves : List Move} {a : α} :
    a ∈ trace f s moves ↔
      ∃ before m after, moves = before ++ m :: after ∧ f (s.runMoves before) m = some a := by
  refine ⟨fun h => ?_, ?_⟩
  · induction moves generalizing s with
    | nil => cases h
    | cons m moves ih =>
      rcases List.mem_append.mp h with h | h
      · exact ⟨[], m, moves, rfl, Option.mem_toList.mp h⟩
      · obtain ⟨before, e, after, rfl, he⟩ := ih h
        exact ⟨m :: before, e, after, rfl, he⟩
  · rintro ⟨before, m, after, rfl, hm⟩
    rw [trace_append]
    exact List.mem_append_right _ (List.mem_append_left _ (Option.mem_toList.mpr hm))

end

/-! ## How watchers change -/

/-- The same watchers at a later time: each has had a run of its own. -/
structure Evolves (ws ws' : List Watcher) : Prop where
  length : ws'.length = ws.length
  ran : ∀ (i : Nat) (w : Watcher), ws[i]? = some w → ∃ moves, ws'[i]? = some (w.run moves)

namespace Evolves

variable {ws ws' : List Watcher} {i : Nat}

theorem refl (ws : List Watcher) : Evolves ws ws :=
  ⟨rfl, fun _ _ h => ⟨[], h⟩⟩

theorem modify (ws : List Watcher) (i : Nat) {f : Watcher → Watcher}
    (hf : ∀ w : Watcher, ∃ moves, f w = w.run moves) : Evolves ws (ws.modify i f) := by
  refine ⟨List.length_modify .., fun j w h => ?_⟩
  rw [List.getElem?_modify, h]
  by_cases hij : i = j
  · obtain ⟨moves, hmoves⟩ := hf w
    exact ⟨moves, by simp [hij, hmoves]⟩
  · exact ⟨[], by simp [hij]⟩

theorem map (ws : List Watcher) {f : Watcher → Watcher}
    (hf : ∀ w : Watcher, ∃ moves, f w = w.run moves) : Evolves ws (ws.map f) := by
  refine ⟨List.length_map .., fun j w h => ?_⟩
  obtain ⟨moves, hmoves⟩ := hf w
  exact ⟨moves, by rw [List.getElem?_map, h, Option.map_some, hmoves]⟩

/-- A watcher from before is still there, at most later in its own run. -/
theorem after (h : Evolves ws ws') {w : Watcher} (hw : ws[i]? = some w) :
    ∃ w', ws'[i]? = some w' ∧ w.Later w' := by
  obtain ⟨moves, hw'⟩ := h.ran i w hw
  exact ⟨w.run moves, hw', w.run_later moves⟩

/-- A watcher was there before: none is new in such a move. -/
theorem before (h : Evolves ws ws') {w' : Watcher} (hw' : ws'[i]? = some w') :
    ∃ w, ws[i]? = some w ∧ w.Later w' := by
  obtain ⟨hi', -⟩ := List.getElem?_eq_some_iff.mp hw'
  have hi : i < ws.length := h.length ▸ hi'
  have hw := List.getElem?_eq_getElem hi
  obtain ⟨w, hget, hlater⟩ := h.after hw
  obtain rfl := Option.some.inj (hget.symm.trans hw')
  exact ⟨ws[i], hw, hlater⟩

end Evolves

theorem Ends.evolves {s s' : Cache} {c : CallId} (h : Ends s c s') :
    Evolves s.watchers s'.watchers := by
  obtain ⟨w, moves, hw⟩ := h.watchers
  rw [hw]
  exact .modify _ _ fun _ => ⟨moves, rfl⟩

/-- To stop the cache is to stop its watchers, which for each of them is a move of its
own. -/
theorem shutDown_evolves (s : Cache) : Evolves s.watchers s.shutDown.watchers := by
  refine .map _ fun w => ?_
  split
  · exact ⟨[.stop], rfl⟩
  · exact ⟨[], rfl⟩

/-! ## How watchers are added -/

/-- A new stream has a watcher of its own, which is new itself and has the next number. This
is all that opening a stream does to the watchers. -/
theorem spawn_eq (s : Cache) (r : Resource) (cap : Nat) (tied : Bool) :
    ∃ (cluster : Cluster) (watcher : Watcher), s.spawn r cap tied =
        ({ s with cluster, watchers := s.watchers ++ [watcher] }, s.watchers.length) ∧
      watcher.resource = r ∧ watcher.tied = tied ∧ watcher.running = true ∧
      watcher.Reachable := by
  unfold spawn
  dsimp only
  split
  · exact ⟨_, _, rfl, rfl, rfl, rfl, _, _, _, _, [.stop], rfl⟩
  · exact ⟨_, _, rfl, rfl, rfl, rfl, _, _, _, _, [], rfl⟩

/-- A watcher that is new is not in sync, and after the shutdown it is asked to stop at once
if it is one of the cache. The second part is what keeps a late call from opening a stream
that nobody would stop. -/
theorem spawn_new (s : Cache) (r : Resource) (cap : Nat) (tied : Bool) :
    ∃ watcher, (s.spawn r cap tied).1.watchers = s.watchers ++ [watcher] ∧
      watcher.synced = false ∧
      (s.shutdown = true → watcher.tied = true → watcher.stopRequested = true) := by
  unfold spawn
  dsimp only
  split
  · exact ⟨_, rfl, rfl, fun _ _ => rfl⟩
  · next hguard =>
    refine ⟨_, rfl, rfl, fun hdown (htied : tied = true) => absurd ?_ hguard⟩
    rw [hdown, htied]
    rfl

section WatcherFor

variable {s : Cache} {r : Resource}

/-- If there is a running watcher for the resource, nothing happens. -/
theorem watcherFor_running {w : WatcherId} (h : s.runningStream? r.streamName = some w) :
    s.watcherFor r = (s, w) := by
  simp only [watcherFor, h]

/-- If there is none, a new one takes its place in the table of streams, and the number on
the table is that of the new watcher. -/
theorem watcherFor_opened (h : s.runningStream? r.streamName = none) :
    ∃ (cluster : Cluster) (watcher : Watcher), s.watcherFor r =
        ({ s with
            cluster, watchers := s.watchers ++ [watcher]
            streams := Table.put r.streamName s.watchers.length s.streams
            meters := { s.meters with watchersStarted := s.meters.watchersStarted + 1 } },
          s.watchers.length) ∧
      watcher.resource = r ∧ watcher.tied = true ∧ watcher.running = true ∧
      watcher.Reachable := by
  obtain ⟨cluster, watcher, heq, hwatcher⟩ := s.spawn_eq r s.settings.eventQueueCap.toNat true
  refine ⟨cluster, watcher, ?_, hwatcher⟩
  simp only [watcherFor, h, heq]

/-- What is known of the new watcher itself. -/
theorem watcherFor_new (h : s.runningStream? r.streamName = none) :
    ∃ watcher, (s.watcherFor r).1.watchers = s.watchers ++ [watcher] ∧
      (s.watcherFor r).2 = s.watchers.length ∧ watcher.synced = false ∧
      (s.shutdown = true → watcher.tied = true → watcher.stopRequested = true) := by
  obtain ⟨watcher, hwatchers, hnew⟩ := s.spawn_new r s.settings.eventQueueCap.toNat true
  refine ⟨watcher, ?_, ?_, hnew⟩
  · rw [← hwatchers]
    simp only [watcherFor, h]
  · simp only [watcherFor, h]
    rfl

/-- A watcher that is in sync as soon as it is asked for was running before. A new one has had
no relist when it is put on the table. -/
theorem running_of_synced {watcher : Watcher}
    (hget : (s.watcherFor r).1.watchers[(s.watcherFor r).2]? = some watcher)
    (hsynced : watcher.synced = true) : ∃ w, s.runningStream? r.streamName = some w := by
  rcases hrun : s.runningStream? r.streamName with _ | w
  · obtain ⟨new, hwatchers, hlast, hfresh, -⟩ := watcherFor_new hrun
    rw [hwatchers, hlast, List.getElem?_concat_length] at hget
    obtain rfl := Option.some.inj hget
    rw [hsynced] at hfresh
    cases hfresh
  · exact ⟨w, rfl⟩

/-- Asking for a watcher changes nothing but the watchers and the table of streams. -/
theorem watcherFor_eq (s : Cache) (r : Resource) : ∃ cluster watchers streams meters,
    (s.watcherFor r).1 = { s with cluster, watchers, streams, meters } := by
  rcases hrun : s.runningStream? r.streamName with _ | w
  · obtain ⟨cluster, watcher, heq, -⟩ := watcherFor_opened hrun
    rw [heq]
    exact ⟨_, _, _, _, rfl⟩
  · rw [watcherFor_running hrun]
    exact ⟨_, _, _, _, rfl⟩

end WatcherFor

/-- Noting the size of a store changes nothing but what is counted. -/
theorem gaugeOf_eq (s : Cache) (w : WatcherId) : ∃ meters, s.gaugeOf w = { s with meters } := by
  simp only [gaugeOf]
  split <;> exact ⟨_, rfl⟩

/-! ## Moves that are no legs -/

/-- How long a move takes. -/
def Move.lasts : Move → Nat
  | .tick => 1
  | _ => 0

/-- What only a leg of a call can change, but for time and the shutdown. So the log of a
cache, and the kinds that count as started, are written by calls alone. -/
structure Outward (s : Cache) (m : Move) (s' : Cache) : Prop where
  log : s'.log = s.log
  seen : s'.seen = s.seen
  settings : s'.settings = s.settings
  now : s'.now = s.now + m.lasts
  shutdown : m ≠ .shutDown → s'.shutdown = s.shutdown

/-- **A move is a leg of a call, or it comes from outside.** Facts about the log, the time
or the settings are proved along this division, without a case for each move. -/
theorem leg_or_outward (s : Cache) (m : Move) :
    (∃ c, m = .advance c) ∨ Outward s m (s.perform m) := by
  cases m with
  | advance c => exact .inl ⟨c, rfl⟩
  | cancel c =>
    obtain ⟨slots, heq⟩ := s.cancel_eq c
    rw [perform, heq]
    exact .inr ⟨rfl, rfl, rfl, rfl, fun _ => rfl⟩
  | gauge w =>
    obtain ⟨meters, heq⟩ := s.gaugeOf_eq w
    rw [perform, heq]
    exact .inr ⟨rfl, rfl, rfl, rfl, fun _ => rfl⟩
  | watcherFor r =>
    obtain ⟨cluster, watchers, streams, meters, heq⟩ := s.watcherFor_eq r
    rw [perform, heq]
    exact .inr ⟨rfl, rfl, rfl, rfl, fun _ => rfl⟩
  | shutDown => exact .inr ⟨rfl, rfl, rfl, rfl, fun hm => absurd rfl hm⟩
  | submit | watch | standalone | tick | program => exact .inr ⟨rfl, rfl, rfl, rfl, fun _ => rfl⟩

/-! ## What calls do not notice -/

/-- Nothing has happened to calls and slots. It is the frame of what a leg asks and opens
before it comes to move its own call. -/
structure Apart (s s' : Cache) : Prop where
  calls : s'.calls = s.calls
  slots : s'.slots = s.slots
  slotOf : s'.slotOf = s.slotOf

namespace Apart

variable {s s' : Cache} {c : CallId}

theorem call (h : Apart s s') (c : CallId) : s'.call c = s.call c := by
  rw [Cache.call, Cache.call, h.calls]

theorem hasTurn (h : Apart s s') (c : CallId) (i : SlotId) :
    s'.hasTurn c i = s.hasTurn c i := by
  rw [Cache.hasTurn, Cache.hasTurn, h.slots]

theorem watcherFor (s : Cache) (r : Resource) : Apart s (s.watcherFor r).1 := by
  obtain ⟨cluster, watchers, streams, meters, heq⟩ := s.watcherFor_eq r
  rw [heq]
  exact ⟨rfl, rfl, rfl⟩

theorem markSeen (h : Apart s s') (g : GroupVersionKind) (name : String) :
    Apart s (s'.markSeen g name) :=
  ⟨h.calls, h.slots, h.slotOf⟩

end Apart

theorem Asked.apart {s s' : Cache} (h : Asked s s') : Apart s s' := by
  obtain ⟨cluster, registry, meters⟩ := h
  exact ⟨rfl, rfl, rfl⟩

section

variable {s s' : Cache} {c : CallId} {t : Ticket} {w : WatcherId}

theorem Awaits.apart (h : Awaits s c t w s') : Apart s s' := by
  cases h with
  | opening hcall => exact .watcherFor s _
  | waiting hcall => exact ⟨rfl, rfl, rfl⟩

/-- Whoever awaits a relist in a slot is starting its kind. -/
theorem Awaits.starting (h : Awaits s c t w s') : (s.call c).starting? = some t := by
  cases h with
  | opening hcall => rw [hcall]; rfl
  | waiting hcall => rw [hcall]; rfl

end

/-! ## What legs leave alone -/

/-- Nothing has been reported, no time has passed, and the cache was not told to stop. No
leg of a search does any of that; only its end reports. -/
structure Steady (s s' : Cache) : Prop where
  log : s'.log = s.log
  now : s'.now = s.now
  shutdown : s'.shutdown = s.shutdown

section

variable {s s' : Cache} {c : CallId} {t : Ticket} {w : WatcherId}

theorem Steady.leaveSlot (h : Steady s s') (t : Ticket) : Steady s (s'.leaveSlot t) := by
  obtain ⟨slots, slotOf, heq⟩ := s'.leaveSlot_eq t
  rw [heq]
  exact ⟨h.log, h.now, h.shutdown⟩

theorem Steady.markSeen (h : Steady s s') (g : GroupVersionKind) (name : String) :
    Steady s (s'.markSeen g name) :=
  ⟨h.log, h.now, h.shutdown⟩

theorem Asked.steady (h : Asked s s') : Steady s s' := by
  obtain ⟨cluster, registry, meters⟩ := h
  exact ⟨rfl, rfl, rfl⟩

theorem Awaits.steady (h : Awaits s c t w s') : Steady s s' := by
  cases h with
  | @opening r access hcall =>
    obtain ⟨cluster, watchers, streams, meters, heq⟩ := s.watcherFor_eq r
    rw [heq]
    exact ⟨rfl, rfl, rfl⟩
  | waiting hcall => exact ⟨rfl, rfl, rfl⟩

/-- A leg of a search reports nothing and takes no time. What is reported is a matter of
what is done with the answer. -/
theorem Leads.steady {leg : Leg} (h : Leads s c leg) : Steady s leg.1 := by
  have hsame : Steady s s := ⟨rfl, rfl, rfl⟩
  cases h with
  | resting | found | refused => exact hsame
  | begun => exact ⟨rfl, rfl, rfl⟩
  | @joined use q hcall hw =>
    obtain ⟨slots, slotOf, i, heq⟩ := s.enqueue_eq c use q
    rw [heq]
    exact ⟨rfl, rfl, rfl⟩
  | shared => exact hsame.leaveSlot _
  | resolved hcall hs' | reviewed hcall hs' =>
    obtain ⟨hlog, hnow, hshutdown⟩ := hs'.steady
    exact ⟨hlog, hnow, hshutdown⟩
  | waited ha =>
    obtain ⟨hlog, hnow, hshutdown⟩ := ha.steady
    exact ⟨hlog, hnow, hshutdown⟩
  | failed hcall hs' => exact hs'.steady.leaveSlot _
  | expired ha => exact ha.steady.leaveSlot _
  | succeeded ha hget hsynced => exact (ha.steady.markSeen _ _).leaveSlot _

end

end Cache

end KindCache
