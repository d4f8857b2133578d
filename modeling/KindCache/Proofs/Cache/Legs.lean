import KindCache.Cache.Outside
import KindCache.Proofs.Watcher.Run

/-!
# Legs of a call

What one leg of a call can do, said once for all that is proved about calls.

* `Leads` — the possible outcomes of one leg of the search for a watcher, one
  constructor for each; `current_leads` says that there are no others;
* `Ends` — what the end of a search does: the call ends or pauses, and at most a
  subscriber is added to a watcher;
* `Advance` — one leg of any call, put together from the two
  (`advance_cases`).
-/

namespace KindCache

namespace Cache

/-! ## Where a call stands -/

/-- A call that stands anywhere but at its end is one that was made. So facts about `call`
carry the bound that changing the list of calls asks for. -/
theorem lt_of_call {s : Cache} {c : CallId} (h : s.call c ≠ .over) : c < s.calls.length := by
  rcases Nat.lt_or_ge c s.calls.length with hc | hc
  · exact hc
  · refine absurd ?_ h
    rw [call, List.getElem?_eq_none hc]
    rfl

/-- A call that takes part in a slot is looking for a watcher. -/
theorem errand?_of_ticket {call : Call} {t : Ticket} (h : call.ticket? = some t) :
    call.errand? = some (t.use, t.query) := by
  cases call <;> cases h <;> rfl

/-- A call that starts its kind holds a ticket: it starts the kind in the turn that it has
in the slot. -/
theorem ticket?_of_starting {call : Call} {t : Ticket} (h : call.starting? = some t) :
    call.ticket? = some t := by
  cases call <;> cases h <;> rfl

/-- A call that does not look for a watcher takes part in no slot, and has nothing to leave
behind there. -/
theorem ticket?_of_errand {call : Call} (h : call.errand? = none) : call.ticket? = none := by
  cases call <;> first | rfl | cases h

theorem getElem?_calls {s : Cache} {c : CallId} (hc : c < s.calls.length) :
    s.calls[c]? = some (s.call c) := by
  rw [call, List.getElem?_eq_getElem hc]
  rfl

theorem lt_of_errand {s : Cache} {c : CallId} {e : Use × Query}
    (h : (s.call c).errand? = some e) : c < s.calls.length := by
  refine lt_of_call fun hover => ?_
  rw [hover] at h
  cases h

/-- The calls of a cache in which one of them has moved. The bound says that there is such a
call: setting the point of a number that is not there does nothing. -/
theorem call_of_set {s s' : Cache} {c : CallId} {point : Call}
    (h : s'.calls = s.calls.set c point) (hc : c < s.calls.length) (d : CallId) :
    s'.call d = if d = c then point else s.call d := by
  rw [call, call, h, List.getElem?_set]
  by_cases hd : d = c
  · subst hd
    rw [if_pos rfl, if_pos rfl, if_pos hc]
    rfl
  · rw [if_neg hd, if_neg fun e => hd e.symm]

/-- Where the call that has moved stands, without the bound: at the point it was set to, or
it is not there at all. This is enough where the other case is ruled out by what the call is
about. -/
theorem call_of_set_self {s s' : Cache} {c : CallId} {point : Call}
    (h : s'.calls = s.calls.set c point) : s'.call c = point ∨ s'.call c = .over := by
  rcases Nat.lt_or_ge c s.calls.length with hc | hc
  · refine .inl ?_
    rw [call_of_set h hc, if_pos rfl]
  · refine .inr ?_
    rw [call, h, List.getElem?_eq_none (by rwa [List.length_set])]
    rfl

/-- The move of one call moves no other one. -/
theorem call_of_set_other {s s' : Cache} {c : CallId} {point : Call}
    (h : s'.calls = s.calls.set c point) {d : CallId} (hd : d ≠ c) : s'.call d = s.call d := by
  rw [call, call, h, List.getElem?_set, if_neg fun e => hd e.symm]

/-- A new call has the next number. No number is given twice, as calls stay in the list when
they have ended. -/
theorem call_submit (s : Cache) (request : Request) (c : CallId) :
    (s.submit request).1.call c =
      if c = s.calls.length then .fresh request else s.call c := by
  show (s.calls ++ [.fresh request])[c]?.getD .over = _
  rcases Nat.lt_trichotomy c s.calls.length with hc | rfl | hc
  · rw [List.getElem?_append_left hc, if_neg (Nat.ne_of_lt hc)]
    rfl
  · rw [List.getElem?_concat_length, if_pos rfl]
    rfl
  · have hlen : (s.calls ++ [Call.fresh request]).length ≤ c := by
      rw [List.length_append, List.length_singleton]
      omega
    rw [List.getElem?_eq_none hlen, if_neg (Nat.ne_of_gt hc), call,
      List.getElem?_eq_none (Nat.le_of_lt hc)]

/-- Joining a slot changes the slots, and where the call stands. Which slot it is and how it
looks afterwards is left open here, and is said in `Turns` and `Queues`. -/
theorem enqueue_eq (s : Cache) (c : CallId) (use : Use) (q : Query) :
    ∃ slots slotOf i, s.enqueue c use q =
      { s with slots, slotOf, calls := s.calls.set c (.queued ⟨use, q, i⟩) } := by
  rcases hlookup : s.slotOf.lookup q.gvk with _ | i <;>
    simp only [enqueue, sharedSlot, hlookup] <;> exact ⟨_, _, _, rfl⟩

section LeaveSlot

variable (s : Cache) (t : Ticket)

/-- Leaving a slot changes the slots and the table of them. The call itself is not moved: it
is about to be answered by the leg that leaves. -/
theorem leaveSlot_eq : ∃ slots slotOf, s.leaveSlot t = { s with slots, slotOf } := by
  simp only [leaveSlot]
  split <;> exact ⟨_, _, rfl⟩

@[simp] theorem leaveSlot_watchers : (s.leaveSlot t).watchers = s.watchers := by
  obtain ⟨slots, slotOf, heq⟩ := s.leaveSlot_eq t
  rw [heq]

@[simp] theorem leaveSlot_seen : (s.leaveSlot t).seen = s.seen := by
  obtain ⟨slots, slotOf, heq⟩ := s.leaveSlot_eq t
  rw [heq]

@[simp] theorem leaveSlot_calls : (s.leaveSlot t).calls = s.calls := by
  obtain ⟨slots, slotOf, heq⟩ := s.leaveSlot_eq t
  rw [heq]

end LeaveSlot

/-- Dropping a call changes the slots, and where the call stands. The table of slots stays
as it is, even if nobody is left in the slot. -/
theorem cancel_eq (s : Cache) (c : CallId) :
    ∃ slots, s.cancel c = { s with slots, calls := s.calls.set c .over } := by
  simp only [cancel]
  split <;> exact ⟨_, rfl⟩

/-- Dropping a call moves no other one. -/
theorem call_cancel (s : Cache) (c d : CallId) :
    (s.cancel c).call d = if d = c then .over else s.call d := by
  obtain ⟨slots, heq⟩ := s.cancel_eq c
  rw [heq]
  split
  · next hd =>
    rw [hd]
    exact (call_of_set_self (s := s) rfl).elim id id
  · next hd => exact call_of_set_other rfl hd

/-! ## The search for a watcher -/

/-- The cluster was asked something. Whatever the answer is, only what is known and counted
about the cluster may change by it. -/
inductive Asked (s : Cache) : Cache → Prop where
  | intro (cluster : Cluster) (registry : Registry) (meters : Meters) :
    Asked s { s with cluster, registry, meters }

/-- The watcher whose relist a starting call awaits, and the state in which it does:
its stream may have to be opened first. -/
inductive Awaits (s : Cache) (c : CallId) : Ticket → WatcherId → Cache → Prop where
  /-- all rights are granted, and the stream is opened or found running -/
  | opening {t : Ticket} {r : Resource} {access : Access}
    (h : s.call c = .probing t r access []) :
    Awaits s c t (s.watcherFor r).2 (s.watcherFor r).1
  /-- the stream was opened before -/
  | waiting {t : Ticket} {w : WatcherId} {deadline : Option Nat}
    (h : s.call c = .syncing t w deadline) : Awaits s c t w s

/-- The possible outcomes of one leg of a search. All that is proved of searches is proved
by cases on this type, so that nothing else unfolds the legs; each case keeps the guards
under which the leg comes to it. -/
inductive Leads (s : Cache) (c : CallId) : Leg → Prop where
  /-- the call is not searching, or it waits for its turn -/
  | resting (h : (s.call c).starting? = none) : Leads s c (s, none)
  /-- the kind is running -/
  | found {use : Use} {q : Query} {w : WatcherId} (h : s.call c = .fresh (.use use q))
    (hw : s.seenWatcher? q.gvk = some w) : Leads s c (s, some (.ok w))
  /-- the cache was told to stop -/
  | refused {use : Use} {q : Query} (h : s.call c = .fresh (.use use q))
    (hs : s.shutdown = true) : Leads s c (s, some (.error .shuttingDown))
  /-- the call takes part in the slot of the kind -/
  | joined {use : Use} {q : Query} (h : s.call c = .fresh (.use use q))
    (hw : s.seenWatcher? q.gvk = none) : Leads s c (s.enqueue c use q, none)
  /-- the call has its turn, and the kind was started before it -/
  | shared {t : Ticket} {w : WatcherId} (h : s.call c = .queued t)
    (hturn : s.hasTurn c t.slot = true) (hw : s.seenWatcher? t.query.gvk = some w) :
    Leads s c (s.leave t (.ok w))
  /-- the call has its turn, and begins to start the kind -/
  | begun {t : Ticket} (h : s.call c = .queued t) (hturn : s.hasTurn c t.slot = true)
    (hw : s.seenWatcher? t.query.gvk = none) : Leads s c (s.setCall c (.resolving t), none)
  /-- the kind is resolved -/
  | resolved {t : Ticket} {r : Resource} {s' : Cache} (h : s.call c = .resolving t)
    (hs' : Asked s s') : Leads s c (s'.setCall c (.probing t r .denied Verb.required), none)
  /-- a right is asked for -/
  | reviewed {t : Ticket} {r : Resource} {access access' : Access} {verb : Verb}
    {left : List Verb} {s' : Cache} (h : s.call c = .probing t r access (verb :: left))
    (hs' : Asked s s') : Leads s c (s'.setCall c (.probing t r access' left), none)
  /-- the relist is awaited -/
  | waited {t : Ticket} {w : WatcherId} {s' : Cache} {deadline : Option Nat}
    (h : Awaits s c t w s') : Leads s c (s'.setCall c (.syncing t w deadline), none)
  /-- the kind cannot be resolved, or a right is refused -/
  | failed {t : Ticket} {s' : Cache} {e : CacheError} (h : (s.call c).starting? = some t)
    (hs' : Asked s s') : Leads s c (s'.leave t (.error e))
  /-- the relist does not come -/
  | expired {t : Ticket} {w : WatcherId} {s' : Cache} {e : CacheError}
    (h : Awaits s c t w s') : Leads s c (s'.leave t (.error e))
  /-- the relist is there -/
  | succeeded {t : Ticket} {w : WatcherId} {s' : Cache} {watcher : Watcher}
    (h : Awaits s c t w s') (hw : s'.watchers[w]? = some watcher)
    (hsynced : watcher.synced = true) :
    Leads s c ((s'.markSeen t.query.gvk watcher.resource.streamName).leave t (.ok w))

section

variable {s s' : Cache} {c : CallId} {t : Ticket} {w : WatcherId}

/-- What a call finds that goes on: the flag of the watcher itself. Whether the cache was
told to stop is not looked at any more then. -/
theorem syncStatus_reached {watcher : Watcher} {shutdown : Bool}
    (h : watcher.syncStatus shutdown = .reached) : watcher.synced = true := by
  simp only [Watcher.syncStatus] at h
  split at h
  · assumption
  · split at h
    · cases h
    · split at h
      · cases h
      · split at h <;> cases h

/-- To wait for the relist is one of three outcomes, whether the stream was just opened or
before: the relist is there, it will not come, or the call waits on. -/
theorem awaitSync_leads (h : Awaits s c t w s') (deadline : Option Nat) :
    Leads s c (s'.awaitSync c t w deadline) := by
  simp only [awaitSync]
  split
  · exact .expired h
  · next watcher hw =>
    split
    · next hreached => exact .succeeded h hw (syncStatus_reached hreached)
    · exact .expired h
    · split
      · exact .expired h
      · exact .waited h

theorem findResource_leads (h : s.call c = .resolving t) : Leads s c (s.findResource c t) := by
  have hasked : Asked s (s.resolveKind t.query.gvk).1 := .intro ..
  simp only [findResource]
  rcases hr : s.resolveKind t.query.gvk with ⟨s', e | r⟩
  · rw [hr] at hasked
    refine .failed ?_ hasked
    rw [h]
    rfl
  · rw [hr] at hasked
    exact .resolved h hasked

/-- A leg of a call with rights to ask for asks for one. One without such either fails or
opens the stream, and then looks for the relist in the same leg. -/
theorem probeRights_leads {r : Resource} {access : Access} {left : List Verb}
    (h : s.call c = .probing t r access left) : Leads s c (s.probeRights c t r access left) := by
  cases left with
  | nil =>
    simp only [probeRights]
    split
    · refine .failed ?_ (.intro s.cluster s.registry s.meters)
      rw [h]
      rfl
    · exact awaitSync_leads (.opening h) _
  | cons verb left =>
    have hasked : Asked s (s.review r verb).1 := .intro ..
    exact .reviewed h hasked

theorem enter_leads (h : s.call c = .queued t) (hturn : s.hasTurn c t.slot = true) :
    Leads s c (s.enter c t) := by
  simp only [enter]
  split
  · next hw => exact .shared h hturn hw
  · next hw => exact .begun h hturn hw

theorem approach_leads {use : Use} {q : Query} (h : s.call c = .fresh (.use use q)) :
    Leads s c (s.approach c use q) := by
  simp only [approach]
  split
  · next hw => exact .found h hw
  · next hw =>
    split
    · next hs => exact .refused h hs
    · exact .joined h hw

end

/-- **A leg of a search has one of the listed outcomes.** The cases follow the points of a
call; a call that is at none of them, or that waits for its turn in vain, rests. -/
theorem current_leads (s : Cache) (c : CallId) : Leads s c (s.current c) := by
  simp only [current]
  split
  · next h => exact approach_leads h
  · next t h =>
    split
    · next hturn => exact enter_leads h hturn
    · refine .resting ?_
      rw [h]
      rfl
  · next h => exact findResource_leads h
  · next h => exact probeRights_leads h
  · next h => exact awaitSync_leads (.waiting h) _
  · next hfresh hqueued hresolving hprobing hsyncing =>
    refine .resting ?_
    rcases hcall : s.call c with _ | _ | _ | _ | _ | _ | _ | _
    · rfl
    · rfl
    · exact absurd hcall (hresolving _)
    · exact absurd hcall (hprobing _ _ _ _)
    · exact absurd hcall (hsyncing _ _ _)
    · rfl
    · rfl
    · rfl

/-! ## The end of a search -/

/-- The state after a call has ended, or pauses, outside of any slot. At most a subscriber
is added to a watcher. Everything else is listed field by field, as this is the frame that
all invariants of a cache pass through when a call ends. -/
structure Ends (s : Cache) (c : CallId) (s' : Cache) : Prop where
  /-- the call no longer searches -/
  calls : ∃ point : Call, point.errand? = none ∧ s'.calls = s.calls.set c point
  /-- at most one watcher changes, as it may at any time -/
  watchers : ∃ w moves, s'.watchers = s.watchers.modify w (·.run moves)
  cluster : s'.cluster = s.cluster
  settings : s'.settings = s.settings
  registry : s'.registry = s.registry
  streams : s'.streams = s.streams
  seen : s'.seen = s.seen
  slots : s'.slots = s.slots
  slotOf : s'.slotOf = s.slotOf
  shutdown : s'.shutdown = s.shutdown
  now : s'.now = s.now

section

variable (s : Cache) (c : CallId)

theorem modify_run_nil (w : WatcherId) (ws : List Watcher) :
    ws = ws.modify w (·.run []) :=
  (List.modify_id w ws).symm

theorem setCall_ends {point : Call} (h : point.errand? = none) :
    Ends s c (s.setCall c point) :=
  ⟨⟨point, h, rfl⟩, ⟨0, [], modify_run_nil 0 _⟩, rfl, rfl, rfl, rfl, rfl, rfl, rfl, rfl, rfl⟩

theorem complete_ends (outcome : Outcome) : Ends s c (s.complete c outcome) :=
  ⟨⟨.over, rfl, rfl⟩, ⟨0, [], modify_run_nil 0 _⟩, rfl, rfl, rfl, rfl, rfl, rfl, rfl, rfl, rfl⟩

variable {s c} in
/-- It does not matter what was counted. The count of retries is the only thing that the end
of a read changes besides the call and the log. -/
theorem Ends.of_meters {s' : Cache} {meters : Meters} (h : Ends { s with meters } c s') :
    Ends s c s' :=
  ⟨h.calls, h.watchers, h.cluster, h.settings, h.registry, h.streams, h.seen, h.slots, h.slotOf,
    h.shutdown, h.now⟩

/-- After a try to read, the call has ended or pauses. In either case it is done with
searching, and nothing but its own point has changed. -/
theorem tryRead_ends (counted : Bool) (q : Query) (name : String) (w : WatcherId)
    (tries : Nat) : Ends s c (s.tryRead c counted q name w tries) := by
  simp only [tryRead]
  split
  · exact setCall_ends s c rfl
  · exact (complete_ends _ c _).of_meters

/-- Whatever a call does with its answer ends it, or makes it pause. Only a subscription
touches a watcher. -/
theorem conclude_ends (use : Use) (q : Query) (answer : Except CacheError WatcherId) :
    Ends s c (s.conclude c use q (some answer)) := by
  cases answer with
  | error e =>
    show Ends s c (s.giveUp c use q e)
    cases use <;> exact complete_ends s c _
  | ok w =>
    show Ends s c (s.serve c use q w)
    cases use with
    | handOut => exact complete_ends s c _
    | list =>
      simp only [serve]
      rcases s.watchers[w]? with _ | watcher <;> exact complete_ends s c _
    | subscribe name =>
      exact ⟨⟨.over, rfl, rfl⟩, ⟨w, [.subscribe name none], rfl⟩, rfl, rfl, rfl, rfl, rfl, rfl,
        rfl, rfl, rfl⟩
    | get counted =>
      simp only [serve]
      rcases q.name with _ | name
      · exact complete_ends s c _
      · exact tryRead_ends s c counted q name w 0

/-- A call that waits for a given watcher ends or stays where it waits. It was never part of
a slot, so there is none to leave. -/
theorem await_ends (w : WatcherId) : Ends s c (s.await c w) := by
  simp only [await]
  split
  · exact complete_ends s c _
  · split
    · exact complete_ends s c _
    · exact complete_ends s c _
    · exact setCall_ends s c rfl

end

/-! ## One leg of any call -/

/-- What one leg of a call can do. A search that ends does so by a leg of the search first,
and then by what is made of the answer, both in one move. -/
inductive Advance (s : Cache) (c : CallId) : Cache → Prop where
  /-- nothing -/
  | idle (h : (s.call c).starting? = none) : Advance s c s
  /-- the search for a watcher goes on -/
  | onward {s' : Cache} (h : s.current c = (s', none)) : Advance s c s'
  /-- the search ends -/
  | answered {s' s'' : Cache} {use : Use} {q : Query} {answer : Except CacheError WatcherId}
    (herrand : (s.call c).errand? = some (use, q)) (h : s.current c = (s', some answer))
    (hend : Ends s' c s'') : Advance s c s''
  /-- a call that takes part in no slot goes on -/
  | aside {s' : Cache} (h : (s.call c).ticket? = none) (hend : Ends s c s') : Advance s c s'

theorem proceed_cases {s : Cache} {c : CallId} {use : Use} {q : Query}
    (h : (s.call c).errand? = some (use, q)) : Advance s c (s.proceed c use q) := by
  simp only [proceed]
  rcases hleg : s.current c with ⟨s', _ | answer⟩
  · exact .onward hleg
  · exact .answered h hleg (conclude_ends s' c use q answer)

theorem starting?_eq_none {call : Call} (h : call.ticket? = none) : call.starting? = none := by
  cases call <;> first | rfl | cases h

/-- **A leg of a call does one of the listed things.** With `current_leads` this is all that
is ever said about the code of calls: the invariants are proved from these two. -/
theorem advance_cases (s : Cache) (c : CallId) : Advance s c (s.advance c) := by
  have haside : ∀ {s'}, (s.call c).ticket? = none → Ends s c s' → Advance s c s' := .aside
  simp only [advance]
  rcases hcall : s.call c with (⟨use, q⟩ | w) | t | t | ⟨t, r, access, left⟩ | ⟨t, w, deadline⟩ |
    ⟨counted, q, name, w, tries, wake⟩ | w | _ <;> rw [hcall] at haside
  · -- a request that uses the watcher of a kind
    show Advance s c (if lacksName use q then _ else s.proceed c use q)
    split
    · exact haside rfl (complete_ends s c _)
    · exact proceed_cases (by rw [hcall]; rfl)
  · exact haside rfl (await_ends s c w)
  · exact proceed_cases (by rw [hcall]; rfl)
  · exact proceed_cases (by rw [hcall]; rfl)
  · exact proceed_cases (by rw [hcall]; rfl)
  · exact proceed_cases (by rw [hcall]; rfl)
  · show Advance s c (if wake ≤ s.now then s.tryRead c counted q name w tries else s)
    split
    · exact haside rfl (tryRead_ends s c counted q name w tries)
    · exact .idle (by rw [hcall]; rfl)
  · exact haside rfl (await_ends s c w)
  · exact .idle (by rw [hcall]; rfl)

section

variable {s s' : Cache} {c : CallId} {t : Ticket}

/-- A call that takes part in a slot is searching, wherever in the slot it is. -/
theorem advance_of_ticket (ht : (s.call c).ticket? = some t) :
    s.advance c = s.proceed c t.use t.query := by
  simp only [advance]
  rcases hcall : s.call c with _ | _ | _ | _ | _ | _ | _ | _ <;> rw [hcall] at ht <;>
    cases ht <;> rfl

/-- If its search goes on, the leg is just that of the search. -/
theorem advance_onward (ht : (s.call c).ticket? = some t) (hleg : s.current c = (s', none)) :
    s.advance c = s' := by
  rw [advance_of_ticket ht, proceed, hleg]
  rfl

/-- If its search ends, what is left to do is to use the answer. -/
theorem advance_answered (ht : (s.call c).ticket? = some t)
    {answer : Except CacheError WatcherId} (hleg : s.current c = (s', some answer)) :
    Ends s' c (s.advance c) := by
  rw [advance_of_ticket ht, proceed, hleg]
  exact conclude_ends s' c t.use t.query answer

end

end Cache

end KindCache
