import KindCache.Proofs.Cache.Streams
import KindCache.Proofs.Cache.Turns

/-!
# Starting a kind

What the moves of a run do for one kind, and how the starts of a kind follow on
one another.

* `begun`, `ended` — a call begins to start the kind, and how that ends;
* `asked`, `opened`, `openedFor`, `answered` — what is done meanwhile;
* `Aside` — a move that has nothing to do with starting the kind;
  `begun_or_aside` says that all moves are such, but those of the call that
  starts it;
* `Settled` — the kind is running, and stays so as long as its watcher runs
  (`Settled.perform`);
* `ended_between` — before a kind is started again, the start before has ended,
  and without a watcher that still runs.
-/

namespace KindCache

namespace Cache

/-! ## What a move does for a kind -/

section

variable (g : GroupVersionKind) (s : Cache)

/-- The call that begins to start a kind. -/
def begun : Move → Option CallId
  | .advance c => if !s.starts c g && (s.advance c).starts c g then some c else none
  | _ => none

/-- The call that ends to start a kind, and the watcher if there is one: none if the
start fails or the call is dropped. -/
def ended : Move → Option (CallId × Option WatcherId)
  | .advance c =>
    if s.starts c g then (s.current c).2.map fun answer => (c, answer.toOption) else none
  | .cancel c => if s.starts c g then some (c, none) else none
  | _ => none

/-- The right that is asked for on behalf of a kind. -/
def asked : Move → Option Verb
  | .advance c =>
    match s.call c with
    | .probing t _ _ (verb :: _) => if t.query.gvk = g then some verb else none
    | _ => none
  | _ => none

/-- The stream that is opened, by the number of its watcher. -/
def opened (m : Move) : Option WatcherId :=
  if s.watchers.length < (s.perform m).watchers.length then some s.watchers.length else none

/-- The stream that is opened on behalf of a kind. -/
def openedFor : Move → Option WatcherId
  | .advance c => if (s.call c).kind? = some g then s.opened (.advance c) else none
  | _ => none

/-- The watcher with which a search for a kind is answered. -/
def answered : Move → Option WatcherId
  | .advance c =>
    if (s.call c).kind? = some g then (s.current c).2.bind Except.toOption else none
  | _ => none

end

section

variable {s s' : Cache} {c d : CallId} {t : Ticket} {g : GroupVersionKind} {w : WatcherId}
  {m : Move}

/-! ## Calls move one at a time -/

theorem Asked.seen (h : Asked s s') : s'.seen = s.seen := by
  obtain ⟨cluster, registry, meters⟩ := h
  rfl

theorem Awaits.seen (h : Awaits s c t w s') : s'.seen = s.seen := by
  cases h with
  | @opening r access hcall =>
    obtain ⟨cluster, watchers, streams, meters, heq⟩ := s.watcherFor_eq r
    rw [heq]
  | waiting hcall => rfl

/-- A leg moves at most its own call. Each outcome that `Leads` lists sets one point or
none, so nothing later has to look at the legs of other calls. -/
theorem Leads.calls {leg : Leg} (h : Leads s c leg) :
    leg.1.calls = s.calls ∨ ∃ point, leg.1.calls = s.calls.set c point := by
  cases h with
  | resting | found | refused => exact .inl rfl
  | @joined use q hcall hw =>
    obtain ⟨slots, slotOf, i, heq⟩ := s.enqueue_eq c use q
    rw [heq]
    exact .inr ⟨_, rfl⟩
  | shared => exact .inl (leaveSlot_calls ..)
  | begun => exact .inr ⟨_, rfl⟩
  | resolved hcall hs' | reviewed hcall hs' =>
    exact .inr ⟨_, congrArg (List.set · c _) hs'.apart.calls⟩
  | waited ha => exact .inr ⟨_, congrArg (List.set · c _) ha.apart.calls⟩
  | failed hcall hs' => exact .inl ((leaveSlot_calls ..).trans hs'.apart.calls)
  | expired ha | succeeded ha => exact .inl ((leaveSlot_calls ..).trans ha.apart.calls)

/-- What another call does leaves a call where it is, at whatever point of its own search it
stands. -/
theorem Leads.call_other {leg : Leg} (h : Leads s c leg) (hd : d ≠ c) :
    leg.1.call d = s.call d := by
  rcases h.calls with hsame | ⟨point, hset⟩
  · rw [call, call, hsame]
  · exact call_of_set_other hset hd

theorem Ends.call_other (h : Ends s c s') (hd : d ≠ c) : s'.call d = s.call d := by
  obtain ⟨point, -, hcalls⟩ := h.calls
  exact call_of_set_other hcalls hd

/-- The end of a search leaves no errand behind. So a call that has ended, or that pauses
between two tries to read, counts for none of the moves below. -/
theorem Ends.errand? (h : Ends s c s') : (s'.call c).errand? = none := by
  obtain ⟨point, hpoint, hcalls⟩ := h.calls
  rcases call_of_set_self hcalls with hself | hself
  · rw [hself]
    exact hpoint
  · rw [hself]
    rfl

theorem Advance.call_other (h : Advance s c s') (hd : d ≠ c) : s'.call d = s.call d := by
  cases h with
  | idle hcall => rfl
  | onward hleg => exact Leads.call_other (hleg ▸ s.current_leads c) hd
  | answered herrand hleg hend =>
    exact (hend.call_other hd).trans (Leads.call_other (hleg ▸ s.current_leads c) hd)
  | aside hcall hend => exact hend.call_other hd

theorem Leads.calls_length {leg : Leg} (h : Leads s c leg) :
    leg.1.calls.length = s.calls.length := by
  rcases h.calls with hsame | ⟨point, hset⟩
  · rw [hsame]
  · rw [hset, List.length_set]

theorem Ends.calls_length (h : Ends s c s') : s'.calls.length = s.calls.length := by
  obtain ⟨point, -, hcalls⟩ := h.calls
  rw [hcalls, List.length_set]

theorem Advance.calls_length (h : Advance s c s') : s'.calls.length = s.calls.length := by
  cases h with
  | idle => rfl
  | onward hleg => exact Leads.calls_length (hleg ▸ s.current_leads c)
  | answered herrand hleg hend =>
    exact hend.calls_length.trans (Leads.calls_length (hleg ▸ s.current_leads c))
  | aside hcall hend => exact hend.calls_length

/-- A number that no call has yet is treated as that of a call that is over, which is why a
new call is told apart by its number and not by its point. -/
theorem call_of_unborn (h : s.calls.length ≤ c) : s.call c = .over := by
  rw [call, List.getElem?_eq_none h]
  rfl

/-- A move of or to another call leaves a call where it is, unless it makes the call. This
is the frame of a run for one call: only its own legs, its being dropped and its being made
concern it. -/
theorem perform_other (hadvance : m ≠ .advance c) (hcancel : m ≠ .cancel c) :
    ((s.perform m).call c = s.call c ∧
      (c < (s.perform m).calls.length ↔ c < s.calls.length)) ∨
    (c = s.calls.length ∧ c < (s.perform m).calls.length ∧
      ∃ request, (s.perform m).call c = .fresh request) := by
  cases m with
  | submit request =>
    have hcall := s.call_submit request c
    have hlength : (s.perform (.submit request)).calls.length = s.calls.length + 1 :=
      List.length_append
    rw [hlength]
    by_cases hc : c = s.calls.length
    · rw [if_pos hc] at hcall
      exact .inr ⟨hc, hc ▸ Nat.lt_succ_self _, request, hcall⟩
    · rw [if_neg hc] at hcall
      exact .inl ⟨hcall, fun h => Nat.lt_of_le_of_ne (Nat.le_of_lt_succ h) hc, Nat.lt_succ_of_lt⟩
  | advance d =>
    have hcd : c ≠ d := by
      rintro rfl
      exact hadvance rfl
    refine .inl ⟨(s.advance_cases d).call_other hcd, ?_⟩
    rw [perform, (s.advance_cases d).calls_length]
  | cancel d =>
    have hcd : c ≠ d := by
      rintro rfl
      exact hcancel rfl
    refine .inl ⟨?_, ?_⟩
    · rw [perform, call_cancel, if_neg hcd]
    · obtain ⟨slots, heq⟩ := s.cancel_eq d
      rw [perform, heq, List.length_set]
  | gauge w =>
    obtain ⟨meters, heq⟩ := s.gaugeOf_eq w
    rw [perform, heq]
    exact .inl ⟨rfl, Iff.rfl⟩
  | watcherFor r =>
    have happ := Apart.watcherFor s r
    exact .inl ⟨happ.call c, by rw [perform, happ.calls]⟩
  | watch | standalone | shutDown | tick | program => exact .inl ⟨rfl, Iff.rfl⟩

/-! ## What a leg does for a kind -/

/-- A leg marks a kind only with the stream name of the watcher that it ends with, and only
when that watcher is in sync. The three facts come together here because the mark is written
in the leg that finds the relist. -/
theorem Leads.marked {leg : Leg} (h : Leads s c leg) : leg.1.seen = s.seen ∨
    ∃ t w s' watcher, Awaits s c t w s' ∧ s'.watchers[w]? = some watcher ∧
      watcher.synced = true ∧ leg.2 = some (.ok w) ∧
      leg.1.seen = Table.put t.query.gvk watcher.resource.streamName s.seen := by
  cases h with
  | resting | found | refused | begun => exact .inl rfl
  | @joined use q hcall hw =>
    obtain ⟨slots, slotOf, i, heq⟩ := s.enqueue_eq c use q
    rw [heq]
    exact .inl rfl
  | shared => exact .inl (leaveSlot_seen ..)
  | resolved hcall hs' | reviewed hcall hs' => exact .inl hs'.seen
  | waited ha => exact .inl ha.seen
  | failed hcall hs' => exact .inl ((leaveSlot_seen ..).trans hs'.seen)
  | expired ha => exact .inl ((leaveSlot_seen ..).trans ha.seen)
  | @succeeded t w s' watcher ha hget hsynced =>
    refine .inr ⟨t, w, s', watcher, ha, hget, hsynced, rfl, (leaveSlot_seen ..).trans ?_⟩
    show Table.put _ _ s'.seen = _
    rw [ha.seen]

/-- The same for a leg of any call. What is done with the watcher afterwards (`Ends`) does
not touch the marks. -/
theorem Advance.marked (h : Advance s c s') : s'.seen = s.seen ∨
    ∃ t w s₁ watcher, Awaits s c t w s₁ ∧ s₁.watchers[w]? = some watcher ∧
      watcher.synced = true ∧ (s.current c).2 = some (.ok w) ∧
      s'.seen = Table.put t.query.gvk watcher.resource.streamName s.seen := by
  cases h with
  | idle => exact .inl rfl
  | onward hleg =>
    have hleads := Leads.marked (hleg ▸ s.current_leads c)
    rwa [hleg]
  | answered herrand hleg hend =>
    have hleads := Leads.marked (hleg ▸ s.current_leads c)
    rw [hleg, hend.seen]
    exact hleads
  | aside hcall hend => exact .inl hend.seen

/-- A call that stands at a point and starts a kind does so by that point. The number of the
call need not be one that is there: a call that is not there stands at no such point. -/
theorem starting_of_set {point : Call} (hcalls : s'.calls = s.calls.set c point)
    (ht : (s'.call c).starting? = some t) : point.starting? = some t := by
  rcases call_of_set_self hcalls with hself | hself
  · rwa [hself] at ht
  · rw [hself] at ht
    cases ht

/-- After a leg that goes on, a call starts a kind if it did so before, or if it has got its
turn and the kind is not running. The second case is the only way into a start, and it
changes nothing but the point of the call. -/
theorem Leads.starting {leg : Leg} (h : Leads s c leg) (hnone : leg.2 = none)
    (ht : (leg.1.call c).starting? = some t) : (s.call c).starting? = some t ∨
      (s.call c = .queued t ∧ s.seenWatcher? t.query.gvk = none ∧
        leg.1 = s.setCall c (.resolving t)) := by
  cases h with
  | resting hcall => exact .inl ht
  | @joined use q hcall hw =>
    obtain ⟨slots, slotOf, i, heq⟩ := s.enqueue_eq c use q
    rw [heq] at ht
    cases starting_of_set (s := s) rfl ht
  | @begun u hcall hturn hw =>
    have hpoint : (Call.resolving u).starting? = some t := starting_of_set (s := s) rfl ht
    obtain rfl := Option.some.inj hpoint
    exact .inr ⟨hcall, hw, rfl⟩
  | @resolved u r s' hcall hs' =>
    have hpoint : (Call.probing u r .denied Verb.required).starting? = some t :=
      starting_of_set (s := s') rfl ht
    rw [hcall]
    exact .inl hpoint
  | @reviewed u r access access' verb left s' hcall hs' =>
    have hpoint : (Call.probing u r access' left).starting? = some t :=
      starting_of_set (s := s') rfl ht
    rw [hcall]
    exact .inl hpoint
  | @waited u w s' deadline ha =>
    have hpoint : (Call.syncing u w deadline).starting? = some t :=
      starting_of_set (s := s') rfl ht
    rw [ha.starting]
    exact .inl hpoint
  | found | refused | shared | failed | expired | succeeded => cases hnone

/-- Whoever has ended its search starts nothing any more. -/
theorem Ends.starts (h : Ends s c s') (g : GroupVersionKind) : s'.starts c g = false := by
  rw [Cache.starts, starting?_eq_none (ticket?_of_errand h.errand?)]
  rfl

/-- **A start begins with the turn.** A call begins to start a kind in the leg in which it
finds that it has its turn and that the kind is not running, and in no other. That leg
changes nothing else. -/
theorem Advance.begins (h : Advance s c s') (hnot : s.starts c g = false)
    (hstarts : s'.starts c g = true) : ∃ t, s.call c = .queued t ∧ t.query.gvk = g ∧
      s.seenWatcher? g = none ∧ s' = s.setCall c (.resolving t) := by
  cases h with
  | idle hcall =>
    rw [hnot] at hstarts
    cases hstarts
  | onward hleg =>
    obtain ⟨t, ht, rfl⟩ := starts_iff.mp hstarts
    rcases Leads.starting (hleg ▸ s.current_leads c) rfl ht with hcall | ⟨hcall, hw, heq⟩
    · rw [starts_iff.mpr ⟨t, hcall, rfl⟩] at hnot
      cases hnot
    · exact ⟨t, hcall, rfl, hw, heq⟩
  | answered herrand hleg hend =>
    rw [hend.starts] at hstarts
    cases hstarts
  | aside hcall hend =>
    rw [hend.starts] at hstarts
    cases hstarts

/-- Only a call that starts the kind marks it. A call that found the kind running may end in
the same leg, but it leaves the marks as they are. -/
theorem Advance.seen (h : Advance s c s') (hnot : s.starts c g = false) :
    s'.seen.lookup g = s.seen.lookup g := by
  rcases h.marked with hsame | ⟨t, w, s₁, watcher, ha, -, -, -, hput⟩
  · rw [hsame]
  · rw [hput, Table.lookup_put, if_neg]
    rintro rfl
    rw [starts_iff.mpr ⟨t, ha.starting, rfl⟩] at hnot
    cases hnot

/-- Only a call that has asked for all rights opens a stream. With this, a stream that
appears in a run can be traced to a call with all its answers. -/
theorem Advance.watchers (h : Advance s c s') : s'.watchers.length = s.watchers.length ∨
    ∃ t r access, s.call c = .probing t r access [] ∧
      s'.watchers.length = (s.watcherFor r).1.watchers.length := by
  cases h with
  | idle hcall => exact .inl rfl
  | onward hleg =>
    rcases Leads.watchers (hleg ▸ s.current_leads c) with hsame | ⟨t, r, access, hcall, hnew⟩
    · exact .inl (congrArg _ hsame)
    · exact .inr ⟨t, r, access, hcall, congrArg _ hnew⟩
  | answered herrand hleg hend =>
    have hlength := hend.evolves.length
    rcases Leads.watchers (hleg ▸ s.current_leads c) with hsame | ⟨t, r, access, hcall, hnew⟩
    · exact .inl (hlength.trans (congrArg _ hsame))
    · exact .inr ⟨t, r, access, hcall, hlength.trans (congrArg _ hnew)⟩
  | aside hcall hend => exact .inl hend.evolves.length

/-! ## Moves that have nothing to do with starting a kind -/

/-- A move that has nothing to do with starting a kind. All that is observed of a start is
listed, so that a run can be cut at the moves that are not of this sort and everything in
between be skipped. -/
structure Aside (g : GroupVersionKind) (s : Cache) (m : Move) : Prop where
  /-- whoever starts the kind stays where it is -/
  call : ∀ c, s.starts c g = true → (s.perform m).call c = s.call c
  /-- nobody else starts it -/
  starts : ∀ c, (s.perform m).starts c g = true → s.starts c g = true
  /-- the kind is not marked -/
  seen : (s.perform m).seen.lookup g = s.seen.lookup g
  begun : begun g s m = none
  ended : ended g s m = none
  asked : asked g s m = none
  openedFor : openedFor g s m = none
  /-- an answer is known from before -/
  answered : ∀ w, answered g s m = some w → s.seenWatcher? g = some w

/-- An answer to a search for a kind is known from before, or comes from starting the kind.
A call that waited for its turn belongs to the first sort if the call before it has
succeeded. -/
theorem Leads.known {leg : Leg} (h : Leads s c leg) (hw : leg.2 = some (.ok w))
    (hkind : (s.call c).kind? = some g) :
    s.seenWatcher? g = some w ∨ s.starts c g = true := by
  cases h with
  | found hcall hseen =>
    obtain rfl := Except.ok.inj (Option.some.inj hw)
    rw [hcall] at hkind
    obtain rfl := Option.some.inj hkind
    exact .inl hseen
  | shared hcall hturn hseen =>
    obtain rfl := Except.ok.inj (Option.some.inj hw)
    rw [hcall] at hkind
    obtain rfl := Option.some.inj hkind
    exact .inl hseen
  | @succeeded t v s' watcher ha hget hsynced =>
    refine .inr (starts_iff.mpr ⟨t, ha.starting, ?_⟩)
    rw [Call.kind?, errand?_of_ticket (ticket?_of_starting ha.starting)] at hkind
    exact Option.some.inj hkind
  | refused | failed | expired => cases hw
  | resting | joined | begun | resolved | reviewed | waited => cases hw

/-- What an answer says of the move: it is a leg of a call that looks for the kind, and the
last one of its search. -/
theorem answered_inv (h : answered g s m = some w) : ∃ c, m = .advance c ∧
    (s.call c).kind? = some g ∧ (s.current c).2 = some (.ok w) := by
  cases m with
  | advance c =>
    change (if _ then _ else none) = some w at h
    split at h
    · next hkind =>
      obtain ⟨answer, hanswer, hok⟩ := Option.bind_eq_some_iff.mp h
      cases answer with
      | error e => cases hok
      | ok v =>
        obtain rfl := Option.some.inj hok
        exact ⟨c, rfl, hkind, hanswer⟩
    · cases h
  | _ => cases h

/-- Rights are asked for only by a call that starts the kind, so a move of any other call
asks for none. -/
theorem asked_eq_none (h : ∀ c, m = .advance c → s.starts c g = false) :
    asked g s m = none := by
  cases m with
  | advance c =>
    have hnot := h c rfl
    show (match s.call c with
      | .probing t _ _ (verb :: _) => if t.query.gvk = g then some verb else none
      | _ => none) = none
    split
    · next t r access verb left hcall =>
      refine if_neg fun hkind => ?_
      rw [starts_iff.mpr ⟨t, by rw [hcall]; rfl, hkind⟩] at hnot
      cases hnot
    · rfl
  | _ => rfl

/-- Streams are opened on behalf of a kind only by a call that starts it. What is opened for
a given resource, or beside the cache, does not count here. -/
theorem openedFor_eq_none (h : ∀ c, m = .advance c → s.starts c g = false) :
    openedFor g s m = none := by
  cases m with
  | advance c =>
    have hnot := h c rfl
    show (if (s.call c).kind? = some g then s.opened (.advance c) else none) = none
    split
    · next hkind =>
      refine if_neg fun (hmore : s.watchers.length < (s.advance c).watchers.length) => ?_
      rcases (s.advance_cases c).watchers with hsame | ⟨t, r, access, hcall, -⟩
      · omega
      · rw [hcall] at hkind
        rw [starts_iff.mpr ⟨t, by rw [hcall]; rfl, Option.some.inj hkind⟩] at hnot
        cases hnot
    · rfl
  | _ => rfl

/-- A move of another call leaves a call where it is, unless the call is new, and a new call
starts nothing. This is `perform_other` with the new call put aside. -/
theorem perform_call (hadvance : m ≠ .advance c) (hcancel : m ≠ .cancel c) :
    (s.perform m).call c = s.call c ∨
      (s.starts c g = false ∧ (s.perform m).starts c g = false) := by
  rcases perform_other (s := s) hadvance hcancel with ⟨hcall, -⟩ | ⟨hnew, -, request, hcall⟩
  · exact .inl hcall
  · refine .inr ⟨?_, ?_⟩
    · rw [Cache.starts, call_of_unborn (Nat.le_of_eq hnew.symm)]
      rfl
    · rw [Cache.starts, hcall]
      rfl

/-- A move of a call that does not start a kind does not mark it. Moves that are no legs
mark nothing at all. -/
theorem perform_seen (h : ∀ c, m = .advance c → s.starts c g = false) :
    (s.perform m).seen.lookup g = s.seen.lookup g := by
  rcases s.leg_or_outward m with ⟨c, rfl⟩ | hm
  · exact (s.advance_cases c).seen (h c rfl)
  · rw [hm.seen]

/-- A dropped call starts nothing, whether or not it did before. -/
theorem cancel_starts (s : Cache) (c : CallId) (g : GroupVersionKind) :
    (s.cancel c).starts c g = false := by
  rw [Cache.starts, call_cancel, if_pos rfl]
  rfl

theorem ended_eq_none (h : ∀ c, m = .advance c ∨ m = .cancel c → s.starts c g = false) :
    ended g s m = none := by
  have hfalse : ∀ {b : Bool}, b = false → ¬ b = true := by
    rintro b rfl
    exact Bool.false_ne_true
  cases m with
  | advance c => exact if_neg (hfalse (h c (.inl rfl)))
  | cancel c => exact if_neg (hfalse (h c (.inr rfl)))
  | _ => rfl

/-- A move of or to a call that neither starts the kind nor begins to has nothing to do with
starting it. All the fields of `Aside` follow from these two facts, which are decided by
looking at the state before. -/
theorem Aside.of_idle (h : ∀ c, m = .advance c ∨ m = .cancel c → s.starts c g = false)
    (hbegun : Cache.begun g s m = none) : Aside g s m := by
  -- only a leg of the call itself, or dropping it, could concern the kind
  have hadvance : ∀ c, m = .advance c → s.starts c g = false := fun c hm => h c (.inl hm)
  refine ⟨fun c hc => ?_, fun c hc => ?_, perform_seen hadvance, hbegun, ended_eq_none h,
    asked_eq_none hadvance, openedFor_eq_none hadvance, fun w hw => ?_⟩
  · -- whoever starts the kind does not move
    have hother : ¬ (m = .advance c ∨ m = .cancel c) := by
      intro hm
      rw [h c hm] at hc
      cases hc
    obtain ⟨hadvance, hcancel⟩ := not_or.mp hother
    rcases perform_call (s := s) (g := g) hadvance hcancel with hcall | ⟨hnot, -⟩
    · exact hcall
    · rw [hnot] at hc
      cases hc
  · -- whoever starts it afterwards has not begun to, so it did before
    by_cases hadv : m = .advance c
    · subst hadv
      have hnew : Cache.begun g s (.advance c) = some c :=
        if_pos (by rw [h c (.inl rfl)]; exact hc)
      rw [hbegun] at hnew
      cases hnew
    · by_cases hcan : m = .cancel c
      · subst hcan
        rw [perform, cancel_starts] at hc
        cases hc
      · rcases perform_call (s := s) (g := g) hadv hcan with hcall | ⟨-, hnot⟩
        · rwa [Cache.starts, hcall] at hc
        · rw [hnot] at hc
          cases hc
  · obtain ⟨c, rfl, hkind, hok⟩ := answered_inv hw
    rcases (s.current_leads c).known hok hkind with hseen | hstarts
    · exact hseen
    · rw [hadvance c rfl] at hstarts
      cases hstarts

/-- Nobody comes to start a kind by such a move. So a kind that nobody starts stays so until
a move that begins a start. -/
theorem Aside.idle (h : Aside g s m) (hidle : ∀ c, s.starts c g = false) (c : CallId) :
    (s.perform m).starts c g = false := by
  rcases hc : (s.perform m).starts c g with _ | _
  · rfl
  · rw [← hidle c]
    exact (h.starts c hc).symm

/-- **Three sorts of moves.** A move begins to start a kind, is made by or to the call that
starts it, or has nothing to do with that. Every run is read along this division, for one
kind at a time. -/
theorem begun_or_aside (g : GroupVersionKind) (s : Cache) (m : Move) :
    (∃ c, begun g s m = some c) ∨
      (∃ c, s.starts c g = true ∧ (m = .advance c ∨ m = .cancel c)) ∨ Aside g s m := by
  by_cases hown : ∃ c, s.starts c g = true ∧ (m = .advance c ∨ m = .cancel c)
  · exact .inr (.inl hown)
  · rcases hbegun : begun g s m with _ | c
    · refine .inr (.inr (.of_idle (fun c hm => ?_) hbegun))
      rcases hc : s.starts c g with _ | _
      · rfl
      · exact absurd ⟨c, hc, hm⟩ hown
    · exact .inl ⟨c, rfl⟩

/-- A call that begins to start a kind has its turn, and the kind is not running. Since the
move only sets the point of the call, whatever holds of the rest of the state holds before
and after. -/
theorem begun_inv (h : begun g s m = some c) : m = .advance c ∧ s.starts c g = false ∧
    (s.perform m).starts c g = true ∧ ∃ t, s.call c = .queued t ∧ t.query.gvk = g ∧
      s.seenWatcher? g = none ∧ s.perform m = s.setCall c (.resolving t) := by
  cases m with
  | advance d =>
    change (if _ then _ else none) = some c at h
    split at h
    · next hguard =>
      obtain rfl := Option.some.inj h
      obtain ⟨hnot, hstarts⟩ := Bool.and_eq_true_iff.mp hguard
      have hnot : s.starts d g = false := by simpa using hnot
      exact ⟨rfl, hnot, hstarts, (s.advance_cases d).begins hnot hstarts⟩
    · cases h
  | _ => cases h

/-! ## A kind that is running -/

/-- A kind that was started, by a watcher of the cache, and that nobody starts. Whether the
watcher runs is left out on purpose: a settled kind stays settled in this sense until its
watcher ends, and it is the end that allows a new start. -/
structure Settled (s : Cache) (g : GroupVersionKind) (w : WatcherId) : Prop where
  /-- the kind is marked with the stream name of the watcher -/
  marked : ∃ watcher, s.watchers[w]? = some watcher ∧ watcher.tied = true ∧
    s.seen.lookup g = some watcher.resource.streamName
  /-- nobody starts it -/
  idle : ∀ c, s.starts c g = false

/-- As long as its watcher runs, a settled kind needs no start. The mark leads to the stream
name, and the table of streams has the running watcher of that name (`Streams`). -/
theorem Settled.seenWatcher? (h : Settled s g w) (hs : Streams s)
    (hrun : s.isRunning w = true) : s.seenWatcher? g = some w := by
  obtain ⟨watcher, hget, htied, hseen⟩ := h.marked
  obtain ⟨j, hj, -, hlatest⟩ := hs.latest w watcher hget htied
  obtain ⟨watcher', hget', hrunning⟩ := isRunning_iff.mp hrun
  obtain rfl := Option.some.inj (hget.symm.trans hget')
  obtain rfl := hlatest hrunning
  exact seenWatcher?_eq_some.mpr ⟨_, hseen, hj, hrun⟩

/-- A move leaves a kind settled if its watcher still runs. It cannot be one that begins
a start, as that would have found the watcher, and there is no start that it could
belong to. -/
theorem Settled.perform (h : Settled s g w) (hs : Streams s)
    (hrun : (s.perform m).isRunning w = true) : Aside g s m ∧ Settled (s.perform m) g w := by
  obtain ⟨watcher, hget, htied, hseen⟩ := h.marked
  have hknown := h.seenWatcher? hs ((perform_grows s m).running hget hrun)
  rcases begun_or_aside g s m with ⟨c, hc⟩ | ⟨c, hc, -⟩ | haside
  · -- a call that gets its turn finds the watcher and begins nothing
    obtain ⟨-, -, -, t, -, -, hnone, -⟩ := begun_inv hc
    rw [hknown] at hnone
    cases hnone
  · rw [h.idle c] at hc
    cases hc
  · obtain ⟨watcher', hget', hlater⟩ := (perform_grows s m).later hget
    refine ⟨haside, ⟨watcher', hget', hlater.tied.trans htied, ?_⟩, haside.idle h.idle⟩
    rw [haside.seen, hseen, hlater.resource]

/-- A run leaves a kind settled if its watcher still runs at the end. Watchers do not run
again once they have ended, so it has been running all the time. -/
theorem Settled.run {moves : List Move} (h : Settled s g w) (hs : Streams s)
    (hrun : (s.runMoves moves).isRunning w = true) : Settled (s.runMoves moves) g w := by
  induction moves generalizing s with
  | nil => exact h
  | cons m moves ih =>
    obtain ⟨watcher, hget, -⟩ := h.marked
    obtain ⟨watcher', hget', -⟩ := (perform_grows s m).later hget
    have hnow : (s.perform m).isRunning w = true := (run_grows _ moves).running hget' hrun
    exact ih (h.perform hs hnow).2 (hs.perform m) hrun

/-- A call that starts a kind is answered with a watcher of the cache, and marks the kind
with the stream name of it. It is here that the mark and the answer are seen to agree. -/
theorem Leads.marks {leg : Leg} (h : Leads s c leg) (hs : Streams s)
    (ht : (s.call c).starting? = some t) (hw : leg.2 = some (.ok w)) :
    ∃ watcher, leg.1.watchers[w]? = some watcher ∧ watcher.tied = true ∧
      leg.1.seen.lookup t.query.gvk = some watcher.resource.streamName := by
  cases h with
  | @succeeded u v s' watcher ha hget hsynced =>
    obtain rfl := Option.some.inj (ha.starting.symm.trans ht)
    obtain rfl := Except.ok.inj (Option.some.inj hw)
    obtain ⟨-, watcher', hget', htied⟩ := hs.awaits ha
    obtain rfl := Option.some.inj (hget.symm.trans hget')
    rw [leave, leaveSlot_watchers, leaveSlot_seen]
    refine ⟨watcher, hget, htied, ?_⟩
    show (Table.put _ _ s'.seen).lookup _ = _
    rw [Table.lookup_put, if_pos rfl]
  | found hcall | shared hcall =>
    rw [hcall] at ht
    cases ht
  | refused | failed | expired => cases hw
  | resting | joined | begun | resolved | reviewed | waited => cases hw

/-- The start of a kind ends with the search of its call, with or without a watcher. -/
theorem ended_of_answer (hc : s.starts c g = true) {answer : Except CacheError WatcherId}
    (h : (s.current c).2 = some answer) :
    ended g s (.advance c) = some (c, answer.toOption) := by
  show (if _ then _ else none) = _
  rw [if_pos hc, h]
  rfl

/-- The end of a start with a watcher is a leg. A start that ends because its call is
dropped has no watcher. -/
theorem ended_inv (h : ended g s m = some (c, some w)) :
    m = .advance c ∧ s.starts c g = true ∧ (s.current c).2 = some (.ok w) := by
  cases m with
  | advance d =>
    change (if _ then _ else none) = _ at h
    split at h
    · next hstarts =>
      obtain ⟨answer, hanswer, heq⟩ := Option.map_eq_some_iff.mp h
      cases answer with
      | error e => cases heq
      | ok v =>
        cases heq
        exact ⟨rfl, hstarts, hanswer⟩
    · cases h
  | cancel d =>
    change (if _ then _ else none) = _ at h
    split at h <;> cases h
  | _ => cases h

/-- When the start of a kind ends with a watcher, the kind is settled. That nobody else
starts it at this moment is due to the turns: two calls for one kind never have theirs at
once. -/
theorem settled_of_ended (hs : Streams s) (ht : Turns s)
    (h : ended g s m = some (c, some w)) : Settled (s.perform m) g w := by
  obtain ⟨rfl, hstarts, hok⟩ := ended_inv h
  obtain ⟨t, hcall, rfl⟩ := starts_iff.mp hstarts
  rcases hleg : s.current c with ⟨s', answer⟩
  rw [hleg] at hok
  obtain rfl : answer = some (.ok w) := hok
  have hend : Ends s' c (s.advance c) := advance_answered (ticket?_of_starting hcall) hleg
  obtain ⟨watcher, hget, htied, hseen⟩ :=
    Leads.marks (hleg ▸ s.current_leads c) hs hcall rfl
  obtain ⟨watcher', hget', hlater⟩ := hend.evolves.after hget
  refine ⟨⟨watcher', hget', hlater.tied.trans htied, ?_⟩, fun d => ?_⟩
  · show (s.advance c).seen.lookup _ = _
    rw [hend.seen, hseen, hlater.resource]
  · rcases hd : (s.perform (.advance c)).starts d t.query.gvk with _ | _
    · rfl
    · -- only this call was starting the kind
      have hdc : d ≠ c := by
        rintro rfl
        rw [perform, hend.starts] at hd
        cases hd
      rw [Cache.starts, perform, (s.advance_cases c).call_other hdc] at hd
      exact absurd (ht.exclusive hd hstarts) hdc

/-! ## One start after the other -/

/-- The point at which a call stands that has moved there. That the call has a ticket is
what says that its number is one of a call. -/
theorem call_of_move {point : Call} (hs' : Apart s s') (ht : (s.call c).ticket? = some t) :
    (s'.setCall c point).call c = point := by
  have hlt : c < s'.calls.length := by
    rw [hs'.calls]
    exact lt_of_errand (errand?_of_ticket ht)
  rw [call_of_set (s := s') rfl hlt, if_pos rfl]

/-- A call that starts a kind and goes on still starts it. It keeps its ticket from the
first question to the relist. -/
theorem Leads.persists {leg : Leg} (h : Leads s c leg) (hnone : leg.2 = none)
    (ht : (s.call c).starting? = some t) : (leg.1.call c).starting? = some t := by
  have hticket := ticket?_of_starting ht
  cases h with
  | resting hcall =>
    rw [hcall] at ht
    cases ht
  | joined hcall | begun hcall =>
    rw [hcall] at ht
    cases ht
  | resolved hcall hs' =>
    rw [call_of_move hs'.apart hticket, ← ht, hcall]
    rfl
  | reviewed hcall hs' =>
    rw [call_of_move hs'.apart hticket, ← ht, hcall]
    rfl
  | waited ha =>
    rw [call_of_move ha.apart hticket, ← ht, ha.starting]
    rfl
  | found | refused | shared | failed | expired | succeeded => cases hnone

theorem starts_of_onward (hc : s.starts c g = true) (hleg : s.current c = (s', none)) :
    (s.perform (.advance c)).starts c g = true := by
  obtain ⟨t, ht, rfl⟩ := starts_iff.mp hc
  have hs' : s.perform (.advance c) = s' := advance_onward (ticket?_of_starting ht) hleg
  rw [hs']
  exact starts_iff.mpr ⟨t, Leads.persists (hleg ▸ s.current_leads c) rfl ht, rfl⟩

/-- A call that starts a kind does so until its start ends. There is no third way: neither a
move of another call nor one from outside can take its point away. -/
theorem starts_or_ended (h : s.starts c g = true) (hnot : (s.perform m).starts c g = false) :
    ∃ outcome, ended g s m = some (c, outcome) := by
  obtain ⟨t, ht, rfl⟩ := starts_iff.mp h
  by_cases hcancel : m = .cancel c
  · subst hcancel
    exact ⟨none, if_pos h⟩
  · by_cases hadvance : m = .advance c
    · subst hadvance
      rcases hleg : s.current c with ⟨s', _ | answer⟩
      · rw [starts_of_onward h hleg] at hnot
        cases hnot
      · exact ⟨answer.toOption, ended_of_answer h (congrArg (·.2) hleg)⟩
    · rcases perform_call (s := s) (g := t.query.gvk) hadvance hcancel with hcall | ⟨hno, -⟩
      · rw [Cache.starts, hcall] at hnot
        rw [Cache.starts, hnot] at h
        cases h
      · rw [hno] at h
        cases h

/-- A call that starts a kind and does so no longer after a run has ended its start
somewhere in between. -/
theorem exists_ended {moves : List Move} (h : s.starts c g = true)
    (hnot : (s.runMoves moves).starts c g = false) :
    ∃ before e after outcome, moves = before ++ e :: after ∧
      ended g (s.runMoves before) e = some (c, outcome) := by
  induction moves generalizing s with
  | nil =>
    rw [runMoves_nil, h] at hnot
    cases hnot
  | cons m moves ih =>
    rcases hm : (s.perform m).starts c g with _ | _
    · obtain ⟨outcome, hended⟩ := starts_or_ended h hm
      exact ⟨[], m, moves, outcome, rfl, hended⟩
    · obtain ⟨before, e, after, outcome, rfl, hended⟩ := ih hm hnot
      exact ⟨m :: before, e, after, outcome, rfl, hended⟩

/-- Nobody starts a kind when a call begins to. The call that begins has its turn in the
slot of the kind, and all who start the kind have theirs in the same slot. -/
theorem idle_of_begun (hs : Reachable s) (h : begun g s m = some d) (c : CallId) :
    s.starts c g = false := by
  obtain ⟨rfl, hnot, hbegins, -⟩ := begun_inv h
  by_cases hcd : c = d
  · rw [hcd]
    exact hnot
  · rcases hc : s.starts c g with _ | _
    · rfl
    · have hstays : (s.perform (.advance d)).starts c g = true := by
        rw [Cache.starts, perform, (advance_cases s d).call_other hcd]
        exact hc
      exact absurd ((turns_of_reachable (hs.perform _)).exclusive hstays hbegins) hcd

/-- **One start after the other.** Before a kind is started again, the start before has
ended, and if it ended with a watcher, that one runs no more. The first half comes from
the turns, the second from the kind being settled: as long as the watcher runs, no call
begins. -/
theorem ended_between (hs : Reachable s) {between : List Move} {m' : Move}
    (hm : begun g s m = some c)
    (hm' : begun g ((s.perform m).runMoves between) m' = some d) :
    ∃ before e after outcome, between = before ++ e :: after ∧
      ended g ((s.perform m).runMoves before) e = some (c, outcome) ∧
      ∀ w, outcome = some w → ((s.perform m).runMoves between).isRunning w = false := by
  obtain ⟨-, -, hstarts, -⟩ := begun_inv hm
  obtain ⟨-, -, -, t, -, -, hnone, -⟩ := begun_inv hm'
  have hafter : Reachable ((s.perform m).runMoves between) := (hs.perform m).runMoves between
  -- two calls cannot start one kind, so the first one has ended by then
  have hover : ((s.perform m).runMoves between).starts c g = false := idle_of_begun hafter hm' c
  obtain ⟨before, e, after, outcome, rfl, hended⟩ := exists_ended hstarts hover
  refine ⟨before, e, after, outcome, rfl, hended, ?_⟩
  rintro w rfl
  rcases hrun : ((s.perform m).runMoves (before ++ e :: after)).isRunning w with _ | _
  · rfl
  · -- a watcher that still ran would be known for the kind
    have hbefore : Reachable ((s.perform m).runMoves before) := (hs.perform m).runMoves before
    have hsettled := settled_of_ended (streams_of_reachable hbefore)
      (turns_of_reachable hbefore) hended
    rw [runMoves_append, runMoves_cons] at hrun hnone
    have hknown := (hsettled.run (streams_of_reachable (hbefore.perform e)) hrun).seenWatcher?
      (streams_of_reachable ((hbefore.perform e).runMoves after)) hrun
    rw [hknown] at hnone
    cases hnone

end

end Cache

end KindCache
