import Mathlib.Data.Finset.Card
import KindCache.Cache.Overview
import KindCache.Proofs.Cache.Bootstrap
import KindCache.Proofs.Cache.Lanes

/-!
# Slots that are left behind

A kind has a slot on the table as long as a call takes part in it. The last call through takes
the slot off the table; a call that is dropped does not, so that the slot of a kind stays if the
last call in it is dropped.

* `attended` — the kinds for which some call holds or awaits the slot;
* `exit`, `lastExit`, `deserted` — how calls have left the slots, and the kinds whose slot was
  left last by a call that was dropped;
* `Turnover` — what a move does to the slots and to who is in them (`perform_turnover`);
* `occupied_iff` — hence which kinds have a slot after a run;
* `slots_eq_attended_iff` — how many there are;
* `forsaken_slot` — a slot is left behind.
-/

namespace KindCache

/-! ## Who is in a slot -/

/-- The kind in whose slot a call takes part. -/
def Call.attends? (call : Call) : Option GroupVersionKind :=
  call.ticket?.map (·.query.gvk)

/-- How a call leaves a slot. -/
inductive Exit where
  /-- its turn has come, and it has used it -/
  | through
  /-- it was dropped -/
  | dropped
deriving DecidableEq

/-- A slot that is handed on stays exactly if somebody waits for it. This is the count check
that the last call through makes before it takes the slot off the table. -/
theorem Slot.isSome_handOn {slot : Slot} :
    slot.handOn.isSome = true ↔ ∃ d, d ∈ slot.waiting := by
  rw [handOn]
  split
  · next hnone => simp [hnone]
  · next hsome => simpa using List.exists_mem_of_ne_nil _ hsome

namespace Cache

/-- The kinds for which some call holds or awaits the slot. -/
def attended (s : Cache) : Finset GroupVersionKind :=
  (s.calls.filterMap Call.attends?).toFinset

/-- The slot that a call leaves, by its kind, and how. -/
def exit (s : Cache) : Move → Option (GroupVersionKind × Exit)
  | .advance c =>
    if ((s.advance c).call c).attends? = none then (s.call c).attends?.map (·, .through) else none
  | .cancel c => (s.call c).attends?.map (·, .dropped)
  | _ => none

/-- How the slot of a kind was left for the last time. -/
def lastExit (g : GroupVersionKind) (s : Cache) (moves : List Move) : Option Exit :=
  (trace exit s moves).reverse.lookup g

/-- The kinds for which no call holds or awaits the slot, and whose slot was left last by a call
that was dropped. -/
def deserted (s : Cache) (moves : List Move) : Finset GroupVersionKind :=
  ((trace exit s moves).map (·.1)).toFinset.filter fun g =>
    g ∉ (s.runMoves moves).attended ∧ lastExit g s moves = some .dropped

section

variable {s s' s₁ : Cache} {c d : CallId} {t : Ticket} {g k : GroupVersionKind} {m : Move}

theorem attends?_of_ticket {call : Call} (h : call.ticket? = some t) :
    call.attends? = some t.query.gvk := by
  rw [Call.attends?, h]
  rfl

theorem attends?_eq_some {call : Call} :
    call.attends? = some g ↔ ∃ t, call.ticket? = some t ∧ t.query.gvk = g :=
  Option.map_eq_some_iff

theorem attends?_eq_none {call : Call} : call.attends? = none ↔ call.ticket? = none :=
  Option.map_eq_none_iff

/-- Calls that are over attend nothing, so it does not matter that `attended` looks through
the list of calls and `call` also answers for numbers that no call has. -/
theorem mem_attended : g ∈ s.attended ↔ ∃ c, (s.call c).attends? = some g := by
  simp only [attended, List.mem_toFinset, List.mem_filterMap]
  constructor
  · rintro ⟨call, hmem, hg⟩
    obtain ⟨c, hc⟩ := List.mem_iff_getElem?.mp hmem
    refine ⟨c, ?_⟩
    rw [Cache.call, hc]
    exact hg
  · rintro ⟨c, hc⟩
    have hlt : c < s.calls.length := by
      refine lt_of_call fun hover => ?_
      rw [hover] at hc
      cases hc
    exact ⟨s.call c, List.mem_of_getElem? (getElem?_calls hlt), hc⟩

/-- The number that the table has for a kind is that of a slot, so a kind has a slot as soon
as it is on the table. -/
theorem isSome_slotFor (h : Queues s) :
    (s.slotFor g).isSome = (s.slotOf.lookup g).isSome := by
  rw [slotFor]
  rcases hlookup : s.slotOf.lookup g with _ | i
  · rfl
  · rw [Option.bind_some, List.getElem?_eq_getElem (h.tabled g i hlookup)]
    rfl

/-! ## What a move does to the slots -/

/-- What a move does to the slots and to who is in them, with the slot that is left by it. -/
inductive Turnover (s s' : Cache) : Option (GroupVersionKind × Exit) → Prop where
  /-- nothing -/
  | stays (hslots : ∀ g, (s'.slotFor g).isSome = (s.slotFor g).isSome)
    (hcalls : ∀ d, (s'.call d).attends? = (s.call d).attends?) : Turnover s s' none
  /-- a call takes part in the slot of a kind, a new one if there was none -/
  | enters {c : CallId} {k : GroupVersionKind} (hc : (s.call c).attends? = none)
    (hslots : ∀ g, (s'.slotFor g).isSome = (decide (g = k) || (s.slotFor g).isSome))
    (hcalls : ∀ d, (s'.call d).attends? = if d = c then some k else (s.call d).attends?) :
    Turnover s s' none
  /-- a call that has used its turn leaves, and the slot stays if there are others in it -/
  | leaves {c : CallId} {k : GroupVersionKind} (hc : (s.call c).attends? = some k)
    (hcalls : ∀ d, (s'.call d).attends? = if d = c then none else (s.call d).attends?)
    (hother : ∀ g, g ≠ k → (s'.slotFor g).isSome = (s.slotFor g).isSome)
    (hslot : (s'.slotFor k).isSome = true ↔ ∃ d, (s'.call d).attends? = some k) :
    Turnover s s' (some (k, .through))
  /-- a call is dropped, and the slot stays -/
  | drops {c : CallId} {k : GroupVersionKind} (hc : (s.call c).attends? = some k)
    (hcalls : ∀ d, (s'.call d).attends? = if d = c then none else (s.call d).attends?)
    (hslots : ∀ g, (s'.slotFor g).isSome = (s.slotFor g).isSome) :
    Turnover s s' (some (k, .dropped))

/-- `slotFor` looks at the table and at the slots, and at nothing else. -/
theorem slotFor_congr (hslots : s'.slots = s.slots) (hslotOf : s'.slotOf = s.slotOf)
    (g : GroupVersionKind) : s'.slotFor g = s.slotFor g := by
  rw [slotFor, slotFor, hslots, hslotOf]

namespace Turnover

/-- Calls may move on with their tickets: as long as each of them stays in its slot, nothing
has happened to the slots. -/
theorem of_apart (hslots : s'.slots = s.slots) (hslotOf : s'.slotOf = s.slotOf)
    (hcalls : ∀ d, (s'.call d).attends? = (s.call d).attends?) : Turnover s s' none :=
  .stays (fun g => congrArg _ (slotFor_congr hslots hslotOf g)) hcalls

/-- The same for the one call that moves on in a leg, with whatever the leg has asked of the
cluster before. -/
theorem of_set (hs' : Apart s s₁) {point : Call} (hslots : s'.slots = s₁.slots)
    (hslotOf : s'.slotOf = s₁.slotOf) (hcalls : s'.calls = s₁.calls.set c point)
    (hlt : c < s.calls.length) (hpoint : point.attends? = (s.call c).attends?) :
    Turnover s s' none := by
  refine .of_apart (hslots.trans hs'.slots) (hslotOf.trans hs'.slotOf) fun d => ?_
  rw [hs'.calls] at hcalls
  rw [call_of_set hcalls hlt]
  split
  · next hd => rw [hpoint, hd]
  · rfl

/-- A call that joins takes part in the slot of its kind. If the kind had none, it has a new
one, so that this is where slots come from. -/
theorem enqueue (h : Orderly s) (hc : (s.call c).attends? = none) (hlt : c < s.calls.length)
    (use : Use) (q : Query) : Turnover s (s.enqueue c use q) none := by
  refine .enters (c := c) (k := q.gvk) hc (fun g => ?_) fun d => ?_
  · rw [slotFor_enqueue h.lanes]
    split
    · next hg => simp [hg]
    · next hg => simp [hg]
  · obtain ⟨slots, slotOf, i, heq⟩ := s.enqueue_eq c use q
    have hcalls : (s.enqueue c use q).calls = s.calls.set c (.queued ⟨use, q, i⟩) := by rw [heq]
    rw [call_of_set hcalls hlt]
    split <;> rfl

/-- **A call that has its turn leaves its slot for good.** It is the holder, so the others
in the slot are those that wait; the slot is handed on to them, and is taken off the table
exactly if there are none. -/
theorem left (h : Orderly s) (hs₁ : Apart s s₁) (ht : (s.call c).ticket? = some t)
    (hturn : s.hasTurn c t.slot = true) (hend : Ends (s₁.leaveSlot t) c s') :
    Turnover s s' (some (t.query.gvk, .through)) := by
  have h₁ : Orderly s₁ := h.apart hs₁
  have ht₁ : (s₁.call c).ticket? = some t := by rw [hs₁.call]; exact ht
  have hturn₁ : s₁.hasTurn c t.slot = true := by rw [hs₁.hasTurn]; exact hturn
  have hslots : ∀ g, s'.slotFor g =
      if g = t.query.gvk then (s.slotFor g).bind Slot.handOn else s.slotFor g := by
    intro g
    rw [slotFor_congr hend.slots hend.slotOf, h₁.slotFor_leaveSlot ht₁ hturn₁,
      slotFor_congr hs₁.slots hs₁.slotOf]
  obtain ⟨point, hpoint, hcalls⟩ := hend.calls
  rw [leaveSlot_calls, hs₁.calls] at hcalls
  have hattends : ∀ d, (s'.call d).attends? = if d = c then none else (s.call d).attends? := by
    intro d
    rw [call_of_set hcalls (lt_of_errand (errand?_of_ticket ht))]
    split
    · exact attends?_eq_none.mpr (ticket?_of_errand hpoint)
    · rfl
  refine .leaves (attends?_of_ticket ht) hattends (fun g hg => ?_) ?_
  · rw [hslots, if_neg hg]
  · -- the slot is handed on to those who wait, and they are the others that take part in it
    obtain ⟨slot, hslot, hget, -⟩ := h.exists_slotFor ht
    have hholder := (h.hasTurn_iff ht hslot).mp hturn
    have hmembers : slot.members = c :: slot.waiting := by
      rw [Slot.members, hholder]
      rfl
    have hnodup := (h.queues.sound t.slot slot hget).nodup
    rw [hmembers, List.nodup_cons] at hnodup
    have hwaits : ∀ d, (s'.call d).attends? = some t.query.gvk ↔ d ∈ slot.waiting := by
      intro d
      rw [hattends]
      split
      · next hd =>
        rw [hd]
        exact iff_of_false (by rintro ⟨⟩) hnodup.1
      · next hd =>
        rw [attends?_eq_some, ← h.mem_slotFor hslot, hmembers, List.mem_cons]
        exact or_iff_right hd
    rw [hslots, if_pos rfl, hslot]
    simp only [hwaits]
    exact Slot.isSome_handOn

/-- In terms of the call that does a leg. A leg by which nobody leaves a slot does not make
a call a stranger to its slot either, so the condition of `exit` says the same as `none`. -/
theorem of_leg (h : Turnover s s' none) (c : CallId) : Turnover s s'
    (if (s'.call c).attends? = none then (s.call c).attends?.map (·, .through) else none) := by
  have hnone : (s'.call c).attends? = none → (s.call c).attends? = none := by
    intro hnone
    cases h with
    | stays hslots hcalls => rwa [hcalls] at hnone
    | enters hc hslots hcalls =>
      rw [hcalls] at hnone
      split at hnone
      · cases hnone
      · exact hnone
  split
  · next hafter =>
    rw [hnone hafter]
    exact h
  · exact h

/-- A leg of a search that goes on leaves nobody's slot. The call either joins one, or moves
on with the ticket that it has. -/
theorem onward (h : Orderly s) {leg : Leg} (hleg : Leads s c leg) (hnone : leg.2 = none) :
    Turnover s leg.1 none := by
  have hsame : Apart s s := ⟨rfl, rfl, rfl⟩
  have hstarting : ∀ {t}, (s.call c).starting? = some t →
      c < s.calls.length ∧ some t.query.gvk = (s.call c).attends? := fun ht =>
    ⟨lt_of_errand (errand?_of_ticket (ticket?_of_starting ht)),
      (attends?_of_ticket (ticket?_of_starting ht)).symm⟩
  cases hleg with
  | resting hcall => exact .of_apart rfl rfl fun _ => rfl
  | joined hcall hw =>
    refine .enqueue h (by rw [hcall]; rfl) (lt_of_call fun hover => ?_) _ _
    rw [hcall] at hover
    cases hover
  | @begun t hcall hturn hw =>
    have ht : (s.call c).ticket? = some t := by rw [hcall]; rfl
    exact .of_set hsame rfl rfl rfl (lt_of_errand (errand?_of_ticket ht))
      (attends?_of_ticket ht).symm
  | resolved hcall hs' =>
    obtain ⟨hlt, hpoint⟩ := hstarting (by rw [hcall]; rfl)
    exact .of_set hs'.apart rfl rfl rfl hlt hpoint
  | reviewed hcall hs' =>
    obtain ⟨hlt, hpoint⟩ := hstarting (by rw [hcall]; rfl)
    exact .of_set hs'.apart rfl rfl rfl hlt hpoint
  | waited ha =>
    obtain ⟨hlt, hpoint⟩ := hstarting ha.starting
    exact .of_set ha.apart rfl rfl rfl hlt hpoint
  | found | refused | shared | failed | expired | succeeded => cases hnone

/-- A call outside of all slots ends or pauses, and stays outside. -/
theorem ends (hc : (s.call c).ticket? = none) (hend : Ends s c s') : Turnover s s' none := by
  obtain ⟨point, hpoint, hcalls⟩ := hend.calls
  refine .of_apart hend.slots hend.slotOf fun d => ?_
  by_cases hd : d = c
  · rw [hd, attends?_eq_none.mpr (ticket?_of_errand hend.errand?), attends?_eq_none.mpr hc]
  · rw [call_of_set_other hcalls hd]

/-- The end of a search. A call that found its kind running at once, or was turned away, had
no ticket; all others have their turn, and `left` says what happens to the slot. -/
theorem answered (h : Orderly s) {leg : Leg} (hleg : Leads s c leg) (hsome : leg.2 ≠ none)
    (hend : Ends leg.1 c s') : Turnover s s' ((s.call c).attends?.map (·, .through)) := by
  have hout : ∀ {t s₁}, Apart s s₁ → (s.call c).ticket? = some t →
      s.hasTurn c t.slot = true → Ends (s₁.leaveSlot t) c s' →
      Turnover s s' ((s.call c).attends?.map (·, .through)) := by
    intro t s₁ hs₁ ht hturn hend
    rw [attends?_of_ticket ht]
    exact .left h hs₁ ht hturn hend
  have hstarting : ∀ {t s₁}, Apart s s₁ → (s.call c).starting? = some t →
      Ends (s₁.leaveSlot t) c s' → Turnover s s' ((s.call c).attends?.map (·, .through)) :=
    fun hs₁ ht hend => hout hs₁ (ticket?_of_starting ht) (h.turns.holds c _ ht) hend
  cases hleg with
  | found hcall hw | refused hcall hw =>
    rw [hcall]
    exact .ends (by rw [hcall]; rfl) hend
  | shared hcall hturn hw => exact hout ⟨rfl, rfl, rfl⟩ (by rw [hcall]; rfl) hturn hend
  | failed hcall hs' => exact hstarting hs'.apart hcall hend
  | expired ha => exact hstarting ha.apart ha.starting hend
  | succeeded ha hget hsynced => exact hstarting (ha.apart.markSeen _ _) ha.starting hend
  | resting | joined | begun | resolved | reviewed | waited => exact absurd rfl hsome

/-- All legs of a call, in the terms of `exit`: a call that has a ticket before and none
after is through. -/
theorem advance (h : Orderly s) (hs' : Advance s c s') : Turnover s s'
    (if (s'.call c).attends? = none then (s.call c).attends?.map (·, .through) else none) := by
  cases hs' with
  | idle hcall => exact of_leg (.of_apart rfl rfl fun _ => rfl) c
  | onward hleg => exact of_leg (onward h (hleg ▸ s.current_leads c) rfl) c
  | answered herrand hleg hend =>
    rw [if_pos (attends?_eq_none.mpr (ticket?_of_errand hend.errand?))]
    exact answered h (hleg ▸ s.current_leads c) (Option.some_ne_none _) hend
  | aside hcall hend => exact of_leg (ends hcall hend) c

/-- A call that is dropped takes itself out of the slot, as the holder or from among those
who wait. The slot itself stays on the table, also when it is empty. -/
theorem cancel (h : Orderly s) (c : CallId) :
    Turnover s (s.cancel c) ((s.call c).attends?.map (·, .dropped)) := by
  have hcalls : ∀ d, ((s.cancel c).call d).attends? =
      if d = c then none else (s.call d).attends? := by
    intro d
    rw [call_cancel]
    split <;> rfl
  rcases ht : (s.call c).ticket? with _ | t
  · have hcancel : s.cancel c = s.setCall c .over := by
      simp only [Cache.cancel, slot?_eq_none ht]
    rw [attends?_eq_none.mpr ht]
    refine .of_apart (by rw [hcancel]; rfl) (by rw [hcancel]; rfl) fun d => ?_
    rw [hcalls]
    split
    · next hd => rw [hd, attends?_eq_none.mpr ht]
    · rfl
  · have hcancel : s.cancel c = (s.setCall c .over).dropFromSlot c t.slot := by
      simp only [Cache.cancel, slot?_of_ticket ht]
    rw [attends?_of_ticket ht]
    refine .drops (attends?_of_ticket ht) hcalls fun g => ?_
    have hslot : (s.cancel c).slotFor g = (s.dropFromSlot c t.slot).slotFor g := by
      rw [hcancel]
      rfl
    rw [hslot, h.slotFor_dropFromSlot ht]
    split
    · exact Option.isSome_map
    · rfl

end Turnover

/-- **Each move does one of these things**, with the exit that `exit` has for it. All that
is said about slots after a run follows from this by induction. -/
theorem perform_turnover (h : Orderly s) (m : Move) : Turnover s (s.perform m) (exit s m) := by
  have hsame : ∀ {s'}, Apart s s' → Turnover s s' none := fun hs' =>
    .of_apart hs'.slots hs'.slotOf fun d => congrArg _ (hs'.call d)
  cases m with
  | submit request =>
    refine .of_apart rfl rfl fun d => ?_
    show ((s.submit request).1.call d).attends? = _
    rw [call_submit]
    split
    · next hd =>
      rw [call_of_unborn (Nat.le_of_eq hd.symm)]
      rfl
    · rfl
  | advance c => exact .advance h (s.advance_cases c)
  | cancel c => exact .cancel h c
  | gauge w =>
    obtain ⟨meters, heq⟩ := s.gaugeOf_eq w
    rw [perform, heq]
    exact hsame ⟨rfl, rfl, rfl⟩
  | watcherFor r => exact hsame (.watcherFor s r)
  | watch | standalone | shutDown | tick | program => exact hsame ⟨rfl, rfl, rfl⟩

/-! ## The slots after a run -/

/-- The last exit of a run is that of its last move if this is one from the slot of the
kind, and otherwise that of the run before. -/
theorem lastExit_snoc (g : GroupVersionKind) (s : Cache) (moves : List Move) (m : Move) :
    lastExit g s (moves ++ [m]) = ((exit (s.runMoves moves) m).toList.lookup g).or
      (lastExit g s moves) := by
  have hone : trace exit (s.runMoves moves) [m] = (exit (s.runMoves moves) m).toList :=
    List.append_nil _
  rw [lastExit, lastExit, trace_append, hone, List.reverse_append, List.lookup_append]
  rcases exit (s.runMoves moves) m with _ | e <;> rfl

/-- A call that goes out of the slot of one kind leaves those of others as they are, since
it takes part in no slot but one. -/
theorem attended_other (hc : (s.call c).attends? = some k) (hg : g ≠ k)
    (hcalls : ∀ d, (s'.call d).attends? = if d = c then none else (s.call d).attends?) :
    g ∈ s'.attended ↔ g ∈ s.attended := by
  simp only [mem_attended, hcalls]
  refine exists_congr fun d => ?_
  split
  · next hd =>
    rw [hd, hc]
    exact iff_of_false (by rintro ⟨⟩) fun hsame => hg (Option.some.inj hsame).symm
  · exact Iff.rfl

theorem lookup_singleton (g k : GroupVersionKind) (x : Exit) :
    [(k, x)].lookup g = if g = k then some x else none :=
  Table.lookup_cons ..

/-- **The step.** A kind has a slot if calls take part in it, or if the last call that left
it was dropped. A call that is through takes the slot along if it is the last one, and one
that is dropped leaves it and is now the last that has left. -/
theorem Turnover.occupied {e : Option (GroupVersionKind × Exit)} {last : Option Exit}
    (h : Turnover s s' e)
    (hs : (s.slotFor g).isSome = true ↔ g ∈ s.attended ∨ last = some .dropped) :
    (s'.slotFor g).isSome = true ↔
      g ∈ s'.attended ∨ (e.toList.lookup g).or last = some .dropped := by
  cases h with
  | stays hslots hcalls =>
    rw [hslots, hs]
    simp only [mem_attended, hcalls]
    rfl
  | @enters c k hc hslots hcalls =>
    have hnew : g ∈ s'.attended ↔ g = k ∨ g ∈ s.attended := by
      simp only [mem_attended, hcalls]
      constructor
      · rintro ⟨d, hd⟩
        split at hd
        · exact .inl (Option.some.inj hd).symm
        · exact .inr ⟨d, hd⟩
      · rintro (rfl | ⟨d, hd⟩)
        · exact ⟨c, if_pos rfl⟩
        · refine ⟨d, ?_⟩
          rw [if_neg]
          · exact hd
          · rintro rfl
            rw [hc] at hd
            cases hd
    rw [hslots, Bool.or_eq_true, decide_eq_true_eq, hs, hnew, or_assoc]
    rfl
  | @leaves c k hc hcalls hother hslot =>
    rw [Option.toList_some, lookup_singleton]
    by_cases hg : g = k
    · -- whoever is left keeps the slot on the table
      rw [if_pos hg, hg, hslot, ← mem_attended]
      exact (or_iff_left (by rintro ⟨⟩)).symm
    · rw [if_neg hg, hother g hg, hs, attended_other hc hg hcalls]
      rfl
  | @drops c k hc hcalls hslots =>
    rw [Option.toList_some, lookup_singleton, hslots]
    by_cases hg : g = k
    · rw [if_pos hg]
      exact iff_of_true (hs.mpr (.inl (mem_attended.mpr ⟨c, hg ▸ hc⟩))) (.inr rfl)
    · rw [if_neg hg, hs, attended_other hc hg hcalls]
      rfl

/-- After every run, the kinds with a slot are those in whose slot calls take part, and
those whose slot was left last by a call that was dropped. The induction is on the moves
from the end, because the last exit is what counts. -/
theorem occupied_iff (cluster : Cluster) (settings : Settings) (moves : List Move)
    (g : GroupVersionKind) :
    (((starting cluster settings).runMoves moves).slotFor g).isSome = true ↔
      g ∈ ((starting cluster settings).runMoves moves).attended ∨
        lastExit g (starting cluster settings) moves = some .dropped := by
  induction moves using List.reverseRecOn with
  | nil => exact iff_of_false (by rintro ⟨⟩) (by rintro (⟨⟨⟩⟩ | ⟨⟨⟩⟩))
  | append_singleton moves m ih =>
    rw [runMoves_append, lastExit_snoc]
    exact (perform_turnover (orderly_of_reachable (reachable_run ..)) m).occupied ih

/-! ## How many slots there are -/

/-- What a move does to the table of slots. It is weaker than `Turnover`, but it is about
the table as a list, and so it says that no kind comes to be there twice. -/
inductive Retabled (table : Table GroupVersionKind SlotId) :
    Table GroupVersionKind SlotId → Prop where
  | same : Retabled table table
  /-- a slot is put on the table -/
  | put (k : GroupVersionKind) (i : SlotId) : Retabled table (Table.put k i table)
  /-- a slot is taken off -/
  | retire (k : GroupVersionKind) : Retabled table (table.filter fun e => e.1 ≠ k)

theorem leaveSlot_retabled (s : Cache) (t : Ticket) :
    Retabled s.slotOf (s.leaveSlot t).slotOf := by
  simp only [leaveSlot]
  split
  · exact .retire _
  · exact .same

/-- Among the legs of a search, joining may put a slot on the table, and leaving may take
one off. -/
theorem Leads.retabled {leg : Leg} (h : Leads s c leg) : Retabled s.slotOf leg.1.slotOf := by
  have hleave : ∀ {s₁ t}, Apart s s₁ → Retabled s.slotOf (s₁.leaveSlot t).slotOf := by
    intro s₁ t hs₁
    have hstep := leaveSlot_retabled s₁ t
    rwa [hs₁.slotOf] at hstep
  cases h with
  | resting | found | refused | begun => exact .same
  | @joined use q hcall hw =>
    simp only [enqueue, sharedSlot]
    split
    · exact .same
    · exact .put ..
  | shared => exact leaveSlot_retabled ..
  | resolved hcall hs' | reviewed hcall hs' =>
    have hsame := hs'.apart.slotOf
    exact hsame ▸ .same
  | waited ha =>
    have hsame := ha.apart.slotOf
    exact hsame ▸ .same
  | failed hcall hs' => exact hleave hs'.apart
  | expired ha => exact hleave ha.apart
  | succeeded ha hget hsynced => exact hleave (ha.apart.markSeen _ _)

theorem perform_retabled (s : Cache) (m : Move) : Retabled s.slotOf (s.perform m).slotOf := by
  cases m with
  | advance c =>
    show Retabled s.slotOf (s.advance c).slotOf
    generalize hs' : s.advance c = s'
    cases hs' ▸ s.advance_cases c with
    | idle => exact .same
    | onward hleg => exact Leads.retabled (hleg ▸ s.current_leads c)
    | answered herrand hleg hend =>
      rw [hend.slotOf]
      exact Leads.retabled (hleg ▸ s.current_leads c)
    | aside hcall hend =>
      rw [hend.slotOf]
      exact .same
  | cancel c =>
    obtain ⟨slots, heq⟩ := s.cancel_eq c
    rw [perform, heq]
    exact .same
  | gauge w =>
    obtain ⟨meters, heq⟩ := s.gaugeOf_eq w
    rw [perform, heq]
    exact .same
  | watcherFor r =>
    have hsame := (Apart.watcherFor s r).slotOf
    exact hsame ▸ .same
  | submit | watch | standalone | shutDown | tick | program => exact .same

/-- No kind is on the table twice. So the length of the table, which is what is reported as
the number of slots, is the number of kinds that have one. -/
theorem nodup_slotOf (hs : Reachable s) : (Table.keys s.slotOf).Nodup := by
  refine hs.induction (motive := fun s => (Table.keys s.slotOf).Nodup)
    (fun _ _ => List.nodup_nil) fun s m h => ?_
  generalize htable : (s.perform m).slotOf = table
  cases htable ▸ s.perform_retabled m with
  | same => exact h
  | put k i => exact Table.nodup_keys_put h
  | retire k => exact h.sublist (List.filter_sublist.map _)

/-- The kinds that `deserted` looks through are those whose slots were ever left, and a kind
with a last exit is among them. -/
theorem mem_deserted {moves : List Move} : g ∈ s.deserted moves ↔
    g ∉ (s.runMoves moves).attended ∧ lastExit g s moves = some .dropped := by
  rw [deserted, Finset.mem_filter, List.mem_toFinset]
  refine and_iff_right_of_imp fun h => ?_
  have hmem : (g, Exit.dropped) ∈ trace exit s moves :=
    List.mem_reverse.mp (Table.mem_of_lookup h.2)
  exact List.mem_map.mpr ⟨_, hmem, rfl⟩

/-- **The count of slots.** The kinds with a slot are those for which some call holds or
awaits it, and those whose slot was left last by a call that was dropped. So there are
as many slots as kinds of the first sort exactly if each slot that was left so is in use
again. -/
theorem slots_eq_attended_iff (cluster : Cluster) (settings : Settings) (moves : List Move)
    (plurals : List String) :
    (∀ g, g ∈ Table.keys ((starting cluster settings).runMoves moves).slotOf ↔
      g ∈ ((starting cluster settings).runMoves moves).attended ∨
        lastExit g (starting cluster settings) moves = some .dropped) ∧
    (((starting cluster settings).runMoves moves).overview plurals).slots =
      ((starting cluster settings).runMoves moves).attended.card +
        (deserted (starting cluster settings) moves).card ∧
    ((((starting cluster settings).runMoves moves).overview plurals).slots =
        ((starting cluster settings).runMoves moves).attended.card ↔
      ∀ g, lastExit g (starting cluster settings) moves = some .dropped →
        g ∈ ((starting cluster settings).runMoves moves).attended) := by
  have hs : Reachable ((starting cluster settings).runMoves moves) := reachable_run ..
  have hmem : ∀ g, g ∈ Table.keys ((starting cluster settings).runMoves moves).slotOf ↔
      g ∈ ((starting cluster settings).runMoves moves).attended ∨
        lastExit g (starting cluster settings) moves = some .dropped := by
    intro g
    rw [Table.mem_keys_iff, ← occupied_iff, isSome_slotFor (queues_of_reachable hs)]
  have hcount : (((starting cluster settings).runMoves moves).overview plurals).slots =
      ((starting cluster settings).runMoves moves).attended.card +
        (deserted (starting cluster settings) moves).card := by
    have hdisjoint : Disjoint ((starting cluster settings).runMoves moves).attended
        (deserted (starting cluster settings) moves) :=
      Finset.disjoint_right.mpr fun g hg => (mem_deserted.mp hg).1
    rw [← Finset.card_union_of_disjoint hdisjoint]
    have hkeys : (Table.keys ((starting cluster settings).runMoves moves).slotOf).toFinset =
        ((starting cluster settings).runMoves moves).attended ∪
          deserted (starting cluster settings) moves := by
      ext g
      rw [List.mem_toFinset, hmem, Finset.mem_union, mem_deserted]
      tauto
    rw [← hkeys, List.toFinset_card_of_nodup (nodup_slotOf hs)]
    exact (List.length_map _).symm
  refine ⟨hmem, hcount, ?_⟩
  rw [hcount, Nat.add_eq_left, Finset.card_eq_zero, Finset.eq_empty_iff_forall_notMem]
  refine forall_congr' fun g => ?_
  rw [mem_deserted]
  tauto

/-! ## The case occurs -/

/-- A call starts pods, and is dropped while it awaits the relist. -/
def forsaken : List Move :=
  .submit (.use .handOut (.ofKind Watcher.pods.gvk)) :: search 0 ++ [.cancel 0]

/-- No call is left, and pods has a slot all the same. The call was dropped while it held
the slot, so that it never came to the point where the last call through removes it. -/
theorem forsaken_slot :
    (((starting (onePod.setHeld "pods" true) .standard).runMoves forsaken).calls.all
      fun call => !call.live) = true ∧
    ((starting (onePod.setHeld "pods" true) .standard).runMoves forsaken).attended = ∅ ∧
    (((starting (onePod.setHeld "pods" true) .standard).runMoves forsaken).overview []).slots = 1 :=
  ⟨rfl, rfl, rfl⟩

end

end Cache

end KindCache
