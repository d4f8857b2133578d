import KindCache.Proofs.Cache.Turns

/-!
# Who takes part in a slot

In every reachable state the slots hold exactly the calls that take part in them,
each of them once, and nobody waits in a slot that has no holder
(`queues_of_reachable`). So when all others go away, a call has its turn
(`Queues.hasTurn`).

* `Slot.members`, `Slot.Sound` — who is in a slot, and what is true of it by itself;
* `Queues` — slots and calls together; a leg and a move preserve it, by the three
  things that can happen to a slot: a call joins it, a call goes away, or its
  members move on.
-/

namespace KindCache

namespace Slot

/-- The calls in a slot, in the order of their turns. -/
def members (slot : Slot) : List CallId :=
  slot.holder.toList ++ slot.waiting

/-- A slot with waiting calls has a holder, and nobody is in it twice. The first half is
what keeps a slot from getting stuck: whenever a call goes away, the next one has its turn
at once. -/
structure Sound (slot : Slot) : Prop where
  served : slot.holder = none → slot.waiting = []
  nodup : slot.members.Nodup

section

variable {slot : Slot} {c : CallId}

theorem sound_free : free.Sound :=
  ⟨fun _ => rfl, List.nodup_nil⟩

/-- A call joins behind all others. It takes the turn if the slot is free, and a sound slot
without a holder has nobody waiting, so it is last in either case. -/
theorem Sound.members_join (h : slot.Sound) (c : CallId) :
    (slot.join c).members = slot.members ++ [c] := by
  rcases hholder : slot.holder with _ | d
  · simp [join, members, hholder, h.served hholder]
  · simp [join, members, hholder]

theorem Sound.join (h : slot.Sound) (hc : c ∉ slot.members) : (slot.join c).Sound := by
  refine ⟨fun hnone => ?_, ?_⟩
  · rcases hholder : slot.holder with _ | d <;> simp [Slot.join, hholder] at hnone
  · rw [h.members_join]
    refine List.nodup_append.mpr
      ⟨h.nodup, List.nodup_cons.mpr ⟨List.not_mem_nil, List.nodup_nil⟩, ?_⟩
    rintro d hd e he rfl
    exact hc (List.mem_singleton.mp he ▸ hd)

/-- The others keep their order when a call goes away, whether it had the turn, waited, or
was not there at all. -/
theorem Sound.members_without (h : slot.Sound) (c : CallId) :
    (slot.without c).members = slot.members.filter (· ≠ c) := by
  have hnodup := h.nodup
  by_cases hc : slot.holder = some c
  · -- the next call has its turn, and the one that goes away does not wait as well
    rw [members, hc] at hnodup
    have hnot : ∀ d ∈ slot.waiting, d ≠ c := by
      rintro d hd rfl
      exact (List.nodup_cons.mp hnodup).1 hd
    have hwaiting : slot.waiting.filter (· ≠ c) = slot.waiting :=
      List.filter_eq_self.mpr fun d hd => decide_eq_true (hnot d hd)
    rw [without, if_pos hc, members, members, hc, List.filter_append, hwaiting]
    rcases hw : slot.waiting with _ | ⟨d, rest⟩ <;> simp [passOn, hw]
  · rw [without, if_neg hc, members, members, List.filter_append]
    rcases hholder : slot.holder with _ | d
    · rfl
    · have hd : d ≠ c := fun e => hc (hholder.trans (congrArg _ e))
      simp [hd]

theorem Sound.without (h : slot.Sound) (c : CallId) : (slot.without c).Sound := by
  refine ⟨fun hnone => ?_, ?_⟩
  · by_cases hc : slot.holder = some c
    · rw [Slot.without, if_pos hc] at hnone ⊢
      rcases hw : slot.waiting with _ | ⟨d, rest⟩
      · simp [passOn, hw]
      · simp [passOn, hw] at hnone
    · rw [Slot.without, if_neg hc] at hnone ⊢
      show slot.waiting.filter _ = []
      rw [h.served hnone]
      rfl
  · rw [h.members_without]
    exact h.nodup.filter _

/-- To end one's turn is to go away. So the regular end of a turn and the drop of its holder
need no separate account of the slot. -/
theorem passOn_eq (hc : slot.holder = some c) : slot.passOn = slot.without c :=
  (if_pos hc).symm

end

end Slot

namespace Cache

/-- The calls that take part in slots, as the slots and as the calls have it. Both keep a
record, and nothing in the code compares them; that they agree is what the invariant is
about. -/
structure Queues (s : Cache) : Prop where
  sound : ∀ (i : SlotId) (slot : Slot), s.slots[i]? = some slot → slot.Sound
  mem_iff : ∀ (i : SlotId) (slot : Slot), s.slots[i]? = some slot →
    ∀ c, c ∈ slot.members ↔ (s.call c).slot? = some i
  bound : ∀ c i, (s.call c).slot? = some i → i < s.slots.length
  tabled : ∀ g i, s.slotOf.lookup g = some i → i < s.slots.length

section

variable {s s' : Cache} {c d : CallId} {t : Ticket} {i j : SlotId} {f : Slot → Slot}

theorem slot?_of_ticket {call : Call} (h : call.ticket? = some t) : call.slot? = some t.slot := by
  rw [Call.slot?, h]
  rfl

/-- A call without a ticket is in no slot. -/
theorem slot?_eq_none {call : Call} (h : call.ticket? = none) : call.slot? = none := by
  rw [Call.slot?, h]
  rfl

theorem queues_starting (cluster : Cluster) (settings : Settings) :
    Queues (starting cluster settings) := by
  refine ⟨?_, ?_, ?_, ?_⟩
  · intro i slot h
    cases h
  · intro i slot h
    cases h
  · intro c i h
    cases h
  · intro g i h
    cases h

namespace Queues

/-- Calls may move on in their slots. As long as each one stays with its slot, or outside,
the slots need not be looked at. -/
theorem of_calls (h : Queues s) (hslots : s'.slots = s.slots) (hslotOf : s'.slotOf = s.slotOf)
    (hcalls : ∀ c, (s'.call c).slot? = (s.call c).slot?) : Queues s' := by
  refine ⟨?_, ?_, ?_, ?_⟩
  · rw [hslots]
    exact h.sound
  · intro i slot hslot c
    rw [hslots] at hslot
    rw [hcalls]
    exact h.mem_iff i slot hslot c
  · intro c i hc
    rw [hcalls] at hc
    rw [hslots]
    exact h.bound c i hc
  · rw [hslots, hslotOf]
    exact h.tabled

/-- Something happens to one slot and the calls in it. All that follows are cases of this:
what is to be shown is that the slot stays sound, and that it has gained or lost the calls
that say so. -/
theorem modify (h : Queues s) (hslots : s'.slots = s.slots.modify i f)
    (hsound : ∀ slot, s.slots[i]? = some slot → (f slot).Sound)
    (hmem : ∀ slot, s.slots[i]? = some slot →
      ∀ d, d ∈ (f slot).members ↔ (s'.call d).slot? = some i)
    (hother : ∀ d j, j ≠ i → ((s'.call d).slot? = some j ↔ (s.call d).slot? = some j))
    (hi : i < s.slots.length)
    (hslotOf : ∀ g j, s'.slotOf.lookup g = some j → s.slotOf.lookup g = some j) :
    Queues s' := by
  have hget : ∀ j slot, s'.slots[j]? = some slot →
      (j = i ∧ ∃ old, s.slots[i]? = some old ∧ slot = f old) ∨
        (j ≠ i ∧ s.slots[j]? = some slot) := by
    intro j slot hslot
    rw [hslots, List.getElem?_modify] at hslot
    obtain ⟨old, hold, hnew⟩ := Option.map_eq_some_iff.mp hslot
    by_cases hj : j = i
    · subst hj
      rw [if_pos rfl] at hnew
      exact .inl ⟨rfl, old, hold, hnew.symm⟩
    · rw [if_neg fun e => hj e.symm] at hnew
      exact .inr ⟨hj, hnew ▸ hold⟩
  have hlength : s'.slots.length = s.slots.length := by
    rw [hslots, List.length_modify]
  refine ⟨fun j slot hslot => ?_, fun j slot hslot d => ?_, fun d j hd => ?_, fun g j hj => ?_⟩
  · rcases hget j slot hslot with ⟨rfl, old, hold, rfl⟩ | ⟨-, hold⟩
    · exact hsound old hold
    · exact h.sound j slot hold
  · rcases hget j slot hslot with ⟨rfl, old, hold, rfl⟩ | ⟨hj, hold⟩
    · exact hmem old hold d
    · rw [hother d j hj]
      exact h.mem_iff j slot hold d
  · rw [hlength]
    by_cases hj : j = i
    · exact hj ▸ hi
    · exact h.bound d j ((hother d j hj).mp hd)
  · rw [hlength]
    exact h.tabled g j (hslotOf g j hj)

/-- A call joins a slot. It was in none before, so it cannot be in the slot already. -/
theorem join (h : Queues s) (hlt : c < s.calls.length) (hnone : (s.call c).slot? = none)
    (hi : i < s.slots.length) {use : Use} {q : Query}
    (hcalls : s'.calls = s.calls.set c (.queued ⟨use, q, i⟩))
    (hslots : s'.slots = s.slots.modify i (·.join c)) (hslotOf : s'.slotOf = s.slotOf) :
    Queues s' := by
  have hcall : ∀ d, (s'.call d).slot? = if d = c then some i else (s.call d).slot? := by
    intro d
    rw [call_of_set hcalls hlt]
    split <;> rfl
  refine h.modify hslots (fun slot hslot => ?_) (fun slot hslot d => ?_) (fun d j hj => ?_) hi
    fun g j hj => hslotOf ▸ hj
  · refine (h.sound i slot hslot).join fun hc => ?_
    rw [(h.mem_iff i slot hslot c).mp hc] at hnone
    cases hnone
  · rw [(h.sound i slot hslot).members_join, List.mem_append, List.mem_singleton, hcall,
      h.mem_iff i slot hslot d]
    split
    · next hd => exact iff_of_true (.inr hd) rfl
    · next hd => exact or_iff_left hd
  · rw [hcall]
    split
    · next hd =>
      rw [hd, hnone]
      exact iff_of_false (fun e => hj (Option.some.inj e).symm) (Option.some_ne_none j).symm
    · exact Iff.rfl

/-- A call goes away from its slot, and stands at a point outside of all slots afterwards.
The table may have lost the slot in the same step. -/
theorem gone (h : Queues s) (hc : (s.call c).slot? = some i)
    (hf : ∀ slot, s.slots[i]? = some slot → f slot = slot.without c) {point : Call}
    (hpoint : point.slot? = none) (hcalls : s'.calls = s.calls.set c point)
    (hslots : s'.slots = s.slots.modify i f)
    (hslotOf : ∀ g j, s'.slotOf.lookup g = some j → s.slotOf.lookup g = some j) :
    Queues s' := by
  have hlt : c < s.calls.length := by
    refine lt_of_call fun hover => ?_
    rw [hover] at hc
    cases hc
  have hcall : ∀ d, (s'.call d).slot? = if d = c then none else (s.call d).slot? := by
    intro d
    rw [call_of_set hcalls hlt]
    split
    · exact hpoint
    · rfl
  refine h.modify hslots (fun slot hslot => ?_) (fun slot hslot d => ?_) (fun d j hj => ?_)
    (h.bound c i hc) hslotOf
  · rw [hf slot hslot]
    exact (h.sound i slot hslot).without c
  · rw [hf slot hslot, (h.sound i slot hslot).members_without, List.mem_filter,
      decide_eq_true_eq, hcall, h.mem_iff i slot hslot d]
    split
    · next hd => exact iff_of_false (fun e => e.2 hd) (Option.some_ne_none i).symm
    · next hd => exact and_iff_left hd
  · rw [hcall]
    split
    · next hd =>
      rw [hd, hc]
      exact iff_of_false (Option.some_ne_none j).symm fun e => hj (Option.some.inj e).symm
    · exact Iff.rfl

/-- A call that has its turn leaves its slot for good. Ending the turn is going away, by
`Slot.passOn_eq`. -/
theorem leave (h : Queues s) (ht : (s.call c).ticket? = some t)
    (hturn : s.hasTurn c t.slot = true) {point : Call} (hpoint : point.ticket? = none)
    (hslots : s'.slots = (s.leaveSlot t).slots) (hslotOf : s'.slotOf = (s.leaveSlot t).slotOf)
    (hcalls : s'.calls = s.calls.set c point) : Queues s' := by
  obtain ⟨slot, hslot, hholder⟩ := hasTurn_iff.mp hturn
  refine h.gone (slot?_of_ticket ht) (fun slot' hslot' => ?_) (slot?_eq_none hpoint) hcalls
    (hslots.trans (Turns.leaveSlot_slots s t)) fun g j hj => ?_
  · obtain rfl := Option.some.inj (hslot.symm.trans hslot')
    exact Slot.passOn_eq hholder
  · rw [hslotOf] at hj
    simp only [leaveSlot] at hj
    split at hj
    · change (s.slotOf.filter fun e => e.1 ≠ t.query.gvk).lookup g = some j at hj
      rw [Table.lookup_filter_ne] at hj
      split at hj
      · cases hj
      · exact hj
    · exact hj

/-- A new call joins the slot of its kind. If there is none it is made first, as a free one
at the end of the list, and a call joins it like any other. -/
theorem enqueue (h : Queues s) (hlt : c < s.calls.length) (hnone : (s.call c).slot? = none)
    (use : Use) (q : Query) : Queues (s.enqueue c use q) := by
  rcases hlookup : s.slotOf.lookup q.gvk with _ | i
  · simp only [Cache.enqueue, sharedSlot, hlookup]
    have hnew : Queues { s with
        slots := s.slots ++ [.free], slotOf := Table.put q.gvk s.slots.length s.slotOf } := by
      have hlength : (s.slots ++ [Slot.free]).length = s.slots.length + 1 := List.length_append
      refine ⟨fun j slot hslot => ?_, fun j slot hslot d => ?_, fun d j hd => ?_,
        fun g j hj => ?_⟩
      · rcases getElem?_snoc hslot with hold | ⟨-, rfl⟩
        · exact h.sound j slot hold
        · exact Slot.sound_free
      · rcases getElem?_snoc hslot with hold | ⟨rfl, rfl⟩
        · exact h.mem_iff j slot hold d
        · -- nobody can be in a slot that was not there
          exact iff_of_false List.not_mem_nil fun hd => Nat.lt_irrefl _ (h.bound d _ hd)
      · show j < (s.slots ++ [Slot.free]).length
        rw [hlength]
        exact Nat.lt_succ_of_lt (h.bound d j hd)
      · show j < (s.slots ++ [Slot.free]).length
        rw [hlength]
        change (Table.put _ _ _).lookup g = some j at hj
        rw [Table.lookup_put] at hj
        split at hj
        · obtain rfl := Option.some.inj hj
          exact Nat.lt_succ_self _
        · exact Nat.lt_succ_of_lt (h.tabled g j hj)
    exact hnew.join hlt hnone (by simp) rfl rfl rfl
  · simp only [Cache.enqueue, sharedSlot, hlookup]
    exact h.join hlt hnone (h.tabled _ _ hlookup) rfl rfl rfl

theorem apart (h : Queues s) (hs' : Apart s s') : Queues s' :=
  h.of_calls hs'.slots hs'.slotOf fun c => congrArg _ (hs'.call c)

/-- A call may move on with its ticket, from question to question. -/
theorem move (h : Queues s) (hs' : Apart s s') (ht : (s.call c).ticket? = some t)
    {point : Call} (hpoint : point.ticket? = some t) : Queues (s'.setCall c point) := by
  have hlt : c < s'.calls.length := by
    rw [hs'.calls]
    exact lt_of_errand (errand?_of_ticket ht)
  refine (h.apart hs').of_calls rfl rfl fun d => ?_
  rw [call_of_set (s := s') rfl hlt]
  split
  · next hd => rw [hd, hs'.call, slot?_of_ticket hpoint, slot?_of_ticket ht]
  · rfl

/-- A leg of a search that goes on preserves the invariant: it joins a slot or moves within
it. -/
theorem onward (h : Queues s) {leg : Leg} (hleg : Leads s c leg) (hnone : leg.2 = none) :
    Queues leg.1 := by
  cases hleg with
  | resting hcall => exact h
  | joined hcall hw =>
    refine h.enqueue (lt_of_call fun hover => ?_) (by rw [hcall]; rfl) _ _
    rw [hcall] at hover
    cases hover
  | begun hcall hturn hw => exact h.move ⟨rfl, rfl, rfl⟩ (by rw [hcall]; rfl) rfl
  | resolved hcall hs' => exact h.move hs'.apart (by rw [hcall]; rfl) rfl
  | reviewed hcall hs' => exact h.move hs'.apart (by rw [hcall]; rfl) rfl
  | waited ha => exact h.move ha.apart (ticket?_of_starting ha.starting) rfl
  | found | refused | shared | failed | expired | succeeded => cases hnone

/-- A call outside of all slots may move anywhere outside of them. -/
theorem ends (h : Queues s) (hc : (s.call c).ticket? = none) (hs' : Ends s c s') :
    Queues s' := by
  obtain ⟨point, hpoint, hcalls⟩ := hs'.calls
  refine h.of_calls hs'.slots hs'.slotOf fun d => ?_
  by_cases hd : d = c
  · subst hd
    rw [slot?_eq_none hc]
    rcases call_of_set_self hcalls with hself | hself
    · rw [hself]
      exact slot?_eq_none (ticket?_of_errand hpoint)
    · rw [hself]
      rfl
  · rw [call_of_set_other hcalls hd]

/-- A call that has its turn may leave, whatever was asked or opened before. Asking and
opening are apart from slots, so it does not matter that they come first in the leg. -/
theorem left {s₁ s₂ : Cache} (h : Queues s) (hs₁ : Apart s s₁)
    (ht : (s.call c).ticket? = some t) (hturn : s.hasTurn c t.slot = true)
    (hend : Ends (s₁.leaveSlot t) c s₂) : Queues s₂ := by
  obtain ⟨point, hpoint, hcalls⟩ := hend.calls
  rw [leaveSlot_calls] at hcalls
  refine (h.apart hs₁).leave ?_ ?_ (ticket?_of_errand hpoint) hend.slots hend.slotOf hcalls
  · rw [hs₁.call]
    exact ht
  · rw [hs₁.hasTurn]
    exact hturn

/-- The end of a search preserves the invariant. If the search ends before the call has
joined a slot there is nothing to leave, and otherwise the turns say that it is the holder
that leaves. -/
theorem answered (h : Queues s) (hturns : Turns s) {leg : Leg} (hleg : Leads s c leg)
    (hsome : leg.2 ≠ none) (hend : Ends leg.1 c s') : Queues s' := by
  cases hleg with
  | found hcall hw => exact h.ends (by rw [hcall]; rfl) hend
  | refused hcall hs => exact h.ends (by rw [hcall]; rfl) hend
  | shared hcall hturn hw => exact h.left ⟨rfl, rfl, rfl⟩ (by rw [hcall]; rfl) hturn hend
  | failed hcall hs' =>
    exact h.left hs'.apart (ticket?_of_starting hcall) (hturns.holds c _ hcall) hend
  | expired ha =>
    exact h.left ha.apart (ticket?_of_starting ha.starting) (hturns.holds c _ ha.starting) hend
  | succeeded ha hget hsynced =>
    exact h.left (ha.apart.markSeen _ _) (ticket?_of_starting ha.starting)
      (hturns.holds c _ ha.starting) hend
  | resting | joined | begun | resolved | reviewed | waited => exact absurd rfl hsome

theorem advance (h : Queues s) (hturns : Turns s) (hs' : Advance s c s') : Queues s' := by
  cases hs' with
  | idle hcall => exact h
  | onward hleg => exact h.onward (hleg ▸ s.current_leads c) rfl
  | answered herrand hleg hend =>
    exact h.answered hturns (hleg ▸ s.current_leads c) (Option.some_ne_none _) hend
  | aside hcall hend => exact h.ends hcall hend

/-- A dropped call goes away from its slot. The rest of the slot is as if it had never
waited there. -/
theorem cancel (h : Queues s) (c : CallId) : Queues (s.cancel c) := by
  simp only [Cache.cancel]
  rcases hslot : (s.call c).slot? with _ | i
  · refine h.of_calls rfl rfl fun d => ?_
    by_cases hd : d = c
    · subst hd
      have hover : (s.setCall d .over).call d = .over :=
        (call_of_set_self (s := s) rfl).elim id id
      rw [hslot, hover]
      rfl
    · rw [call_of_set_other (s := s) rfl hd]
  · exact h.gone hslot (f := (·.without c)) (fun _ _ => rfl) rfl rfl rfl fun _ _ => id

/-- A move preserves the invariant. Moves that are no legs and drop no call leave slots and
calls alone, but for the call that is made, which takes part in none. -/
theorem perform (h : Queues s) (hturns : Turns s) (m : Move) : Queues (s.perform m) := by
  cases m with
  | submit request =>
    refine h.of_calls rfl rfl fun d => ?_
    show ((s.submit request).1.call d).slot? = _
    rw [call_submit]
    split
    · next hd =>
      rw [call, hd, List.getElem?_eq_none (Nat.le_refl _)]
      rfl
    · rfl
  | advance c => exact h.advance hturns (s.advance_cases c)
  | cancel c => exact h.cancel c
  | watch w m => exact h.apart ⟨rfl, rfl, rfl⟩
  | gauge w =>
    obtain ⟨meters, heq⟩ := s.gaugeOf_eq w
    rw [Cache.perform, heq]
    exact h.apart ⟨rfl, rfl, rfl⟩
  | watcherFor r => exact h.apart (.watcherFor s r)
  | standalone r cap => exact h.apart ⟨rfl, rfl, rfl⟩
  | shutDown => exact h.apart ⟨rfl, rfl, rfl⟩
  | tick => exact h.apart ⟨rfl, rfl, rfl⟩
  | program f => exact h.apart ⟨rfl, rfl, rfl⟩

/-- **A call that is alone in its slot has its turn.** So a search cannot wait for ever
behind calls that are gone. -/
theorem hasTurn (h : Queues s) (hc : (s.call c).slot? = some i)
    (halone : ∀ d, (s.call d).slot? = some i → d = c) : s.hasTurn c i = true := by
  obtain ⟨slot, hslot⟩ : ∃ slot, s.slots[i]? = some slot :=
    ⟨_, List.getElem?_eq_getElem (h.bound c i hc)⟩
  have hmem := h.mem_iff i slot hslot
  refine hasTurn_iff.mpr ⟨slot, hslot, ?_⟩
  rcases hholder : slot.holder with _ | d
  · -- without a holder the slot would be empty
    have hc' := (hmem c).mpr hc
    rw [Slot.members, hholder, (h.sound i slot hslot).served hholder] at hc'
    cases hc'
  · have hd : d ∈ slot.members := by
      rw [Slot.members, hholder]
      exact List.mem_cons_self
    rw [halone d ((hmem d).mp hd)]

end Queues

end

/-- The record of the slots and that of the calls agree in every reachable state. The turns
are needed along the way, for the leg that ends a search. -/
theorem queues_of_reachable {s : Cache} (hs : Reachable s) : Queues s := by
  have hboth : Turns s ∧ Queues s :=
    hs.induction (motive := fun s => Turns s ∧ Queues s)
      (fun cluster settings => ⟨turns_starting cluster settings, queues_starting cluster settings⟩)
      fun _ m h => ⟨h.1.perform m, h.2.perform h.1 m⟩
  exact hboth.2

end Cache

end KindCache
