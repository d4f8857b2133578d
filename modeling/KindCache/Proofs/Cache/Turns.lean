import KindCache.Proofs.Cache.Run

/-!
# Turns in a slot

Calls that start one kind exclude one another (`exclusive`). Two things make it
so in every reachable state (`turns_of_reachable`).

* `Turns.shared` — all calls that take part in a slot for a kind take part in the
  one that is on the table;
* `Turns.holds` — a call that is starting a kind has its turn in its slot.

The slot is taken off the table only if two hold on to it: the table itself and
the call that leaves. So nobody is left behind in it
(`Turns.alone_of_lastThrough`).
-/

namespace KindCache

namespace Cache

/-! ## Counting -/

/-- Items at two places count twice. -/
theorem two_le_countP {α : Type} {p : α → Bool} {as : List α} {i j : Nat} {a b : α}
    (hij : i ≠ j) (hi : as[i]? = some a) (ha : p a = true) (hj : as[j]? = some b)
    (hb : p b = true) : 2 ≤ as.countP p := by
  induction as generalizing i j with
  | nil => cases hi
  | cons x as ih =>
    rw [List.countP_cons]
    have hpos : ∀ {k c}, as[k]? = some c → p c = true → 0 < as.countP p := fun hk hc =>
      List.countP_pos_iff.mpr ⟨_, List.mem_of_getElem? hk, hc⟩
    rcases i with _ | i <;> rcases j with _ | j
    · exact absurd rfl hij
    · obtain rfl := Option.some.inj hi
      have := hpos hj hb
      rw [if_pos ha]
      omega
    · obtain rfl := Option.some.inj hj
      have := hpos hi ha
      rw [if_pos hb]
      omega
    · have := ih (fun h => hij (congrArg _ h)) hi hj
      omega

/-- What is looked up counts: an entry of the table is one share in the slot. -/
theorem one_le_countP_of_lookup {κ α : Type} [DecidableEq κ] [DecidableEq α]
    {t : Table κ α} {k : κ} {a : α} (h : t.lookup k = some a) :
    1 ≤ t.countP (·.2 = a) := by
  induction t with
  | nil => cases h
  | cons e t ih =>
    obtain ⟨k', b⟩ := e
    rw [Table.lookup_cons] at h
    rw [List.countP_cons]
    split at h
    · obtain rfl := Option.some.inj h
      simp
    · have := ih h
      omega

/-! ## The invariant -/

/-- Calls that take part in slots, and the table of slots. The two fields support one
another: that all calls for a kind share one slot is what makes the turn in it exclusive,
and that a starting call has its turn is what keeps its slot on the table. -/
structure Turns (s : Cache) : Prop where
  /-- a call takes part in the slot on the table -/
  shared : ∀ c t, (s.call c).ticket? = some t → s.slotOf.lookup t.query.gvk = some t.slot
  /-- a call that starts its kind has its turn -/
  holds : ∀ c t, (s.call c).starting? = some t → s.hasTurn c t.slot = true

section

variable {s s' : Cache} {c d : CallId} {t : Ticket} {i : SlotId}

theorem hasTurn_iff : s.hasTurn c i = true ↔
    ∃ slot, s.slots[i]? = some slot ∧ slot.holder = some c := by
  simp only [hasTurn]
  rcases s.slots[i]? with _ | slot <;> simp

/-- Only one call has its turn, as a slot has one holder. -/
theorem eq_of_hasTurn (hc : s.hasTurn c i = true) (hd : s.hasTurn d i = true) : c = d := by
  obtain ⟨slot, hslot, hc⟩ := hasTurn_iff.mp hc
  obtain ⟨slot', hslot', hd⟩ := hasTurn_iff.mp hd
  obtain rfl := Option.some.inj (hslot.symm.trans hslot')
  exact Option.some.inj (hc.symm.trans hd)

/-- A turn lasts if what happens to the slot leaves its holder alone. What happens to other
slots does not matter. -/
theorem hasTurn_modify {j : SlotId} {f : Slot → Slot}
    (hf : i = j → ∀ slot, slot.holder = some c → (f slot).holder = some c)
    (hslots : s'.slots = s.slots.modify j f) (h : s.hasTurn c i = true) :
    s'.hasTurn c i = true := by
  obtain ⟨slot, hslot, hholder⟩ := hasTurn_iff.mp h
  refine hasTurn_iff.mpr ?_
  rw [hslots, List.getElem?_modify, hslot]
  refine ⟨_, rfl, ?_⟩
  split
  · next hj => exact hf hj.symm slot hholder
  · exact hholder

theorem turns_starting (cluster : Cluster) (settings : Settings) :
    Turns (starting cluster settings) := by
  refine ⟨?_, ?_⟩
  · intro c t h
    cases h
  · intro c t h
    cases h

namespace Turns

/-- Calls may be made or end if the slots stay as they are. A call that is new or over takes
part in nothing, so there is less to hold for it. -/
theorem of_calls (h : Turns s) (hslots : s'.slots = s.slots) (hslotOf : s'.slotOf = s.slotOf)
    (hcalls : ∀ c, s'.call c = s.call c ∨ (s'.call c).ticket? = none) : Turns s' := by
  refine ⟨fun c t ht => ?_, fun c t ht => ?_⟩
  · rw [hslotOf]
    rcases hcalls c with hc | hc
    · rw [hc] at ht
      exact h.shared c t ht
    · rw [hc] at ht
      cases ht
  · have hturn : s'.hasTurn c t.slot = s.hasTurn c t.slot := by
      rw [hasTurn, hslots]
      rfl
    rw [hturn]
    rcases hcalls c with hc | hc
    · rw [hc] at ht
      exact h.holds c t ht
    · rw [ticket?_of_starting ht] at hc
      cases hc

/-- A call may move on with its ticket once it has its turn. Without the turn it could come
to a point of a start that is not its own. -/
theorem setCall (h : Turns s) {point : Call} (ht : (s.call c).ticket? = some t)
    (hturn : s.hasTurn c t.slot = true) (hpoint : point.ticket? = some t) :
    Turns (s.setCall c point) := by
  have hset : (s.setCall c point).calls = s.calls.set c point := rfl
  have hlt : c < s.calls.length := lt_of_errand (errand?_of_ticket ht)
  refine ⟨fun d u hu => ?_, fun d u hu => ?_⟩
  · rw [call_of_set hset hlt] at hu
    split at hu
    · obtain rfl := Option.some.inj (hpoint.symm.trans hu)
      exact h.shared c t ht
    · exact h.shared d u hu
  · rw [call_of_set hset hlt] at hu
    split at hu
    · next hd =>
      obtain rfl := Option.some.inj (hpoint.symm.trans (ticket?_of_starting hu))
      rw [hd]
      exact hturn
    · exact h.holds d u hu

/-- **A call that leaves as the last one is alone with its slot.** The table and the
call itself are two shares; any other call for the kind would share the same slot and be
a third. -/
theorem alone_of_lastThrough (h : Turns s) (ht : (s.call c).ticket? = some t)
    (hlast : s.lastThrough t = true) {u : Ticket} (hu : (s.call d).ticket? = some u)
    (hkind : u.query.gvk = t.query.gvk) : d = c := by
  by_cases hdc : d = c
  · exact hdc
  · have hslot : u.slot = t.slot := by
      have hshared := h.shared d u hu
      rw [hkind, h.shared c t ht] at hshared
      exact (Option.some.inj hshared).symm
    -- with another ticket there would be three that hold on to the slot
    have htwo : 2 ≤ s.calls.countP (·.slot? = some t.slot) := by
      refine two_le_countP hdc (getElem?_calls (lt_of_errand (errand?_of_ticket hu))) ?_
        (getElem?_calls (lt_of_errand (errand?_of_ticket ht))) ?_
      · simp [Call.slot?, hu, hslot]
      · simp [Call.slot?, ht]
    have hone := one_le_countP_of_lookup (h.shared c t ht)
    have hshares : s.shares t.slot = 2 := by
      simp only [lastThrough, Bool.and_eq_true, decide_eq_true_eq] at hlast
      exact hlast.2
    simp only [shares] at hshares
    omega

theorem leaveSlot_slots (s : Cache) (t : Ticket) :
    (s.leaveSlot t).slots = s.slots.modify t.slot Slot.passOn := by
  simp only [leaveSlot]
  split <;> rfl

/-- A call that has its turn may leave its slot for good. If the slot goes off the table
with it, nobody else was in it, and otherwise the table is as before. -/
theorem leave (h : Turns s) (ht : (s.call c).ticket? = some t)
    (hturn : s.hasTurn c t.slot = true) {point : Call} (hpoint : point.ticket? = none)
    (hslots : s'.slots = (s.leaveSlot t).slots) (hslotOf : s'.slotOf = (s.leaveSlot t).slotOf)
    (hcalls : s'.calls = s.calls.set c point) : Turns s' := by
  have hlt : c < s.calls.length := lt_of_errand (errand?_of_ticket ht)
  -- the call itself has no ticket any more, the others stay where they are
  have hother : ∀ {d u}, (s'.call d).ticket? = some u →
      d ≠ c ∧ (s.call d).ticket? = some u := by
    intro d u hu
    rw [call_of_set hcalls hlt] at hu
    split at hu
    · rw [hpoint] at hu
      cases hu
    · next hd => exact ⟨hd, hu⟩
  refine ⟨fun d u hu => ?_, fun d u hu => ?_⟩
  · obtain ⟨hd, hu⟩ := hother hu
    have hshared := h.shared d u hu
    rw [hslotOf]
    simp only [leaveSlot]
    split
    · next hlast =>
      -- the slot goes off the table, but nobody else takes part in it
      have hkind : u.query.gvk ≠ t.query.gvk :=
        fun hkind => hd (h.alone_of_lastThrough ht hlast hu hkind)
      show (s.slotOf.filter fun e => e.1 ≠ t.query.gvk).lookup u.query.gvk = some u.slot
      rw [Table.lookup_filter_ne, if_neg hkind]
      exact hshared
    · exact hshared
  · -- a turn is passed on in this slot only, where no other call has it
    obtain ⟨hd, -⟩ := hother (ticket?_of_starting hu)
    rw [call_of_set_other hcalls hd] at hu
    have hholds := h.holds d u hu
    refine hasTurn_modify (f := Slot.passOn) (fun hslot => ?_)
      (hslots.trans (leaveSlot_slots s t)) hholds
    rw [hslot] at hholds
    exact absurd (eq_of_hasTurn hholds hturn) hd

/-- A call may join a slot for its kind that is on the table afterwards. No turn is lost by
this, nor any entry for another kind. -/
theorem join (h : Turns s) (hlt : c < s.calls.length) {use : Use} {q : Query}
    (hcalls : s'.calls = s.calls.set c (.queued ⟨use, q, i⟩))
    (hlookup : s'.slotOf.lookup q.gvk = some i)
    (hslotOf : ∀ g j, s.slotOf.lookup g = some j → s'.slotOf.lookup g = some j)
    (hturns : ∀ d j, s.hasTurn d j = true → s'.hasTurn d j = true) : Turns s' := by
  refine ⟨fun d u hu => ?_, fun d u hu => ?_⟩
  · rw [call_of_set hcalls hlt] at hu
    split at hu
    · obtain rfl := Option.some.inj hu
      exact hlookup
    · exact hslotOf _ _ (h.shared d u hu)
  · rw [call_of_set hcalls hlt] at hu
    split at hu
    · cases hu
    · exact hturns d _ (h.holds d u hu)

/-- Whoever has the turn keeps it when another call joins. -/
theorem join_holder {slot : Slot} (h : slot.holder = some d) :
    (slot.join c).holder = some d := by
  simp only [Slot.join, h]

/-- A new call may join the slot of its kind. If that slot is new, it is put on the table,
and nobody has taken part in a search for the kind so far. -/
theorem enqueue (h : Turns s) (hlt : c < s.calls.length) (use : Use) (q : Query) :
    Turns (s.enqueue c use q) := by
  rcases hlookup : s.slotOf.lookup q.gvk with _ | i
  · simp only [Cache.enqueue, sharedSlot, hlookup]
    refine h.join hlt rfl (?_ : (Table.put _ _ _).lookup _ = _) (fun g j hj => ?_)
      fun d j hd => ?_
    · rw [Table.lookup_put, if_pos rfl]
    · -- the kind had no slot, so it is another one
      show (Table.put _ _ _).lookup g = some j
      have hg : g ≠ q.gvk := by
        rintro rfl
        rw [hlookup] at hj
        cases hj
      rw [Table.lookup_put, if_neg hg]
      exact hj
    · obtain ⟨slot, hslot, hholder⟩ := hasTurn_iff.mp hd
      have hnew : hasTurn { s with slots := s.slots ++ [.free] } d j = true :=
        hasTurn_iff.mpr ⟨slot, getElem?_snoc_of_some hslot, hholder⟩
      exact hasTurn_modify (fun _ _ => join_holder) rfl hnew
  · simp only [Cache.enqueue, sharedSlot, hlookup]
    exact h.join hlt rfl hlookup (fun _ _ => id)
      fun d j hd => hasTurn_modify (fun _ _ => join_holder) rfl hd

theorem apart (h : Turns s) (hs' : Apart s s') : Turns s' :=
  h.of_calls hs'.slots hs'.slotOf fun c => .inl (hs'.call c)

/-- A call that is starting its kind may move on, after whatever it has asked or opened. -/
theorem move (h : Turns s) (hs' : Apart s s') (ht : (s.call c).starting? = some t)
    {point : Call} (hpoint : point.ticket? = some t) : Turns (s'.setCall c point) := by
  refine (h.apart hs').setCall ?_ ?_ hpoint
  · rw [hs'.call]
    exact ticket?_of_starting ht
  · rw [hs'.hasTurn]
    exact h.holds c t ht

/-- A leg of a search that goes on preserves the invariant. -/
theorem onward (h : Turns s) {leg : Leg} (hleg : Leads s c leg) (hnone : leg.2 = none) :
    Turns leg.1 := by
  cases hleg with
  | resting hcall => exact h
  | joined hcall hw =>
    refine h.enqueue (lt_of_call fun hover => ?_) _ _
    rw [hcall] at hover
    cases hover
  | begun hcall hturn hw => exact h.setCall (by rw [hcall]; rfl) hturn rfl
  | resolved hcall hs' => exact h.move hs'.apart (by rw [hcall]; rfl) rfl
  | reviewed hcall hs' => exact h.move hs'.apart (by rw [hcall]; rfl) rfl
  | waited ha => exact h.move ha.apart ha.starting rfl
  | found | refused | shared | failed | expired | succeeded => cases hnone

theorem ends (h : Turns s) (hs' : Ends s c s') : Turns s' := by
  obtain ⟨point, hpoint, hcalls⟩ := hs'.calls
  refine h.of_calls hs'.slots hs'.slotOf fun d => ?_
  by_cases hd : d = c
  · subst hd
    rcases call_of_set_self hcalls with hself | hself
    · rw [hself]
      exact .inr (ticket?_of_errand hpoint)
    · rw [hself]
      exact .inr rfl
  · exact .inl (call_of_set_other hcalls hd)

/-- A call that has its turn may leave, whatever was asked or opened before. -/
theorem left {s₁ s₂ : Cache} (h : Turns s) (hs₁ : Apart s s₁) (ht : (s.call c).ticket? = some t)
    (hturn : s.hasTurn c t.slot = true) (hend : Ends (s₁.leaveSlot t) c s₂) : Turns s₂ := by
  obtain ⟨point, hpoint, hcalls⟩ := hend.calls
  rw [leaveSlot_calls] at hcalls
  refine (h.apart hs₁).leave ?_ ?_ (ticket?_of_errand hpoint) hend.slots hend.slotOf hcalls
  · rw [hs₁.call]
    exact ht
  · rw [hs₁.hasTurn]
    exact hturn

/-- The end of a search preserves the invariant. A call that waits in the slot cannot come
to such an end; it has to have its turn first. -/
theorem answered (h : Turns s) {leg : Leg} (hleg : Leads s c leg) (hsome : leg.2 ≠ none)
    (hend : Ends leg.1 c s') : Turns s' := by
  cases hleg with
  | found hcall hw => exact h.ends hend
  | refused hcall hs => exact h.ends hend
  | shared hcall hturn hw => exact h.left ⟨rfl, rfl, rfl⟩ (by rw [hcall]; rfl) hturn hend
  | failed hcall hs' =>
    exact h.left hs'.apart (ticket?_of_starting hcall) (h.holds c _ hcall) hend
  | expired ha =>
    exact h.left ha.apart (ticket?_of_starting ha.starting) (h.holds c _ ha.starting) hend
  | succeeded ha hget hsynced =>
    exact h.left (ha.apart.markSeen _ _) (ticket?_of_starting ha.starting)
      (h.holds c _ ha.starting) hend
  | resting | joined | begun | resolved | reviewed | waited => exact absurd rfl hsome

theorem advance (h : Turns s) (hs' : Advance s c s') : Turns s' := by
  cases hs' with
  | idle hcall => exact h
  | onward hleg => exact h.onward (hleg ▸ s.current_leads c) rfl
  | answered herrand hleg hend =>
    exact h.answered (hleg ▸ s.current_leads c) (Option.some_ne_none _) hend
  | aside hcall hend => exact h.ends hend

/-- A dropped call takes nothing from the others. If it had the turn, the next one has it,
and no other call is starting the kind that could notice. -/
theorem cancel (h : Turns s) (c : CallId) : Turns (s.cancel c) := by
  simp only [Cache.cancel]
  have hother : ∀ {s' : Cache}, s'.calls = s.calls.set c .over → ∀ {d u},
      (s'.call d).ticket? = some u → d ≠ c ∧ s'.call d = s.call d := by
    intro s' hcalls d u hu
    have hd : d ≠ c := by
      rintro rfl
      rcases call_of_set_self hcalls with hself | hself <;> rw [hself] at hu <;> cases hu
    exact ⟨hd, call_of_set_other hcalls hd⟩
  -- without a slot there is nothing to give back
  rcases hslot : (s.call c).slot? with _ | i
  · refine ⟨fun d u hu => ?_, fun d u hu => ?_⟩
    · obtain ⟨-, heq⟩ := hother rfl hu
      exact h.shared d u (heq ▸ hu)
    · obtain ⟨-, heq⟩ := hother rfl (ticket?_of_starting hu)
      exact h.holds d u (heq ▸ hu)
  · refine ⟨fun d u hu => ?_, fun d u hu => ?_⟩
    · obtain ⟨-, heq⟩ := hother rfl hu
      exact h.shared d u (heq ▸ hu)
    · obtain ⟨hd, heq⟩ := hother rfl (ticket?_of_starting hu)
      refine hasTurn_modify (fun _ slot hholder => ?_) rfl (h.holds d u (heq ▸ hu))
      rw [Slot.without, hholder, if_neg fun e => hd (Option.some.inj e)]

/-- A move preserves the invariant. -/
theorem perform (h : Turns s) (m : Move) : Turns (s.perform m) := by
  cases m with
  | submit request =>
    refine h.of_calls rfl rfl fun d => ?_
    show (s.submit request).1.call d = _ ∨ ((s.submit request).1.call d).ticket? = none
    rw [call_submit]
    split
    · exact .inr rfl
    · exact .inl rfl
  | advance c => exact h.advance (s.advance_cases c)
  | cancel c => exact h.cancel c
  | watch w m => exact h.apart ⟨rfl, rfl, rfl⟩
  | gauge w =>
    obtain ⟨meters, heq⟩ := s.gaugeOf_eq w
    rw [Cache.perform, heq]
    exact h.apart ⟨rfl, rfl, rfl⟩
  | watcherFor r => exact h.apart (.watcherFor s r)
  | standalone r cap => exact h.apart ⟨rfl, rfl, rfl⟩
  | shutDown => exact h.apart ⟨rfl, rfl, rfl⟩
  | tick => exact h.apart ⟨rfl, rfl, rfl⟩
  | program f => exact h.apart ⟨rfl, rfl, rfl⟩

end Turns

end

theorem turns_of_reachable {s : Cache} (hs : Reachable s) : Turns s :=
  hs.induction turns_starting fun _ m h => h.perform m

/-- Whether a call is starting a kind. -/
def starts (s : Cache) (c : CallId) (g : GroupVersionKind) : Bool :=
  (s.call c).starting?.any fun t => t.query.gvk = g

theorem starts_iff {s : Cache} {c : CallId} {g : GroupVersionKind} :
    s.starts c g = true ↔ ∃ t, (s.call c).starting? = some t ∧ t.query.gvk = g := by
  simp only [starts]
  rcases (s.call c).starting? with _ | t <;> simp

/-- **At most one call is starting a kind.** Two of them would share the slot on the table,
and both would have their turn in it. -/
theorem Turns.exclusive {s : Cache} (h : Turns s) {c d : CallId} {g : GroupVersionKind}
    (hc : s.starts c g = true) (hd : s.starts d g = true) : c = d := by
  obtain ⟨t, ht, rfl⟩ := starts_iff.mp hc
  obtain ⟨u, hu, hkind⟩ := starts_iff.mp hd
  have hslot := h.shared d u (ticket?_of_starting hu)
  rw [hkind, h.shared c t (ticket?_of_starting ht)] at hslot
  have hturn := h.holds d u hu
  rw [← Option.some.inj hslot] at hturn
  exact eq_of_hasTurn (h.holds c t ht) hturn

end Cache

end KindCache
