import Mathlib.Data.List.Nodup
import KindCache.Cache.Schedule
import KindCache.Proofs.Cache.Queues
import KindCache.Proofs.Cache.Replies

/-!
# One slot for each kind

No two kinds share a slot, so what happens in the slot of one kind is nothing to the calls
for another one.

* `Orderly`, `orderly_of_reachable` — the invariants of slots, with the table of slots
  without repetition;
* `slotFor` — the slot of a kind, whatever its number is. Its calls are those for the kind
  (`Orderly.mem_slotFor`);
* `slotFor_enqueue`, `Orderly.slotFor_leaveSlot`, `Orderly.slotFor_dropFromSlot` — what calls
  do to it, and that they leave the slots of other kinds alone;
* `WaitsFor`, `waitsFor_of_not_ready` — a search that gets no further waits for its own kind.
-/

namespace KindCache

namespace Table

variable {κ α : Type} [DecidableEq κ] {t : Table κ α} {k : κ} {a b : α}

/-- What stands in a table after one entry was put is the new value or an old one. -/
theorem mem_values_put (h : b ∈ (put k a t).map (·.2)) : b = a ∨ b ∈ t.map (·.2) := by
  induction t with
  | nil => exact .inl (List.mem_singleton.mp h)
  | cons e t ih =>
    obtain ⟨k', v⟩ := e
    unfold put at h
    split at h
    · rcases List.mem_cons.mp h with rfl | h
      · exact .inl rfl
      · exact .inr (List.mem_cons_of_mem _ h)
    · rcases List.mem_cons.mp h with rfl | h
      · exact .inr List.mem_cons_self
      · exact (ih h).imp_right (List.mem_cons_of_mem _)

/-- A new value is not there twice. Under its key it may have replaced another value, which
is then gone. -/
theorem nodup_values_put (h : (t.map (·.2)).Nodup) (ha : a ∉ t.map (·.2)) :
    ((put k a t).map (·.2)).Nodup := by
  induction t with
  | nil => exact List.nodup_singleton a
  | cons e t ih =>
    obtain ⟨k', v⟩ := e
    obtain ⟨hv, ht⟩ := List.nodup_cons.mp h
    have hne : a ≠ v := fun e => ha (e ▸ List.mem_cons_self)
    have hrest : a ∉ t.map (·.2) := fun hmem => ha (List.mem_cons_of_mem _ hmem)
    unfold put
    split
    · exact List.nodup_cons.mpr ⟨hrest, ht⟩
    · refine List.nodup_cons.mpr ⟨fun hmem => ?_, ih ht hrest⟩
      rcases mem_values_put hmem with hsame | hmem
      · exact hne hsame.symm
      · exact hv hmem

/-- A value under two keys is there twice. Read the other way: where no value is there
twice, a slot tells the kind that it belongs to. -/
theorem key_of_value (h : (t.map (·.2)).Nodup) {k' : κ} (hk : t.lookup k = some a)
    (hk' : t.lookup k' = some a) : k = k' := by
  induction t with
  | nil => cases hk
  | cons e t ih =>
    obtain ⟨l, v⟩ := e
    obtain ⟨hv, ht⟩ := List.nodup_cons.mp h
    have hvalue : ∀ {m : κ}, t.lookup m = some a → v ≠ a := by
      rintro m hm rfl
      exact hv (List.mem_map.mpr ⟨_, mem_of_lookup hm, rfl⟩)
    rw [lookup_cons] at hk hk'
    split at hk <;> split at hk'
    · next hl hl' => exact hl.trans hl'.symm
    · exact absurd (Option.some.inj hk) (hvalue hk')
    · exact absurd (Option.some.inj hk') (hvalue hk)
    · exact ih ht hk hk'

/-- A value that is looked up counts once. It is the share that the table of slots has in a
slot. -/
theorem countP_value [DecidableEq α] (h : (t.map (·.2)).Nodup) (hk : t.lookup k = some a) :
    t.countP (fun e => e.2 = a) = 1 := by
  have hmem : a ∈ t.map (·.2) := List.mem_map.mpr ⟨_, mem_of_lookup hk, rfl⟩
  have hcount := List.count_eq_one_of_mem h hmem
  rw [List.count, List.countP_map] at hcount
  rw [← hcount]
  refine List.countP_congr ?_
  intro e _
  simp

end Table

/-- If only one place counts, the count is one. It turns the number of shares in a slot into
the question who takes part in it. -/
theorem countP_eq_one {α : Type} {p : α → Bool} {as : List α} {i : Nat} {a : α}
    (hi : as[i]? = some a) (ha : p a = true)
    (honly : ∀ (j : Nat) (b : α), as[j]? = some b → p b = true → j = i) : as.countP p = 1 := by
  have hone : 0 < as.countP p := List.countP_pos_iff.mpr ⟨a, List.mem_of_getElem? hi, ha⟩
  induction as generalizing i with
  | nil => cases hi
  | cons x as ih =>
    rw [List.countP_cons]
    rcases i with _ | i
    · obtain rfl := Option.some.inj hi
      have hnone : as.countP p = 0 := by
        refine List.countP_eq_zero.mpr ?_
        intro b hb hpb
        obtain ⟨j, hj⟩ := List.mem_iff_getElem?.mp hb
        cases honly (j + 1) b hj hpb
      rw [hnone, if_pos ha]
    · have hx : ¬ p x = true := by
        intro hpx
        cases honly 0 x rfl hpx
      rw [if_neg hx]
      refine ih hi (fun j b hj hpb => ?_) (List.countP_pos_iff.mpr ⟨a, List.mem_of_getElem? hi, ha⟩)
      exact Nat.succ_inj.mp (honly (j + 1) b hj hpb)

/-- The slot after its last holder has left: it is given up if nobody waits. So the table
forgets the kind, and the next call for it makes a new slot. -/
def Slot.handOn (slot : Slot) : Option Slot :=
  if slot.waiting = [] then none else some slot.passOn

namespace Cache

/-! ## The invariant -/

/-- The table of slots holds no slot twice, and only slots that there are. -/
structure Lanes (s : Cache) : Prop where
  nodup : (s.slotOf.map (·.2)).Nodup
  bound : ∀ i ∈ s.slotOf.map (·.2), i < s.slots.length

/-- All that is known about slots, their table and the calls in them: one call at a time, in
the order in which they came, and no slot for two kinds. -/
structure Orderly (s : Cache) : Prop where
  turns : Turns s
  queues : Queues s
  lanes : Lanes s

section

variable {s s' : Cache} {c d : CallId} {t : Ticket} {g : GroupVersionKind} {slot : Slot}

namespace Lanes

/-- The invariant is about slots and their table only. -/
theorem of_same (h : Lanes s) (hslotOf : s'.slotOf = s.slotOf) (hslots : s'.slots = s.slots) :
    Lanes s' := by
  refine ⟨?_, ?_⟩
  · rw [hslotOf]
    exact h.nodup
  · rw [hslotOf, hslots]
    exact h.bound

theorem apart (h : Lanes s) (hs' : Apart s s') : Lanes s' :=
  h.of_same hs'.slotOf hs'.slots

/-- What happens within a slot leaves the table as it is, and the number of slots. -/
theorem modifySlot (h : Lanes s) (i : SlotId) (f : Slot → Slot) : Lanes (s.modifySlot i f) := by
  refine ⟨h.nodup, ?_⟩
  intro j hj
  show j < (s.slots.modify i f).length
  rw [List.length_modify]
  exact h.bound j hj

/-- A new slot is another one. It has the next number, which no entry of the table can have,
as all of them are numbers of slots that there are. -/
theorem sharedSlot (h : Lanes s) (k : GroupVersionKind) : Lanes (s.sharedSlot k).1 := by
  simp only [Cache.sharedSlot]
  split
  · exact h
  · refine ⟨Table.nodup_values_put h.nodup fun hmem => Nat.lt_irrefl _ (h.bound _ hmem), ?_⟩
    intro j hj
    show j < (s.slots ++ [Slot.free]).length
    rw [List.length_append, List.length_singleton]
    rcases Table.mem_values_put hj with rfl | hold
    · exact Nat.lt_succ_self _
    · exact Nat.lt_succ_of_lt (h.bound j hold)

theorem enqueue (h : Lanes s) (c : CallId) (use : Use) (q : Query) :
    Lanes (s.enqueue c use q) :=
  ((h.sharedSlot q.gvk).modifySlot _ _).of_same rfl rfl

/-- Taking an entry off the table makes nothing be there twice. -/
theorem leaveSlot (h : Lanes s) (t : Ticket) : Lanes (s.leaveSlot t) := by
  have hlength : (s.leaveSlot t).slots.length = s.slots.length := by
    rw [Turns.leaveSlot_slots, List.length_modify]
  have hsub : ((s.leaveSlot t).slotOf.map (·.2)).Sublist (s.slotOf.map (·.2)) := by
    simp only [Cache.leaveSlot]
    split
    · exact (List.filter_sublist (l := s.slotOf)).map _
    · exact .refl _
  exact ⟨h.nodup.sublist hsub, fun i hi => hlength ▸ h.bound i (hsub.subset hi)⟩

theorem leg (h : Lanes s) {leg : Leg} (hleg : Leads s c leg) : Lanes leg.1 := by
  cases hleg with
  | resting | found | refused => exact h
  | joined hcall hw => exact h.enqueue c _ _
  | shared hcall hturn hw => exact h.leaveSlot _
  | begun => exact h.of_same rfl rfl
  | resolved hcall hs' | reviewed hcall hs' =>
    obtain ⟨hcalls, hslots, hslotOf⟩ := hs'.apart
    exact h.of_same hslotOf hslots
  | waited ha =>
    obtain ⟨hcalls, hslots, hslotOf⟩ := ha.apart
    exact h.of_same hslotOf hslots
  | failed hcall hs' => exact (h.apart hs'.apart).leaveSlot _
  | expired ha => exact (h.apart ha.apart).leaveSlot _
  | succeeded ha hget hsynced => exact (h.apart (ha.apart.markSeen _ _)).leaveSlot _

theorem advance (h : Lanes s) (hs' : Advance s c s') : Lanes s' := by
  cases hs' with
  | idle hcall => exact h
  | onward hleg => exact h.leg (hleg ▸ s.current_leads c)
  | answered herrand hleg hend =>
    exact (h.leg (hleg ▸ s.current_leads c)).of_same hend.slotOf hend.slots
  | aside hcall hend => exact h.of_same hend.slotOf hend.slots

/-- A move preserves the invariant: only a leg that joins a slot puts an entry on the table,
and only one that leaves takes one off. -/
theorem perform (h : Lanes s) (m : Move) : Lanes (s.perform m) := by
  cases m with
  | advance c => exact h.advance (s.advance_cases c)
  | cancel c =>
    simp only [Cache.perform, cancel]
    split
    · exact (h.modifySlot _ _).of_same rfl rfl
    · exact h.of_same rfl rfl
  | gauge w =>
    obtain ⟨meters, heq⟩ := s.gaugeOf_eq w
    rw [Cache.perform, heq]
    exact h.of_same rfl rfl
  | watcherFor r => exact h.apart (.watcherFor s r)
  | submit | watch | standalone | shutDown | tick | program => exact h.of_same rfl rfl

end Lanes

theorem Orderly.apart (h : Orderly s) (hs' : Apart s s') : Orderly s' :=
  ⟨h.turns.apart hs', h.queues.apart hs', h.lanes.apart hs'⟩

/-- The invariants hold in every reachable state. Each of the three is proved by its own
induction, and from here on they are used as one. -/
theorem orderly_of_reachable (hs : Reachable s) : Orderly s :=
  ⟨turns_of_reachable hs, queues_of_reachable hs,
    hs.induction (fun _ _ => ⟨List.nodup_nil, fun _ h => absurd h List.not_mem_nil⟩)
      fun _ m h => h.perform m⟩

/-! ## The slot of a kind -/

/-- The slot that the calls for a kind share. Numbers of slots do not show in it, so that
two caches can be compared whose slots have different numbers. -/
def slotFor (s : Cache) (g : GroupVersionKind) : Option Slot :=
  (s.slotOf.lookup g).bind fun i => s.slots[i]?

theorem slotFor_eq {i : SlotId} (h : s.slotOf.lookup g = some i) :
    s.slotFor g = s.slots[i]? := by
  rw [slotFor, h]
  rfl

/-- A change of the slot of one kind. That other kinds keep theirs is due to the table,
which has no slot under two of them. -/
theorem slotFor_modifySlot (h : Lanes s) {k : GroupVersionKind} {i : SlotId}
    (hk : s.slotOf.lookup k = some i) (f : Slot → Slot) (g : GroupVersionKind) :
    (s.modifySlot i f).slotFor g = if g = k then (s.slotFor g).map f else s.slotFor g := by
  show (s.slotOf.lookup g).bind (fun j => (s.slots.modify i f)[j]?) = _
  rw [slotFor]
  by_cases hg : g = k
  · rw [if_pos hg, hg, hk]
    simp
  · rw [if_neg hg]
    rcases hlookup : s.slotOf.lookup g with _ | j
    · rfl
    · have hij : i ≠ j := by
        rintro rfl
        exact hg (Table.key_of_value h.nodup hlookup hk)
      simp [hij]

theorem sharedSlot_lookup (s : Cache) (k : GroupVersionKind) :
    (s.sharedSlot k).1.slotOf.lookup k = some (s.sharedSlot k).2 := by
  simp only [sharedSlot]
  split
  · next hlookup => exact hlookup
  · exact (Table.lookup_put ..).trans (if_pos rfl)

/-- A kind without a slot gets a free one, and one with a slot keeps it. For other kinds
nothing changes. -/
theorem slotFor_sharedSlot (h : Lanes s) (k g : GroupVersionKind) :
    (s.sharedSlot k).1.slotFor g =
      if g = k then some ((s.slotFor g).getD .free) else s.slotFor g := by
  rcases hlookup : s.slotOf.lookup k with _ | i
  · simp only [sharedSlot, hlookup]
    show ((Table.put k s.slots.length s.slotOf).lookup g).bind
      (fun i => (s.slots ++ [Slot.free])[i]?) = _
    rw [Table.lookup_put]
    by_cases hg : g = k
    · rw [if_pos hg, if_pos hg, slotFor, hg, hlookup]
      simp
    · rw [if_neg hg, if_neg hg, slotFor]
      rcases hj : s.slotOf.lookup g with _ | j
      · rfl
      · have hlt : j < s.slots.length :=
          h.bound j (List.mem_map.mpr ⟨_, Table.mem_of_lookup hj, rfl⟩)
        simp [List.getElem?_append_left hlt]
  · simp only [sharedSlot, hlookup]
    split
    · next hg =>
      have hlt : i < s.slots.length :=
        h.bound i (List.mem_map.mpr ⟨_, Table.mem_of_lookup hlookup, rfl⟩)
      rw [hg, slotFor_eq hlookup, List.getElem?_eq_getElem hlt]
      rfl
    · rfl

/-- A call joins the slot of its kind, and takes the turn there if nobody has it. -/
theorem slotFor_enqueue (h : Lanes s) (c : CallId) (use : Use) (q : Query)
    (g : GroupVersionKind) : (s.enqueue c use q).slotFor g =
      if g = q.gvk then some (((s.slotFor g).getD .free).join c) else s.slotFor g := by
  have hstep : (s.enqueue c use q).slotFor g = if g = q.gvk then
      ((s.sharedSlot q.gvk).1.slotFor g).map (·.join c) else (s.sharedSlot q.gvk).1.slotFor g :=
    slotFor_modifySlot (h.sharedSlot q.gvk) (s.sharedSlot_lookup q.gvk) (·.join c) g
  rw [hstep, slotFor_sharedSlot h]
  split <;> rfl

namespace Orderly

/-- The calls in the slot of a kind are those that take part in the search for it. In both
directions: a call for another kind is never found there, and a call for this one is nowhere
else. -/
theorem mem_slotFor (h : Orderly s) (hslot : s.slotFor g = some slot) :
    d ∈ slot.members ↔ ∃ u, (s.call d).ticket? = some u ∧ u.query.gvk = g := by
  obtain ⟨i, hi, hget⟩ := Option.bind_eq_some_iff.mp hslot
  rw [h.queues.mem_iff i slot hget d]
  constructor
  · intro hd
    obtain ⟨u, hu, rfl⟩ := Option.map_eq_some_iff.mp hd
    exact ⟨u, hu, Table.key_of_value h.lanes.nodup (h.turns.shared d u hu) hi⟩
  · rintro ⟨u, hu, rfl⟩
    rw [h.turns.shared d u hu] at hi
    rw [slot?_of_ticket hu, hi]

/-- A call with a share in a slot takes part in the slot of its kind. While it does, this
slot cannot be taken off the table, and no other one be put in its place. -/
theorem exists_slotFor (h : Orderly s) (ht : (s.call c).ticket? = some t) :
    ∃ slot, s.slotFor t.query.gvk = some slot ∧ s.slots[t.slot]? = some slot ∧
      c ∈ slot.members := by
  have hlt := h.queues.bound c t.slot (slot?_of_ticket ht)
  have hslot : s.slotFor t.query.gvk = some s.slots[t.slot] := by
    rw [slotFor_eq (h.turns.shared c t ht), List.getElem?_eq_getElem hlt]
  refine ⟨s.slots[t.slot], hslot, List.getElem?_eq_getElem hlt, ?_⟩
  exact (h.mem_slotFor hslot).mpr ⟨t, ht, rfl⟩

/-- A call has its turn if it holds the slot of its kind. -/
theorem hasTurn_iff (h : Orderly s) (ht : (s.call c).ticket? = some t)
    (hslot : s.slotFor t.query.gvk = some slot) :
    s.hasTurn c t.slot = true ↔ slot.holder = some c := by
  obtain ⟨slot', hslot', hget, -⟩ := h.exists_slotFor ht
  obtain rfl := Option.some.inj (hslot.symm.trans hslot')
  simp [hasTurn, hget]

/-- The last call through is the one behind which nobody waits. The code counts how many
hold on to the slot; the count is two, the table and the call itself, exactly if the call is
alone in it. -/
theorem lastThrough_iff (h : Orderly s) (ht : (s.call c).ticket? = some t)
    (hslot : s.slotFor t.query.gvk = some slot) (hholder : slot.holder = some c) :
    s.lastThrough t = true ↔ slot.waiting = [] := by
  obtain ⟨slot', hslot', hget, -⟩ := h.exists_slotFor ht
  obtain rfl := Option.some.inj (hslot.symm.trans hslot')
  have hshared := h.turns.shared c t ht
  have hmembers : slot.members = c :: slot.waiting := by
    rw [Slot.members, hholder]
    rfl
  constructor
  · intro hlast
    refine List.eq_nil_iff_forall_not_mem.mpr fun d hd => ?_
    -- whoever waits would be this call itself
    have hmem : d ∈ slot.members := hmembers ▸ List.mem_cons_of_mem _ hd
    obtain ⟨u, hu, hkind⟩ := (h.mem_slotFor hslot).mp hmem
    obtain rfl := h.turns.alone_of_lastThrough ht hlast hu hkind
    have hnodup := (h.queues.sound t.slot slot hget).nodup
    rw [hmembers] at hnodup
    exact (List.nodup_cons.mp hnodup).1 hd
  · intro hnone
    have hcalls : s.calls.countP (fun call => call.slot? = some t.slot) = 1 := by
      refine countP_eq_one (getElem?_calls (lt_of_errand (errand?_of_ticket ht))) ?_ ?_
      · simp [slot?_of_ticket ht]
      · intro d call hd hcall
        have hd' : s.call d = call := by rw [Cache.call, hd]; rfl
        have hmem : d ∈ slot.members :=
          (h.queues.mem_iff t.slot slot hget d).mpr (hd' ▸ of_decide_eq_true hcall)
        rw [hmembers, hnone] at hmem
        exact List.mem_singleton.mp hmem
    have htable := Table.countP_value h.lanes.nodup hshared
    simp [lastThrough, shares, hshared, hcalls, htable]

/-- **A call that ends its turn hands on the slot of its kind.** If nobody waits, the
slot is given up, otherwise the next call has its turn. The slots of other kinds do not
notice. -/
theorem slotFor_leaveSlot (h : Orderly s) (ht : (s.call c).ticket? = some t)
    (hturn : s.hasTurn c t.slot = true) (g : GroupVersionKind) : (s.leaveSlot t).slotFor g =
      if g = t.query.gvk then (s.slotFor g).bind Slot.handOn else s.slotFor g := by
  obtain ⟨slot, hslot, hget, -⟩ := h.exists_slotFor ht
  have hholder := (h.hasTurn_iff ht hslot).mp hturn
  have hshared := h.turns.shared c t ht
  have hlast := h.lastThrough_iff ht hslot hholder
  by_cases hnone : slot.waiting = []
  · have hleave : s.leaveSlot t =
        (s.retireSlot t.query.gvk).modifySlot t.slot Slot.passOn := by
      simp [leaveSlot, hlast.mpr hnone]
    rw [hleave]
    show ((s.slotOf.filter fun e => e.1 ≠ t.query.gvk).lookup g).bind
      (fun i => (s.slots.modify t.slot Slot.passOn)[i]?) = _
    rw [Table.lookup_filter_ne]
    by_cases hg : g = t.query.gvk
    · rw [if_pos hg, if_pos hg, hg, hslot]
      simp [Slot.handOn, hnone]
    · rw [if_neg hg, if_neg hg, slotFor]
      rcases hi : s.slotOf.lookup g with _ | i
      · rfl
      · have hne : t.slot ≠ i := by
          rintro rfl
          exact hg (Table.key_of_value h.lanes.nodup hi hshared)
        simp [hne]
  · have hleave : s.leaveSlot t = s.modifySlot t.slot Slot.passOn := by
      have hnot : ¬ s.lastThrough t = true := fun hyes => hnone (hlast.mp hyes)
      simp [leaveSlot, hnot]
    rw [hleave, slotFor_modifySlot h.lanes hshared]
    split
    · next hg =>
      rw [hg, hslot]
      simp [Slot.handOn, hnone]
    · rfl

/-- A call that is dropped goes away from the slot of its kind. Unlike at the end of a turn,
an empty slot stays on the table. -/
theorem slotFor_dropFromSlot (h : Orderly s) (ht : (s.call c).ticket? = some t)
    (g : GroupVersionKind) : (s.dropFromSlot c t.slot).slotFor g =
      if g = t.query.gvk then (s.slotFor g).map (·.without c) else s.slotFor g :=
  slotFor_modifySlot h.lanes (h.turns.shared c t ht) (·.without c) g

end Orderly

/-! ## What a search waits for -/

/-- What a call that searches for the watcher of a kind can be waiting for, when it has
heard some replies. There are two cases, and both name the kind: nothing that is done for
another kind is among them. -/
inductive WaitsFor (s : Cache) (c : CallId) (g : GroupVersionKind) (replies : List Reply) :
    Prop where
  /-- another call for the kind has its turn -/
  | turn {t : Ticket} {slot : Slot} {d : CallId} (h : s.call c = .queued t)
    (hkind : t.query.gvk = g) (hslot : s.slotFor g = some slot) (hholder : slot.holder = some d)
    (hother : d ≠ c) (hlive : (s.call d).kind? = some g)
  /-- the relist of a watcher of the resource that serves the kind has not come -/
  | relist {t : Ticket} {w : WatcherId} {deadline : Option Nat} {r : Resource}
    {watcher : Watcher} (h : s.call c = .syncing t w deadline) (hkind : r.gvk = g)
    (hreplies : replies = granted r) (hget : s.watchers[w]? = some watcher)
    (hname : watcher.resource.streamName = r.streamName)
    (hstatus : watcher.syncStatus s.shutdown = .waiting)
    (hdeadline : deadline.any (· ≤ s.now) = false)

/-- A search that would get no further now waits for its own kind. In all other points of a
search there is a leg that can be done at once, so only the wait for the turn and the wait
for the relist are left. -/
theorem waitsFor_of_not_ready {replies : List Reply} {fates : List Fate} (h : Orderly s)
    (hstage : Stage s c replies fates) (hkind : (s.call c).kind? = some g)
    (hnot : s.callReady c = false) : WaitsFor s c g replies := by
  cases hstage with
  | unborn hlt =>
    rw [call_of_unborn hlt] at hkind
    cases hkind
  | fresh hcall =>
    simp [callReady, hcall] at hnot
  | @queued t hcall =>
    have ht : (s.call c).ticket? = some t := by rw [hcall]; rfl
    obtain ⟨slot, hslot, hget, hmem⟩ := h.exists_slotFor ht
    obtain rfl : t.query.gvk = g := by
      rw [hcall] at hkind
      exact Option.some.inj hkind
    have hturn : ¬ slot.holder = some c := by
      intro hholder
      simp [callReady, hcall, (h.hasTurn_iff ht hslot).mpr hholder] at hnot
    rcases hholder : slot.holder with _ | d
    · -- without a holder nobody would be in the slot
      rw [Slot.members, hholder, (h.queues.sound t.slot slot hget).served hholder] at hmem
      cases hmem
    · have hd : d ∈ slot.members := by
        rw [Slot.members, hholder]
        exact List.mem_cons_self
      obtain ⟨u, hu, hsame⟩ := (h.mem_slotFor hslot).mp hd
      refine .turn hcall rfl hslot hholder (fun e => hturn (e ▸ hholder)) ?_
      rw [Call.kind?, errand?_of_ticket hu]
      exact congrArg some hsame
  | resolving hcall => simp [callReady, hcall] at hnot
  | probing hlen hsame hcall => simp [callReady, hcall] at hnot
  | @syncing t w deadline r watcher hsame hcall hget hname =>
    simp only [callReady, hcall, Bool.or_eq_false_iff, syncSettled, hget] at hnot
    obtain ⟨hsettled, hdeadline⟩ := hnot
    refine .relist hcall ?_ rfl hget hname ?_ hdeadline
    · rw [hcall] at hkind
      exact hsame.trans (Option.some.inj hkind)
    · simpa using hsettled
  | closed hborn hcall hclosed =>
    rw [Call.kind?, hcall] at hkind
    cases hkind

end

end Cache

end KindCache
