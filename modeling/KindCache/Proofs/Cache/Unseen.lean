import KindCache.Proofs.Cache.Cut

/-!
# What is left out is not seen

Moves of what is left out change nothing about what is kept.

* `Unseen` — a change that cannot be seen from what is kept;
* `Parts.unseen_current`, `Unseen.conclude` — the legs of a call that is left out;
* `Parts.unseen_perform` — all moves that are left out.
-/

namespace KindCache

namespace Cache

/-- A change that cannot be seen from what is kept, whatever the cluster was asked. What the
cluster has counted is not part of it, for that changes with every question. -/
structure Unseen (K : Cut) (s s' : Cache) : Prop where
  calls : Keeps K.call s.calls s'.calls
  watchers : Keeps K.watcher s.watchers s'.watchers
  slots : ∀ g, K.kind g = true → s'.slotFor g = s.slotFor g
  streams : ∀ name, K.stream name = true → s'.streams.lookup name = s.streams.lookup name
  seen : ∀ g, K.kind g = true → s'.seen.lookup g = s.seen.lookup g
  log : (s'.log.filter fun done => K.call done.call) = s.log.filter fun done => K.call done.call
  settings : s'.settings = s.settings
  shutdown : s'.shutdown = s.shutdown
  now : s'.now = s.now

section

variable {K : Cut} {s s' s'' s₁ : Cache} {c : CallId} {t : Ticket} {w : WatcherId}
  {r : Resource} {g : GroupVersionKind}

/-! ## Single changes -/

namespace Unseen

theorem refl (K : Cut) (s : Cache) : Unseen K s s :=
  ⟨.refl _ _, .refl _ _, fun _ _ => rfl, fun _ _ => rfl, fun _ _ => rfl, rfl, rfl, rfl, rfl⟩

/-- Such changes add up. -/
theorem trans (h : Unseen K s s') (h' : Unseen K s' s'') : Unseen K s s'' where
  calls := h.calls.trans h'.calls
  watchers := h.watchers.trans h'.watchers
  slots g hg := (h'.slots g hg).trans (h.slots g hg)
  streams name hname := (h'.streams name hname).trans (h.streams name hname)
  seen g hg := (h'.seen g hg).trans (h.seen g hg)
  log := h'.log.trans h.log
  settings := h'.settings.trans h.settings
  shutdown := h'.shutdown.trans h.shutdown
  now := h'.now.trans h.now

/-- A call that is left out may go where it wants. -/
theorem setCall (h : Unseen K s s') (hc : K.call c = false) (point : Call) :
    Unseen K s (s'.setCall c point) :=
  { h with calls := h.calls.trans (.set _ hc point) }

/-- A call that is left out may end. Its end is in the log, but not in what is kept of the
log. -/
theorem complete (h : Unseen K s s') (hc : K.call c = false) (outcome : Outcome) :
    Unseen K s (s'.complete c outcome) := by
  refine { h.setCall hc .over with log := ?_ }
  show (s'.log ++ [_]).filter _ = _
  rw [List.filter_append, h.log]
  simp [hc]

theorem modifyWatcher (h : Unseen K s s') (hw : K.watcher w = false) (f : Watcher → Watcher) :
    Unseen K s (s'.modifyWatcher w f) :=
  { h with watchers := h.watchers.trans (.modify _ hw f) }

theorem asked (h : Unseen K s s') (hs' : Asked s' s'') : Unseen K s s'' := by
  obtain ⟨cluster, registry, meters⟩ := hs'
  exact { h with }

/-- A kind that is left out may be marked. -/
theorem markSeen (h : Unseen K s s') (hg : K.kind g = false) (name : String) :
    Unseen K s (s'.markSeen g name) := by
  refine { h with seen := fun k hk => ?_ }
  show (Table.put g name s'.seen).lookup k = _
  rw [Table.lookup_put, if_neg (ne_of_kept hg hk)]
  exact h.seen k hk

/-- A stream that is left out is opened. The new watcher has a number that no kept watcher
has, and the entry of the table is under a name that is left out. -/
theorem watcherFor (hr : K.stream r.streamName = false)
    (hwatches : K.Watches (s.watcherFor r).1) : Unseen K s (s.watcherFor r).1 := by
  rcases hrun : s.runningStream? r.streamName with _ | w
  · obtain ⟨cluster, watcher, heq, hresource, -⟩ := watcherFor_opened hrun
    rw [heq] at hwatches ⊢
    have hnew := hwatches _ watcher (List.getElem?_concat_length ..)
    rw [hresource, hr] at hnew
    refine { refl K s with watchers := .snoc hnew watcher, streams := fun name hname => ?_ }
    show (Table.put r.streamName s.watchers.length s.streams).lookup name = _
    rw [Table.lookup_put, if_neg (ne_of_kept hr hname)]
  · rw [watcherFor_running hrun]
    exact .refl K s

theorem standalone {cap : Nat} (hr : K.stream r.streamName = false)
    (hwatches : K.Watches (s.standalone r cap).1) : Unseen K s (s.standalone r cap).1 := by
  have hnew := hwatches.of_standalone.trans hr
  obtain ⟨cluster, watcher, heq, -⟩ := s.spawn_eq r cap false
  rw [Cache.standalone, heq]
  exact { refl K s with watchers := .snoc hnew watcher }

/-! ## Slots of other kinds -/

/-- Joining the slot of a kind that is left out leaves the slots of kept kinds as they are,
also when the slot is new. -/
theorem enqueue (h : Lanes s) (hc : K.call c = false) {q : Query}
    (hq : K.kind q.gvk = false) (use : Use) : Unseen K s (s.enqueue c use q) := by
  have hslots := slotFor_enqueue h c use q
  obtain ⟨slots, slotOf, i, heq⟩ := s.enqueue_eq c use q
  rw [heq] at hslots ⊢
  refine { refl K s with calls := .set _ hc _, slots := fun k hk => ?_ }
  rw [hslots, if_neg (ne_of_kept hq hk)]

/-- A call that is left out ends its turn. It is in the slot of its kind, and no kept kind
shares that slot. -/
theorem leaveSlot (h : Unseen K s s₁) (ho : Orderly s) (hs₁ : Apart s s₁)
    (ht : (s.call c).ticket? = some t) (hturn : s.hasTurn c t.slot = true)
    (hkind : K.kind t.query.gvk = false) : Unseen K s (s₁.leaveSlot t) := by
  rw [← hs₁.call] at ht
  rw [← hs₁.hasTurn] at hturn
  have hslots := (ho.apart hs₁).slotFor_leaveSlot ht hturn
  obtain ⟨slots, slotOf, heq⟩ := s₁.leaveSlot_eq t
  rw [heq] at hslots ⊢
  refine { h with slots := fun k hk => ?_ }
  rw [hslots, if_neg (ne_of_kept hkind hk)]
  exact h.slots k hk

theorem dropFromSlot (h : Orderly s) (ht : (s.call c).ticket? = some t)
    (hkind : K.kind t.query.gvk = false) : Unseen K s (s.dropFromSlot c t.slot) := by
  refine { refl K s with slots := fun k hk => ?_ }
  rw [h.slotFor_dropFromSlot ht, if_neg (ne_of_kept hkind hk)]

end Unseen

/-! ## Legs of calls that are left out -/

namespace Parts

/-- What a search is for is left out with it. -/
theorem kind_left (h : Parts K s) (hc : K.call c = false) (ht : (s.call c).ticket? = some t) :
    K.kind t.query.gvk = false := by
  rw [← (h.calls c).of_ticket ht, hc]

/-- The relist that a call awaits is one of a stream that is left out, whether the stream is
opened in this leg or was before. -/
theorem unseen_awaits (h : Parts K s) (hc : K.call c = false) (ha : Awaits s c t w s₁)
    (hwatches : K.Watches s₁) : Unseen K s s₁ := by
  cases ha with
  | @opening r access hcall =>
    have hfits := h.calls c
    rw [hcall] at hfits
    refine .watcherFor ?_ hwatches
    rw [hfits.2, ← hfits.1, hc]
  | waiting => exact .refl K s

/-- A leg of a search that is left out is not seen. The cases are those of `Leads`, and in
each of them what changes belongs to the kind of the call. -/
theorem unseen_current (h : Parts K s) (ho : Orderly s) (hc : K.call c = false)
    (hwatches : K.Watches (s.current c).1) : Unseen K s (s.current c).1 := by
  have hleads := s.current_leads c
  generalize s.current c = leg at hleads hwatches
  cases hleads with
  | resting | found | refused => exact .refl K s
  | @joined use q hcall hw =>
    have hfits := h.calls c
    rw [hcall] at hfits
    exact .enqueue ho.lanes hc (hfits.symm.trans hc) use
  | @shared t w hcall hturn hw =>
    have ht : (s.call c).ticket? = some t := by rw [hcall]; rfl
    exact (Unseen.refl K s).leaveSlot ho ⟨rfl, rfl, rfl⟩ ht hturn (h.kind_left hc ht)
  | begun => exact (Unseen.refl K s).setCall hc _
  | resolved hcall hs' | reviewed hcall hs' => exact ((Unseen.refl K s).asked hs').setCall hc _
  | waited ha => exact (h.unseen_awaits hc ha hwatches).setCall hc _
  | failed hstarting hs' =>
    have ht := ticket?_of_starting hstarting
    exact ((Unseen.refl K s).asked hs').leaveSlot ho hs'.apart ht (ho.turns.holds c _ hstarting)
      (h.kind_left hc ht)
  | @expired t w s₁ e ha =>
    have hbefore : K.Watches s₁ := Cut.Watches.of_leaveSlot hwatches
    have ht := ticket?_of_starting ha.starting
    exact (h.unseen_awaits hc ha hbefore).leaveSlot ho ha.apart ht
      (ho.turns.holds c t ha.starting) (h.kind_left hc ht)
  | @succeeded t w s₁ watcher ha hget hsynced =>
    have hmarked : K.Watches (s₁.markSeen _ _) := Cut.Watches.of_leaveSlot hwatches
    have ht := ticket?_of_starting ha.starting
    have hkind := h.kind_left hc ht
    exact ((h.unseen_awaits hc ha hmarked).markSeen hkind _).leaveSlot ho (ha.apart.markSeen _ _)
      ht (ho.turns.holds c t ha.starting) hkind

end Parts

namespace Unseen

theorem tryRead (hc : K.call c = false) (counted : Bool) (q : Query) (name : String)
    (w : WatcherId) (tries : Nat) : Unseen K s (s.tryRead c counted q name w tries) := by
  simp only [Cache.tryRead]
  split
  · exact (refl K s).setCall hc _
  · have hmeters : ∀ meters, Unseen K s { s with meters } := fun meters => { refl K s with }
    exact (hmeters _).complete hc _

/-- What a call that is left out does with its answer is not seen: the watcher is on the
same side as the call. -/
theorem conclude (hc : K.call c = false) (use : Use) (q : Query)
    {answer : Except CacheError WatcherId}
    (hw : ∀ w, answer = .ok w → K.watcher w = K.call c) :
    Unseen K s (s.conclude c use q (some answer)) := by
  rcases answer with e | w
  · show Unseen K s (s.giveUp c use q e)
    cases use <;> exact (refl K s).complete hc _
  · show Unseen K s (s.serve c use q w)
    cases use with
    | handOut => exact (refl K s).complete hc _
    | subscribe name =>
      exact ((refl K s).modifyWatcher ((hw w rfl).trans hc) _).complete hc _
    | list =>
      simp only [serve]
      split <;> exact (refl K s).complete hc _
    | get counted =>
      simp only [serve]
      split
      · exact tryRead hc ..
      · exact (refl K s).complete hc _

theorem await (hc : K.call c = false) (w : WatcherId) : Unseen K s (s.await c w) := by
  simp only [Cache.await]
  split
  · exact (refl K s).complete hc _
  · split
    · exact (refl K s).complete hc _
    · exact (refl K s).complete hc _
    · exact (refl K s).setCall hc _

end Unseen

/-! ## All moves that are left out -/

namespace Parts

/-- The search and its end, one after the other. -/
theorem unseen_proceed (h : Parts K s) (ho : Orderly s) (hs : Streams s) (hc : K.call c = false)
    {use : Use} {q : Query} (hwatches : K.Watches (s.proceed c use q)) :
    Unseen K s (s.proceed c use q) := by
  simp only [Cache.proceed] at hwatches ⊢
  have hleg := h.unseen_current ho hc
  have hanswer := fun w => h.answer (c := c) (w := w) hs
  rcases heq : s.current c with ⟨s₁, _ | answer⟩
  · rw [heq] at hwatches hleg
    exact hleg hwatches
  · rw [heq] at hwatches hleg hanswer
    have hbefore : K.Watches s₁ := Cut.Watches.of_conclude hwatches
    refine (hleg hbefore).trans (.conclude hc use q fun w hw => ?_)
    exact hanswer w hbefore (congrArg some hw)

theorem unseen_advance (h : Parts K s) (ho : Orderly s) (hs : Streams s)
    (hc : K.call c = false) (hwatches : K.Watches (s.advance c)) : Unseen K s (s.advance c) := by
  have hproceed : ∀ use q, K.Watches (s.proceed c use q) → Unseen K s (s.proceed c use q) :=
    fun _ _ hw => h.unseen_proceed ho hs hc hw
  simp only [Cache.advance] at hwatches ⊢
  split at hwatches
  · exact .await hc _
  · next use q hcall =>
    split at hwatches
    · next hlacks =>
      rw [if_pos hlacks]
      exact (Unseen.refl K s).complete hc _
    · next hlacks =>
      rw [if_neg hlacks]
      exact hproceed use q hwatches
  · exact hproceed _ _ hwatches
  · exact hproceed _ _ hwatches
  · exact hproceed _ _ hwatches
  · exact hproceed _ _ hwatches
  · split
    · exact .tryRead hc ..
    · exact .refl K s
  · exact .await hc _
  · exact .refl K s

/-- To drop a call that is left out is not seen. It goes away from the slot of its own
kind. -/
theorem unseen_cancel (h : Parts K s) (ho : Orderly s) (hc : K.call c = false) :
    Unseen K s (s.cancel c) := by
  simp only [Cache.cancel]
  split
  · next i hslot =>
    obtain ⟨t, ht, rfl⟩ := Option.map_eq_some_iff.mp hslot
    -- whether the call is set aside before or after makes no difference
    exact (Unseen.dropFromSlot ho ht (h.kind_left hc ht)).setCall hc .over
  · exact (Unseen.refl K s).setCall hc .over

/-- **Moves that are left out change nothing about what is kept.** Together with
`Paired.perform` this is what lets such moves be taken out of a run. -/
theorem unseen_perform (h : Parts K s) (ho : Orderly s) (hs : Streams s) {m : Move}
    (hnumbers : K.Numbers s m) (hwatches : K.Watches (s.perform m)) (hm : K.keeps m = false) :
    Unseen K s (s.perform m) := by
  cases m with
  | submit request =>
    have hc := (hnumbers request rfl).trans hm
    exact { Unseen.refl K s with calls := .snoc hc _ }
  | advance c => exact h.unseen_advance ho hs hm hwatches
  | cancel c => exact h.unseen_cancel ho hm
  | watch w m => exact (Unseen.refl K s).modifyWatcher hm _
  | gauge w =>
    obtain ⟨meters, heq⟩ := s.gaugeOf_eq w
    rw [Cache.perform, heq]
    exact { Unseen.refl K s with }
  | watcherFor r => exact .watcherFor hm hwatches
  | standalone r cap => exact .standalone hm hwatches
  | shutDown | tick | program => cases hm

end Parts

end

end Cache

end KindCache
