import KindCache.Proofs.Cache.Excerpt

/-!
# Moves side by side

A move that is kept does the same in a cache and in what is kept of it.

* `Excerpt.conclude`, `Excerpt.await` — the use of a watcher, and its relist;
* `Paired.advance`, `Paired.cancel` — a leg of a call, and a call that is dropped;
* `Cut.rename`, `Paired.perform` — all moves.
-/

namespace KindCache

namespace Cache

section

variable {K : Cut} {s s' : Cache} {c : CallId} {w : WatcherId}

/-! ## Using a watcher -/

/-- The outcome of a read names no watcher, so it is the same under all numbers. -/
theorem rename_readOutcome (f : WatcherId → WatcherId) (counted : Bool) (q : Query)
    (name : String) (retries : Nat) (result : Except CacheError Document) :
    (readOutcome counted q name retries result).rename f =
      readOutcome counted q name retries result := by
  rcases result with e | d
  · rfl
  · simp only [readOutcome]
    split
    · rfl
    · split <;> rfl

namespace Excerpt

/-- A look at a kept watcher finds the same in both. -/
theorem readOnce (h : Excerpt K s s') (hw : K.watcher w = true) (q : Query) (name : String) :
    s'.readOnce q name (K.watcherNo w) = s.readOnce q name w := by
  rw [Cache.readOnce, Cache.readOnce, h.watcher hw]

theorem readTries (h : Excerpt K s s') : s'.readTries = s.readTries := by
  rw [Cache.readTries, Cache.readTries, h.settings]

/-- A read ends in both. What is counted does not matter: the count of retries is one for
all calls, also those that are left out. -/
theorem completeRead (h : Excerpt K s s') (hc : K.call c = true) {outcome : Outcome}
    (hsame : outcome.rename K.watcherNo = outcome) (meters meters' : Meters) :
    Excerpt K (Cache.complete { s with meters } c outcome)
      (Cache.complete { s' with meters := meters' } (K.callNo c) outcome) := by
  have hmeters : Excerpt K { s with meters } { s' with meters := meters' } := { h with }
  have hdone := hmeters.complete hc outcome
  rw [hsame] at hdone
  exact hdone

/-- A try to read does the same in both, as both have the same watcher, settings and time.
If a pause follows, it ends at the same moment. -/
theorem tryRead (h : Excerpt K s s') (hc : K.call c = true) (hw : K.watcher w = true)
    (counted : Bool) (q : Query) (name : String) (tries : Nat) :
    Excerpt K (s.tryRead c counted q name w tries)
      (s'.tryRead (K.callNo c) counted q name (K.watcherNo w) tries) := by
  simp only [Cache.tryRead]
  rw [h.readTries, h.readOnce hw]
  split
  · rw [h.settings, h.now]
    exact h.setCall hc (.pausing ..)
  · exact h.completeRead hc (rename_readOutcome ..) _ _

/-- The same is done with the same answer. That the answer is on the side of the call is
needed where its watcher is looked at. -/
theorem conclude (h : Excerpt K s s') (hc : K.call c = true) (use : Use) (q : Query)
    {answer : Except CacheError WatcherId} (hw : ∀ w, answer = .ok w → K.watcher w = K.call c) :
    Excerpt K (s.conclude c use q (some answer))
      (s'.conclude (K.callNo c) use q (some (answer.map K.watcherNo))) := by
  rcases answer with e | w
  · show Excerpt K (s.giveUp c use q e) (s'.giveUp (K.callNo c) use q e)
    cases use <;> exact h.complete hc _
  · show Excerpt K (s.serve c use q w) (s'.serve (K.callNo c) use q (K.watcherNo w))
    have hkept : K.watcher w = true := (hw w rfl).trans hc
    cases use with
    | handOut => exact h.complete hc (.watcher w)
    | subscribe name => exact (h.modifyWatcher hkept _).complete hc .done
    | list =>
      simp only [serve, h.watcher hkept]
      split <;> exact h.complete hc (.documents _)
    | get counted =>
      simp only [serve]
      split
      · exact h.tryRead hc hkept ..
      · exact h.complete hc .done

theorem await (h : Excerpt K s s') (hc : K.call c = true) (hw : K.watcher w = true) :
    Excerpt K (s.await c w) (s'.await (K.callNo c) (K.watcherNo w)) := by
  simp only [Cache.await, h.watcher hw, h.shutdown]
  split
  · exact h.complete hc (.failed .shuttingDown)
  · split
    · exact h.complete hc .done
    · exact h.complete hc (.failed _)
    · exact h.setCall hc (.waiting w)

end Excerpt

/-! ## Calls -/

/-- Calls at the same point have shares in the same slots, if in any. -/
theorem Similar.ticket {f : WatcherId → WatcherId} {call call' : Call}
    (h : Similar f call call') : (call.ticket? = none ∧ call'.ticket? = none) ∨
      ∃ t t', call.ticket? = some t ∧ call'.ticket? = some t' ∧ Twin t t' := by
  cases h with
  | fresh | pausing | waiting | ended => exact .inl ⟨rfl, rfl⟩
  | queued htwin | resolving htwin | probing htwin | syncing htwin =>
    exact .inr ⟨_, _, rfl, rfl, htwin⟩

variable {listing : List Resource}

namespace Paired

/-- The search and its end, one after the other. What has to be known of the watchers is
asked for after both, and holds in between because watchers stay. -/
theorem proceed (h : Paired K listing s s') (hc : K.call c = true) (use : Use) (q : Query)
    (hwatches : K.Watches (s.proceed c use q)) :
    Excerpt K (s.proceed c use q) (s'.proceed (K.callNo c) use q) := by
  simp only [Cache.proceed] at hwatches ⊢
  have hanswer : ∀ w, K.Watches (s.current c).1 → (s.current c).2 = some (.ok w) →
      K.watcher w = K.call c := fun _ => h.parts.answer h.streams
  have hfollows := h.current hc
  rcases hleg : s.current c with ⟨s₁, _ | answer⟩
  · rw [hleg] at hwatches hfollows
    obtain ⟨he, hnone⟩ := hfollows hwatches
    rw [hnone]
    exact he
  · rw [hleg] at hwatches hfollows hanswer
    have hbefore : K.Watches s₁ := Cut.Watches.of_conclude hwatches
    obtain ⟨he, hsame⟩ := hfollows hbefore
    rw [hsame]
    exact he.conclude hc use q fun w hw => hanswer w hbefore (congrArg some hw)

/-- A leg of a call does the same in both. Two calls at the same point take the same branch,
since the branch is chosen by the point, the time and the watcher. -/
theorem advance (h : Paired K listing s s') (hc : K.call c = true)
    (hwatches : K.Watches (s.advance c)) :
    Excerpt K (s.advance c) (s'.advance (K.callNo c)) := by
  have hsimilar := h.excerpt.call hc
  have hfits := h.parts.calls c
  have hproceed := h.proceed hc
  simp only [Cache.advance] at hwatches ⊢
  generalize s.call c = point at hsimilar hfits hwatches ⊢
  generalize s'.call (K.callNo c) = point' at hsimilar ⊢
  cases hsimilar with
  | fresh request =>
    cases request with
    | sync w => exact h.excerpt.await hc (hfits.symm.trans hc)
    | use use q =>
      dsimp only [Request.rename] at hwatches ⊢
      split at hwatches
      · next hlacks =>
        rw [if_pos hlacks, if_pos hlacks]
        exact h.excerpt.complete hc (.failed _)
      · next hlacks =>
        rw [if_neg hlacks, if_neg hlacks]
        exact hproceed use q hwatches
  | queued htwin | resolving htwin | probing htwin | syncing htwin =>
    dsimp only
    rw [htwin.use, htwin.query]
    exact hproceed _ _ hwatches
  | pausing counted q name w tries wake =>
    dsimp only
    rw [h.excerpt.now]
    split
    · exact h.excerpt.tryRead hc (hfits.symm.trans hc) counted q name tries
    · exact h.excerpt
  | waiting w => exact h.excerpt.await hc (hfits.symm.trans hc)
  | ended => exact h.excerpt

/-- A call that is dropped is dropped in both. In the slot it is told from the others by its
number on either side. -/
theorem cancel (h : Paired K listing s s') (hc : K.call c = true) :
    Excerpt K (s.cancel c) (s'.cancel (K.callNo c)) := by
  rcases (h.excerpt.call hc).ticket with ⟨hnone, hnone'⟩ | ⟨t, t', ht, ht', htwin⟩
  · simp only [Cache.cancel, slot?_eq_none hnone, slot?_eq_none hnone']
    exact h.excerpt.setCall hc .ended
  · simp only [Cache.cancel, slot?_of_ticket ht, slot?_of_ticket ht']
    have hslots := h.orderly.slotFor_dropFromSlot ht
    have hslots' := h.orderly'.slotFor_dropFromSlot ht'
    refine { h.excerpt.setCall hc .ended with slots := fun k hk => ?_ }
    show (s'.dropFromSlot (K.callNo c) t'.slot).slotFor k =
      ((s.dropFromSlot c t.slot).slotFor k).map (Slot.rename K.callNo)
    rw [hslots, hslots', h.excerpt.slots k hk, htwin.query]
    split
    · rcases hslot : s.slotFor k with _ | slot
      · rfl
      · have hapart := h.parts.callNo_inj h.orderly hslot hk hc
        exact congrArg some (Slot.rename_without hapart).symm
    · rfl

end Paired

/-! ## All moves -/

/-- A move under the numbers of what is kept. -/
def Cut.rename (K : Cut) : Move → Move
  | .submit request => .submit (request.rename K.watcherNo)
  | .advance c => .advance (K.callNo c)
  | .cancel c => .cancel (K.callNo c)
  | .watch w m => .watch (K.watcherNo w) m
  | .gauge w => .gauge (K.watcherNo w)
  | .watcherFor r => .watcherFor r
  | .standalone r cap => .standalone r cap
  | .shutDown => .shutDown
  | .tick => .tick
  | .program f => .program f

namespace Paired

/-- **A move that is kept does the same in both.** A change of the cluster must not depend
on what was counted, as the two clusters were not asked the same number of questions. -/
theorem perform (h : Paired K listing s s') {m : Move} (hm : K.keeps m = true)
    (hnumbers : K.Numbers s m) (hblind : m.Blind) (hwatches : K.Watches (s.perform m)) :
    Excerpt K (s.perform m) (s'.perform (K.rename m)) := by
  have he := h.excerpt
  cases m with
  | submit request =>
    have hc : K.call s.calls.length = true := (hnumbers request rfl).trans hm
    exact { he with calls := he.calls.snoc hc (.fresh request) }
  | advance c => exact h.advance hm hwatches
  | cancel c => exact h.cancel hm
  | watch w m => exact he.modifyWatcher hm _
  | gauge w =>
    obtain ⟨meters, heq⟩ := s.gaugeOf_eq w
    obtain ⟨meters', heq'⟩ := s'.gaugeOf_eq (K.watcherNo w)
    simp only [Cache.perform, Cut.rename, heq, heq']
    exact { he with }
  | watcherFor r => exact (he.watcherFor h.streams hm hwatches).1
  | standalone r cap =>
    have hnew := Cut.Watches.of_standalone hwatches
    exact he.spawn (hnew.trans hm) r cap false
  | shutDown =>
    refine { he with shutdown := rfl, watchers := he.watchers.map ?_ }
    rintro a a' rfl
    rfl
  | tick => exact { he with now := congrArg (· + 1) he.now }
  | program f => exact { he with cluster := hblind.counts _ _ he.cluster }

end Paired

end

end Cache

end KindCache
