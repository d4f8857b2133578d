import KindCache.Proofs.Cache.Listing
import KindCache.Proofs.Cache.OneStream
import KindCache.Proofs.Cache.Thinning

/-!
# Keeping some kinds

Some kinds are kept of a cache, and with them the calls for them and the watchers of their
streams. Over a cluster that always lists the same, everything in a cache belongs to
what is kept or to what is left out, and the two have nothing to do with each other.

* `Cut`, `Cut.keeps` — what is kept, and which moves belong to it;
* `Cut.Fits`, `Parts` — calls, watchers and marked kinds belong to one side;
* `Parts.answer` — so does the watcher that a search is answered with;
* `Parts.perform` — every move leaves it so.
-/

namespace KindCache

namespace Cache

/-- What is kept of a cache, of each sort of thing that has a name or a number. The four do
not have to agree by themselves; that they do in a state is `Parts`. -/
structure Cut where
  /-- the kinds -/
  kind : GroupVersionKind → Bool
  /-- the stream names -/
  stream : String → Bool
  /-- the calls -/
  call : CallId → Bool
  /-- the watchers -/
  watcher : WatcherId → Bool

namespace Cut

variable (K : Cut)

/-- Whether a request is for what is kept. -/
def asks : Request → Bool
  | .use _ q => K.kind q.gvk
  | .sync w => K.watcher w

/-- A call stands at a point that belongs to its side. -/
def Fits (c : CallId) : Call → Prop
  | .fresh request => K.call c = K.asks request
  | .queued t => K.call c = K.kind t.query.gvk
  | .resolving t => K.call c = K.kind t.query.gvk
  | .probing t r _ _ =>
    K.call c = K.kind t.query.gvk ∧ K.stream r.streamName = K.kind t.query.gvk
  | .syncing t w _ => K.call c = K.kind t.query.gvk ∧ K.watcher w = K.kind t.query.gvk
  | .pausing _ _ _ w _ _ => K.call c = K.watcher w
  | .waiting w => K.call c = K.watcher w
  | .over => True

/-- Watchers are kept by their stream names. -/
def Watches (s : Cache) : Prop :=
  ∀ (w : WatcherId) (watcher : Watcher), s.watchers[w]? = some watcher →
    K.watcher w = K.stream watcher.resource.streamName

/-- The resources of a listing belong to the same side as their kinds. -/
def Splits (listing : List Resource) : Prop :=
  ∀ g r, served listing g = some r → K.stream r.streamName = K.kind g

/-- Whether a move belongs to what is kept. Time, shutdown and the cluster belong to both
sides. -/
def keeps : Move → Bool
  | .submit request => K.asks request
  | .advance c => K.call c
  | .cancel c => K.call c
  | .watch w _ => K.watcher w
  | .gauge w => K.watcher w
  | .watcherFor r => K.stream r.streamName
  | .standalone r _ => K.stream r.streamName
  | .shutDown => true
  | .tick => true
  | .program _ => true

/-- A call that is made belongs to the side of its request. -/
def Numbers (s : Cache) (m : Move) : Prop :=
  ∀ request, m = .submit request → K.call s.calls.length = K.asks request

end Cut

/-- Everything in a cache belongs to one side: its watchers by their streams, marked kinds
by their stream names, and calls by what they are for. -/
structure Parts (K : Cut) (s : Cache) : Prop where
  watches : K.Watches s
  seen : ∀ g name, s.seen.lookup g = some name → K.stream name = K.kind g
  calls : ∀ c, K.Fits c (s.call c)

section

variable {K : Cut} {s s' s₁ : Cache} {c d : CallId} {t : Ticket} {w : WatcherId}
  {r : Resource} {listing : List Resource}

/-! ## Which side -/

/-- A call with a ticket is on the side of the kind that the ticket is for, at whatever
point of the search it stands. -/
theorem Cut.Fits.of_ticket {call : Call} (h : K.Fits c call) (ht : call.ticket? = some t) :
    K.call c = K.kind t.query.gvk := by
  cases call with
  | queued | resolving =>
    obtain rfl := Option.some.inj ht
    exact h
  | probing | syncing =>
    obtain rfl := Option.some.inj ht
    exact h.1
  | _ => cases ht

/-- A call that is set to a fitting point stands at one. If the number is that of no call it
stands at none, which fits as well. -/
theorem Cut.Fits.setCall {point : Call} (h : K.Fits c point) :
    K.Fits c ((s.setCall c point).call c) := by
  have hcalls : (s.setCall c point).calls = s.calls.set c point := rfl
  rcases call_of_set_self hcalls with hself | hself
  · rw [hself]
    exact h
  · rw [hself]
    trivial

/-- The watchers of an earlier state are kept if they are later, because they are still
there and keep their resources. So it is enough to ask for the division at the end of a
run. -/
theorem Cut.Watches.before (h : K.Watches s') (hgrows : Grows s.watchers s'.watchers) :
    K.Watches s := by
  intro w watcher hget
  obtain ⟨watcher', hget', hlater⟩ := hgrows.later hget
  rw [h w watcher' hget', hlater.resource]

theorem Cut.Watches.of_leaveSlot (h : K.Watches (s.leaveSlot t)) : K.Watches s := by
  intro w watcher hget
  refine h w watcher ?_
  rw [leaveSlot_watchers]
  exact hget

theorem Cut.Watches.of_conclude {use : Use} {q : Query} {answer : Except CacheError WatcherId}
    (h : K.Watches (s.conclude c use q (some answer))) : K.Watches s :=
  h.before (.of_evolves (conclude_ends s c use q answer).evolves)

/-- A watcher beside the cache belongs to the side of its stream. -/
theorem Cut.Watches.of_standalone {cap : Nat} (h : K.Watches (s.standalone r cap).1) :
    K.watcher s.watchers.length = K.stream r.streamName := by
  obtain ⟨cluster, watcher, heq, hresource, -⟩ := s.spawn_eq r cap false
  rw [standalone, heq] at h
  rw [h _ watcher (List.getElem?_concat_length ..), hresource]

/-- A new cache holds nothing. -/
theorem parts_starting (K : Cut) (cluster : Cluster) (settings : Settings) :
    Parts K (starting cluster settings) := by
  refine ⟨?_, ?_, fun c => trivial⟩
  · intro w watcher hget
    cases hget
  · intro g name hname
    cases hname

namespace Parts

/-- The watcher that is known for a kind belongs to the side of the kind. The mark of the
kind names the stream, and the table has a watcher of that name. -/
theorem known (h : Parts K s) (hs : Streams s) {g : GroupVersionKind}
    (hw : s.seenWatcher? g = some w) : K.watcher w = K.kind g := by
  obtain ⟨name, hname, hlookup, -⟩ := seenWatcher?_eq_some.mp hw
  obtain ⟨watcher, hget, -, hserves⟩ := hs.tabled name w hlookup
  rw [h.watches w watcher hget, hserves, h.seen g name hname]

/-- So does the watcher whose relist is awaited: if it is opened in this leg, by the
resource that the call has at hand, and otherwise by the point of the call. -/
theorem awaited (h : Parts K s) (hs : Streams s) (ha : Awaits s c t w s₁)
    (hwatches : K.Watches s₁) : K.watcher w = K.kind t.query.gvk := by
  cases ha with
  | opening hcall =>
    have hfits := h.calls c
    rw [hcall] at hfits
    obtain ⟨-, watcher, hget, -⟩ := hs.watcherFor _
    rw [hwatches _ watcher hget, streamName_watcherFor hs hget]
    exact hfits.2
  | waiting hcall =>
    have hfits := h.calls c
    rw [hcall] at hfits
    exact hfits.2

theorem of_starting (h : Parts K s) (ht : (s.call c).starting? = some t) :
    K.call c = K.kind t.query.gvk :=
  (h.calls c).of_ticket (ticket?_of_starting ht)

/-- **A search is answered with a watcher of its own side.** All ways to an answer lead
through the mark of the kind or through the relist that the call itself has awaited. -/
theorem answer (h : Parts K s) (hs : Streams s) (hwatches : K.Watches (s.current c).1)
    (hw : (s.current c).2 = some (.ok w)) : K.watcher w = K.call c := by
  have hleads := s.current_leads c
  generalize hleg : s.current c = leg at hleads hw hwatches
  cases hleads with
  | found hcall hknown =>
    obtain rfl := Except.ok.inj (Option.some.inj hw)
    have hfits := h.calls c
    rw [hcall] at hfits
    exact (h.known hs hknown).trans hfits.symm
  | shared hcall hturn hknown =>
    obtain rfl := Except.ok.inj (Option.some.inj hw)
    have hfits := h.calls c
    rw [hcall] at hfits
    exact (h.known hs hknown).trans hfits.symm
  | @succeeded t v s₁ watcher ha hget hsynced =>
    obtain rfl := Except.ok.inj (Option.some.inj hw)
    have hmarked : K.Watches (s₁.markSeen _ _) := Cut.Watches.of_leaveSlot hwatches
    have hbefore : K.Watches s₁ := hmarked
    rw [h.awaited hs ha hbefore, h.of_starting ha.starting]
  | refused | failed | expired => cases hw
  | resting | joined | begun | resolved | reviewed | waited => cases hw

/-- A kind is found to be served by a resource of its side. This is where the listing comes
in: what the registry says is what the one listing says. -/
theorem resolving (h : Parts K s) (hknows : s.Knows listing) (hsplits : K.Splits listing)
    (hcall : s.call c = .resolving t) : K.Fits c ((s.current c).1.call c) := by
  have hfits := h.calls c
  rw [hcall] at hfits
  have hresult := (hknows.resolveKind t.query.gvk).2
  rcases hserved : served listing t.query.gvk with _ | r
  · rw [hserved] at hresult
    have hsame : ((s.resolveKind t.query.gvk).1.leaveSlot t).call c = s.call c := by
      rw [call, leaveSlot_calls]
      rfl
    rw [current_unresolved hcall hresult, leave, hsame]
    exact h.calls c
  · rw [hserved] at hresult
    rw [current_resolved hcall hresult]
    exact Cut.Fits.setCall ⟨hfits, hsplits _ r hserved⟩

/-- A leg of a search stays on its side. -/
theorem onward (h : Parts K s) (hs : Streams s) (hknows : s.Knows listing)
    (hsplits : K.Splits listing) (hwatches : K.Watches (s.current c).1) :
    K.Fits c ((s.current c).1.call c) := by
  have hfits := h.calls c
  have hfound := fun t => h.resolving (c := c) (t := t) hknows hsplits
  have hstays : ∀ {s₁ : Cache} (t : Ticket), s₁.calls = s.calls →
      K.Fits c ((s₁.leaveSlot t).call c) := by
    intro s₁ t hcalls
    rw [call, leaveSlot_calls, hcalls]
    exact hfits
  have hleads := s.current_leads c
  generalize s.current c = leg at hleads hwatches hfound ⊢
  cases hleads with
  | resting | found | refused => exact hfits
  | @joined use q hcall hw =>
    rw [hcall] at hfits
    obtain ⟨slots, slotOf, i, heq⟩ := s.enqueue_eq c use q
    rw [heq]
    exact Cut.Fits.setCall (s := { s with slots, slotOf }) hfits
  | shared => exact hstays _ rfl
  | begun hcall =>
    rw [hcall] at hfits
    exact Cut.Fits.setCall hfits
  | resolved hcall => exact hfound _ hcall
  | reviewed hcall =>
    rw [hcall] at hfits
    exact Cut.Fits.setCall hfits
  | waited ha =>
    exact Cut.Fits.setCall ⟨h.of_starting ha.starting, h.awaited hs ha hwatches⟩
  | failed hcall hs' => exact hstays _ hs'.apart.calls
  | expired ha => exact hstays _ ha.apart.calls
  | succeeded ha => exact hstays _ ha.apart.calls

/-- It marks a kind of its side, with the name of a stream of that side. -/
theorem marked (h : Parts K s) (hs : Streams s) (hwatches : K.Watches (s.current c).1)
    {g : GroupVersionKind} {name : String}
    (hname : (s.current c).1.seen.lookup g = some name) : K.stream name = K.kind g := by
  have hleads := s.current_leads c
  generalize s.current c = leg at hleads hwatches hname
  cases hleads with
  | resting | found | refused | begun => exact h.seen g name hname
  | @joined use q hcall hw =>
    obtain ⟨slots, slotOf, i, heq⟩ := s.enqueue_eq c use q
    rw [heq] at hname
    exact h.seen g name hname
  | shared =>
    rw [leave, leaveSlot_seen] at hname
    exact h.seen g name hname
  | resolved hcall hs' | reviewed hcall hs' =>
    obtain ⟨cluster, registry, meters⟩ := hs'
    exact h.seen g name hname
  | waited ha => exact h.seen g name (ha.seen ▸ hname)
  | failed hcall hs' =>
    rw [leave, leaveSlot_seen, hs'.seen] at hname
    exact h.seen g name hname
  | expired ha =>
    rw [leave, leaveSlot_seen, ha.seen] at hname
    exact h.seen g name hname
  | @succeeded t w s₁ watcher ha hget hsynced =>
    have hmarked : K.Watches (s₁.markSeen _ _) := Cut.Watches.of_leaveSlot hwatches
    have hbefore : K.Watches s₁ := hmarked
    rw [leave, leaveSlot_seen] at hname
    change (Table.put _ _ s₁.seen).lookup g = some name at hname
    rw [Table.lookup_put, ha.seen] at hname
    split at hname
    · next hkind =>
      obtain rfl := Option.some.inj hname
      rw [← hbefore w watcher hget, h.awaited hs ha hbefore, hkind]
    · exact h.seen g name hname

theorem current (h : Parts K s) (hs : Streams s) (hknows : s.Knows listing)
    (hsplits : K.Splits listing) (hwatches : K.Watches (s.current c).1) :
    Parts K (s.current c).1 := by
  refine ⟨hwatches, fun g name => h.marked hs hwatches, ?_⟩
  intro d
  by_cases hd : d = c
  · rw [hd]
    exact h.onward hs hknows hsplits hwatches
  · rw [(s.current_leads c).call_other hd]
    exact h.calls d

/-- The end of a search stays on its side if the point does that the call gets to.
Everything else that `Ends` allows to change has no side. -/
theorem ends (h : Parts K s) (hs' : Ends s c s') (hwatches : K.Watches s')
    (hself : K.Fits c (s'.call c)) : Parts K s' := by
  refine ⟨hwatches, ?_, ?_⟩
  · rw [hs'.seen]
    exact h.seen
  · intro d
    by_cases hd : d = c
    · rw [hd]
      exact hself
    · rw [hs'.call_other hd]
      exact h.calls d

end Parts

/-! ## What is done with a watcher -/

/-- A call that is over fits on either side. -/
theorem Cut.fits_complete (s : Cache) (c : CallId) (outcome : Outcome) :
    K.Fits c ((s.complete c outcome).call c) := by
  have hover : K.Fits c .over := trivial
  exact hover.setCall (s := s)

/-- A pause between tries remembers the watcher, so this has to be on the side of the
call. -/
theorem Cut.Fits.tryRead {counted : Bool} {q : Query} {name : String}
    (hw : K.call c = K.watcher w) (tries : Nat) :
    K.Fits c ((s.tryRead c counted q name w tries).call c) := by
  simp only [Cache.tryRead]
  split
  · exact Cut.Fits.setCall hw
  · exact K.fits_complete ..

/-- Whatever is done with an answer leaves the call at a point of its side. Only a read can
go on afterwards, and then it holds on to the watcher. -/
theorem Cut.Fits.conclude (use : Use) (q : Query)
    {answer : Except CacheError WatcherId} (hw : ∀ w, answer = .ok w → K.call c = K.watcher w) :
    K.Fits c ((s.conclude c use q (some answer)).call c) := by
  rcases answer with e | w
  · show K.Fits c ((s.giveUp c use q e).call c)
    cases use <;> exact K.fits_complete ..
  · show K.Fits c ((s.serve c use q w).call c)
    cases use with
    | handOut | subscribe => exact K.fits_complete ..
    | list =>
      simp only [serve]
      split <;> exact K.fits_complete ..
    | get counted =>
      simp only [serve]
      split
      · exact Cut.Fits.tryRead (hw w rfl) 0
      · exact K.fits_complete ..

theorem Cut.Fits.await (hw : K.call c = K.watcher w) :
    K.Fits c ((s.await c w).call c) := by
  simp only [Cache.await]
  split
  · exact K.fits_complete ..
  · split
    · exact K.fits_complete ..
    · exact K.fits_complete ..
    · exact Cut.Fits.setCall hw

/-! ## All moves -/

namespace Parts

theorem proceed (h : Parts K s) (hs : Streams s) (hknows : s.Knows listing)
    (hsplits : K.Splits listing) {use : Use} {q : Query}
    (hwatches : K.Watches (s.proceed c use q)) : Parts K (s.proceed c use q) := by
  simp only [Cache.proceed] at hwatches ⊢
  have hleg := h.current (c := c) hs hknows hsplits
  have hanswer := fun w => h.answer (c := c) (w := w) hs
  rcases heq : s.current c with ⟨s₁, _ | answer⟩
  · rw [heq] at hwatches hleg
    exact hleg hwatches
  · rw [heq] at hwatches hleg hanswer
    have hbefore : K.Watches s₁ := Cut.Watches.of_conclude hwatches
    refine (hleg hbefore).ends (conclude_ends s₁ c use q answer) hwatches ?_
    refine Cut.Fits.conclude use q fun w hw => ?_
    exact (hanswer w hbefore (congrArg some hw)).symm

/-- A leg of any call leaves everything on its side. -/
theorem advance (h : Parts K s) (hs : Streams s) (hknows : s.Knows listing)
    (hsplits : K.Splits listing) (c : CallId) (hwatches : K.Watches (s.advance c)) :
    Parts K (s.advance c) := by
  have hfits := h.calls c
  have hproceed : ∀ use q, K.Watches (s.proceed c use q) → Parts K (s.proceed c use q) :=
    fun _ _ hw => h.proceed hs hknows hsplits hw
  simp only [Cache.advance] at hwatches ⊢
  split at hwatches
  · next w hcall =>
    rw [hcall] at hfits
    exact h.ends (await_ends s c w) hwatches (Cut.Fits.await hfits)
  · next use q hcall =>
    split at hwatches
    · next hlacks =>
      rw [if_pos hlacks]
      exact h.ends (complete_ends s c _) hwatches (K.fits_complete ..)
    · next hlacks =>
      rw [if_neg hlacks]
      exact hproceed use q hwatches
  · exact hproceed _ _ hwatches
  · exact hproceed _ _ hwatches
  · exact hproceed _ _ hwatches
  · exact hproceed _ _ hwatches
  · next counted q name w tries wake hcall =>
    have hw : K.call c = K.watcher w := by
      rw [hcall] at hfits
      exact hfits
    split at hwatches
    · next hwake =>
      rw [if_pos hwake]
      exact h.ends (tryRead_ends s c counted q name w tries) hwatches (Cut.Fits.tryRead hw tries)
    · next hwake =>
      rw [if_neg hwake]
      exact h
  · next w hcall =>
    rw [hcall] at hfits
    exact h.ends (await_ends s c w) hwatches (Cut.Fits.await hfits)
  · exact h

/-- Calls and marked kinds stay where they are when something else happens. -/
theorem of_calls (h : Parts K s) (hcalls : ∀ d, K.Fits d (s'.call d))
    (hseen : s'.seen = s.seen) (hwatches : K.Watches s') : Parts K s' := by
  refine ⟨hwatches, ?_, hcalls⟩
  rw [hseen]
  exact h.seen

/-- Every move leaves everything on its side, if the watchers that there are then are on
theirs. A call that is made has to get a number of the side of its request, which is a
matter of how the numbers are chosen. -/
theorem perform (h : Parts K s) (hs : Streams s) (hknows : s.Knows listing)
    (hsplits : K.Splits listing) {m : Move} (hnumbers : K.Numbers s m)
    (hwatches : K.Watches (s.perform m)) : Parts K (s.perform m) := by
  cases m with
  | submit request =>
    refine h.of_calls (fun d => ?_) rfl hwatches
    show K.Fits d ((s.submit request).1.call d)
    rw [call_submit]
    split
    · next hd =>
      rw [hd]
      exact hnumbers request rfl
    · exact h.calls d
  | advance c => exact h.advance hs hknows hsplits c hwatches
  | cancel c =>
    refine h.of_calls (fun d => ?_) ?_ hwatches
    · show K.Fits d ((s.cancel c).call d)
      rw [call_cancel]
      split
      · trivial
      · exact h.calls d
    · obtain ⟨slots, heq⟩ := s.cancel_eq c
      rw [Cache.perform, heq]
  | gauge w =>
    obtain ⟨meters, heq⟩ := s.gaugeOf_eq w
    rw [Cache.perform, heq] at hwatches ⊢
    exact h.of_calls h.calls rfl hwatches
  | watcherFor r =>
    obtain ⟨cluster, watchers, streams, meters, heq⟩ := s.watcherFor_eq r
    rw [Cache.perform, heq] at hwatches ⊢
    exact h.of_calls h.calls rfl hwatches
  | watch | standalone | shutDown | tick | program => exact h.of_calls h.calls rfl hwatches

end Parts

end

end Cache

end KindCache
