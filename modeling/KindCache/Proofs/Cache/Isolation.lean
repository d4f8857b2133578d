import KindCache.Proofs.Cache.SideBySide

/-!
# Kinds do not interfere

A search that gets no further waits for its own kind. So calls for other kinds can be left out
of a run, whatever became of them, and the others end as they did.

* `Cut.restrict`, `Excerpt.run` — what is kept of a run leads to what is kept of its state;
* `requests`, `Cut.numbered` — the calls of a run are numbered by their requests;
* `goneStreams`, `Cut.ofRun`, `Excerpt.ofRun` — what is kept of a run when some kinds stay;
* `kinds_isolated` — both parts.
-/

namespace KindCache

/-! ## The streams that go -/

/-- The stream names of the kinds that do not stay. -/
def goneStreams (stays : GroupVersionKind → Bool) (listing : List Resource) : List String :=
  listing.filterMap fun r =>
    if stays r.gvk then none else (served listing r.gvk).map (·.streamName)

/-- A name goes if some kind that goes is served under it. The listing may name one kind
twice, and then its last entry counts, as it does when kinds are resolved. -/
theorem mem_goneStreams {stays : GroupVersionKind → Bool} {listing : List Resource}
    {name : String} : name ∈ goneStreams stays listing ↔
      ∃ g r, stays g = false ∧ served listing g = some r ∧ r.streamName = name := by
  rw [goneStreams, List.mem_filterMap]
  constructor
  · rintro ⟨q, -, hq⟩
    split at hq
    · cases hq
    · next hnot =>
      obtain ⟨r, hr, rfl⟩ := Option.map_eq_some_iff.mp hq
      exact ⟨q.gvk, r, Bool.not_eq_true _ ▸ hnot, hr, rfl⟩
  · rintro ⟨g, r, hnot, hr, rfl⟩
    obtain ⟨hmem, rfl⟩ := served_mem hr
    refine ⟨r, hmem, ?_⟩
    simp [hnot, hr]

namespace Cache

/-! ## Runs side by side -/

/-- What is kept of a run: the moves about kept calls and watchers, under the numbers they
have when the others are not there, and everything that concerns all of them. -/
def Cut.restrict (K : Cut) (moves : List Move) : List Move :=
  (moves.filter K.keeps).map K.rename

/-- Every call of a run belongs to the side of its request. -/
def Cut.Numbered (K : Cut) : Cache → List Move → Prop
  | _, [] => True
  | s, m :: moves => K.Numbers s m ∧ K.Numbered (s.perform m) moves

section

variable {K : Cut} {s s' : Cache} {listing : List Resource} {moves : List Move}

/-- A move that does not look at what the cluster has counted does so under other numbers,
too. -/
theorem Move.Blind.rename {m : Move} (h : m.Blind) : (K.rename m).Blind := by
  cases m with
  | program f => exact h
  | submit | advance | cancel | watch | gauge | watcherFor | standalone | shutDown | tick => trivial

/-- Two reachable caches are paired as soon as the one is an excerpt of the other. The other
fields are invariants of either side. -/
theorem paired_of_reachable (hs : Reachable s) (hs' : Reachable s') (he : Excerpt K s s')
    (hp : Parts K s) (hk : s.Knows listing) (hk' : s'.Knows listing) :
    Paired K listing s s' where
  excerpt := he
  parts := hp
  streams := streams_of_reachable hs
  orderly := orderly_of_reachable hs
  orderly' := orderly_of_reachable hs'
  knows := hk
  knows' := hk'

/-- **What is kept of a run leads to what is kept of its state.** By induction on the run: a
move that is kept does the same on both sides, and one that is left out changes nothing that
is kept. That the watchers are divided is asked for at the end only; watchers never go away,
so it holds at each point before. -/
theorem Excerpt.run (he : Excerpt K s s') (hs : Reachable s) (hs' : Reachable s')
    (hp : Parts K s) (hk : s.Knows listing) (hk' : s'.Knows listing)
    (hsplits : K.Splits listing) (hblind : ∀ m ∈ moves, m.Blind)
    (hnumbered : K.Numbered s moves) (hwatches : K.Watches (s.runMoves moves)) :
    Excerpt K (s.runMoves moves) (s'.runMoves (K.restrict moves)) := by
  induction moves generalizing s s' with
  | nil => exact he
  | cons m moves ih =>
    obtain ⟨hnumbers, hrest⟩ := hnumbered
    have hm : m.Blind := hblind m List.mem_cons_self
    have hblind' : ∀ m ∈ moves, m.Blind := fun m' hm' => hblind m' (List.mem_cons_of_mem _ hm')
    have hafter : K.Watches (s.perform m) := hwatches.before (run_grows _ moves)
    have hp₁ := hp.perform (streams_of_reachable hs) hk hsplits hnumbers hafter
    have hk₁ := hk.perform hm
    rcases hkeeps : K.keeps m with _ | _
    · -- the second cache stays where it is
      have hrestrict : K.restrict (m :: moves) = K.restrict moves := by
        rw [Cut.restrict, List.filter_cons_of_neg (by simp [hkeeps])]
        rfl
      have hunseen := hp.unseen_perform (orderly_of_reachable hs) (streams_of_reachable hs)
        hnumbers hafter hkeeps
      have hcluster : (s.perform m).cluster.uncounted = s.cluster.uncounted := by
        refine perform_cluster ?_ s
        rintro f rfl
        cases hkeeps
      rw [hrestrict]
      exact ih (he.left hunseen hcluster) (hs.perform m) hs' hp₁ hk₁ hk' hblind' hrest hwatches
    · have hrestrict : K.restrict (m :: moves) = K.rename m :: K.restrict moves := by
        rw [Cut.restrict, List.filter_cons_of_pos hkeeps]
        rfl
      have hboth := paired_of_reachable hs hs' he hp hk hk'
      rw [hrestrict]
      exact ih (hboth.perform hkeeps hnumbers hm hafter) (hs.perform m) (hs'.perform _) hp₁ hk₁
        (hk'.perform hm.rename) hblind' hrest hwatches

end

/-! ## What is kept of a run -/

/-- What is asked for by a move. -/
def Move.request? : Move → Option Request
  | .submit request => some request
  | _ => none

/-- What is asked for in a run, in the order of the numbers of the calls. -/
def requests (moves : List Move) : List Request :=
  moves.filterMap Move.request?

/-- Calls are numbered by the requests that have come, whatever became of them. -/
theorem perform_calls_length (s : Cache) (m : Move) :
    (s.perform m).calls.length = s.calls.length + (requests [m]).length := by
  cases m with
  | submit request => exact List.length_append
  | advance c => exact (s.advance_cases c).calls_length
  | cancel c =>
    obtain ⟨slots, heq⟩ := s.cancel_eq c
    rw [perform, heq]
    exact List.length_set
  | gauge w =>
    obtain ⟨meters, heq⟩ := s.gaugeOf_eq w
    rw [perform, heq]
    rfl
  | watcherFor r => exact congrArg List.length (Apart.watcherFor s r).calls
  | watch | standalone | shutDown | tick | program => rfl

/-- Calls are kept with their requests. This is what lets the calls to be kept be chosen by
looking at the moves, before anything is run. -/
theorem Cut.numbered {K : Cut} {s : Cache} {moves : List Move}
    (h : ∀ (i : Nat) (request : Request), (requests moves)[i]? = some request →
      K.call (s.calls.length + i) = K.asks request) : K.Numbered s moves := by
  induction moves generalizing s with
  | nil => trivial
  | cons m moves ih =>
    refine ⟨?_, ih ?_⟩
    · rintro request rfl
      exact h 0 request rfl
    · intro i request hi
      have hsplit : requests (m :: moves) = requests [m] ++ requests moves :=
        List.filterMap_append (l := [m])
      rw [perform_calls_length, Nat.add_assoc]
      refine h _ request ?_
      rw [hsplit, List.getElem?_append_right (Nat.le_add_right ..), Nat.add_sub_cancel_left]
      exact hi

/-- What is asked for in what is kept of a run is what was asked for on behalf of the kinds
that are kept. -/
theorem Cut.requests_restrict (K : Cut) (moves : List Move) : requests (K.restrict moves) =
    ((requests moves).filter K.asks).map (Request.rename K.watcherNo) := by
  rw [requests, requests, restrict, List.filterMap_map, List.filterMap_filter,
    List.filter_filterMap, List.map_filterMap]
  refine List.filterMap_congr ?_
  intro m _
  cases m with
  | submit request =>
    show (if K.asks request = true then _ else none) = ((some request).filter K.asks).map _
    rw [Option.filter_some]
    split <;> rfl
  | _ => exact ite_self none

/-- No call for a kind that is left out is made. So the shorter run really is one in which
these kinds do not occur. -/
theorem Cut.kept_of_restrict (K : Cut) {moves : List Move} {use : Use} {q : Query}
    (h : .use use q ∈ requests (K.restrict moves)) : K.kind q.gvk = true := by
  rw [requests_restrict] at h
  obtain ⟨request, hkept, hsame⟩ := List.mem_map.mp h
  cases request with
  | use use' q' =>
    obtain ⟨-, rfl⟩ := Request.use.inj hsame
    exact (List.mem_filter.mp hkept).2
  | sync w => cases hsame

/-- What is kept when some kinds stay. The streams of the others go, with their watchers and
with the calls for them. The watchers are those at the end of the run, as only then it is
known which streams there are. -/
def Cut.staying (stays : GroupVersionKind → Bool) (listing : List Resource)
    (watchers : List Watcher) (requests : List Request) : Cut :=
  let stream name := !(goneStreams stays listing).contains name
  let K : Cut :=
    { kind := stays
      stream
      watcher := fun w => (watchers[w]?).all fun watcher => stream watcher.resource.streamName
      call := fun _ => true }
  { K with call := fun c => (requests[c]?).all K.asks }

section

variable {stays : GroupVersionKind → Bool} {listing : List Resource} {watchers : List Watcher}
  {moves : List Move}

/-- No stream name belongs to a kind that stays and to one that goes, if their plural names
differ. A name made of group, version and plural name is read back as these three, since
none of them holds a slash. -/
theorem Cut.staying_splits (hplain : ∀ r ∈ listing, r.Plain)
    (hplurals : ∀ g h r q, stays g = true → stays h = false → served listing g = some r →
      served listing h = some q → r.plural ≠ q.plural) :
    (Cut.staying stays listing watchers (requests moves)).Splits listing := by
  intro g r hr
  show (!(goneStreams stays listing).contains r.streamName) = stays g
  rcases hg : stays g with _ | _
  · have hgone : r.streamName ∈ goneStreams stays listing :=
      mem_goneStreams.mpr ⟨g, r, hg, hr, rfl⟩
    simp [hgone]
  · have hstays : r.streamName ∉ goneStreams stays listing := by
      intro hgone
      obtain ⟨h, q, hh, hq, hname⟩ := mem_goneStreams.mp hgone
      have hplainr := hplain r (served_mem hr).1
      have hwire := (hplain q (served_mem hq).1).wire_of_streamName hplainr hname
      simp only [Resource.wire, Prod.mk.injEq] at hwire
      exact hplurals g h r q hg hh hr hq hwire.2.2.symm
    simp [hstays]

/-- Each watcher is on the side of its stream, which is how it was put there. -/
theorem Cut.staying_watches {s : Cache} {requests : List Request} :
    (Cut.staying stays listing s.watchers requests).Watches s := by
  intro w watcher hget
  simp [Cut.staying, hget]

/-- Calls stay with their requests. -/
theorem Cut.staying_call {requests : List Request} {c : CallId} {request : Request}
    (h : requests[c]? = some request) :
    (Cut.staying stays listing watchers requests).call c =
      (Cut.staying stays listing watchers requests).asks request := by
  cases request <;> simp [Cut.staying, Cut.asks, h]

end

/-- What is kept of a run of a new cache when some kinds stay. -/
def Cut.ofRun (stays : GroupVersionKind → Bool) (cluster : Cluster) (settings : Settings)
    (moves : List Move) : Cut :=
  .staying stays cluster.resources ((starting cluster settings).runMoves moves).watchers
    (requests moves)

/-- The calls of the shorter run are those that stay, in the same order. So a statement
about the shorter run can name each of its calls by the call of the longer one. -/
theorem Cut.requests_ofRun (stays : GroupVersionKind → Bool) (cluster : Cluster)
    (settings : Settings) (moves : List Move) :
    Thinned (Cut.ofRun stays cluster settings moves).call
      (fun a a' => a' = a.rename (Cut.ofRun stays cluster settings moves).watcherNo)
      (requests moves) (requests ((Cut.ofRun stays cluster settings moves).restrict moves)) := by
  rw [Cut.requests_restrict]
  exact .filter (fun _ _ => Cut.staying_call) _

/-- It leads to what is kept of the state. The hypotheses are those under which the
cluster treats both runs alike: it always lists the same, and does not act on what it
has counted. -/
theorem Excerpt.ofRun {stays : GroupVersionKind → Bool} {cluster : Cluster}
    (settings : Settings) {moves : List Move} (hfault : cluster.discoveryFault = [])
    (hblind : ∀ m ∈ moves, m.Blind) (hplain : ∀ r ∈ cluster.resources, r.Plain)
    (hplurals : ∀ g h r q, stays g = true → stays h = false →
      served cluster.resources g = some r → served cluster.resources h = some q →
      r.plural ≠ q.plural) :
    Excerpt (Cut.ofRun stays cluster settings moves)
      ((starting cluster settings).runMoves moves)
      ((starting cluster settings).runMoves
        ((Cut.ofRun stays cluster settings moves).restrict moves)) := by
  have hstart : Reachable (starting cluster settings) := reachable_run cluster settings []
  have hknows : (starting cluster settings).Knows cluster.resources :=
    knows_starting rfl hfault settings
  have hnumbered : (Cut.ofRun stays cluster settings moves).Numbered
      (starting cluster settings) moves :=
    Cut.numbered fun i request hi => Cut.staying_call ((Nat.zero_add i).symm ▸ hi)
  exact (excerpt_starting _ cluster settings).run hstart hstart (parts_starting ..) hknows hknows
    (Cut.staying_splits hplain hplurals) hblind hnumbered Cut.staying_watches

/-- The ends of a call. -/
def endsOf (s : Cache) (c : CallId) : List Completion :=
  s.log.filter fun done => done.call = c

/-- An excerpt has the ends of the calls that are kept: the same outcomes at the same times,
in the same order. -/
theorem Excerpt.endsOf {K : Cut} {s s' : Cache} {c : CallId} (h : Excerpt K s s')
    (hc : K.call c = true) : s'.endsOf (K.callNo c) = (s.endsOf c).map K.renumber := by
  rw [Cache.endsOf, Cache.endsOf, h.log, Cut.excerpt, List.filter_map, List.filter_filter]
  congr 1
  refine List.filter_congr ?_
  intro done _
  by_cases hdone : K.call done.call = true
  · simp [hdone, Cut.renumber, rank_inj hdone hc]
  · have hne : done.call ≠ c := by
      intro hsame
      exact hdone (hsame ▸ hc)
    simp [hdone, hne]

/-- In every run, a search that gets no further waits for its own kind: for another call that
has its turn, or for the relist of a watcher of its resource. If the cluster always lists the
same and does not act on what it has counted, the calls for other kinds can be left out of the
run, as far as they have other plural names: each remaining call ends in the same way and at
the same time, or has come as far. -/
theorem kinds_isolated (cluster : Cluster) (settings : Settings) (moves : List Move) :
    (∀ c g, (((starting cluster settings).runMoves moves).call c).kind? = some g →
      ((starting cluster settings).runMoves moves).callReady c = false →
      WaitsFor ((starting cluster settings).runMoves moves) c g
        (heard c (starting cluster settings) moves)) ∧
    ∀ stays : GroupVersionKind → Bool, cluster.discoveryFault = [] →
      (∀ m ∈ moves, m.Blind) → (∀ r ∈ cluster.resources, r.Plain) →
      (∀ g h r q, stays g = true → stays h = false → served cluster.resources g = some r →
        served cluster.resources h = some q → r.plural ≠ q.plural) →
      let K := Cut.ofRun stays cluster settings moves
      let s := (starting cluster settings).runMoves moves
      let s' := (starting cluster settings).runMoves (K.restrict moves)
      (∀ use q, .use use q ∈ requests (K.restrict moves) → stays q.gvk = true) ∧
      s'.log = K.excerpt s.log ∧
      ∀ c use q, (requests moves)[c]? = some (.use use q) → stays q.gvk = true →
        (requests (K.restrict moves))[K.callNo c]? = some (.use use q) ∧
        s'.endsOf (K.callNo c) = (s.endsOf c).map K.renumber ∧
        Similar K.watcherNo (s.call c) (s'.call (K.callNo c)) := by
  refine ⟨fun c g hkind hnot => ?_, fun stays hfault hblind hplain hplurals => ?_⟩
  · exact waitsFor_of_not_ready (orderly_of_reachable (reachable_run ..))
      (stage_of_run cluster settings moves c) hkind hnot
  · intro K s s'
    have he : Excerpt K s s' := Excerpt.ofRun settings hfault hblind hplain hplurals
    have hcalls := Cut.requests_ofRun stays cluster settings moves
    refine ⟨fun use q hmem => K.kept_of_restrict hmem, he.log, ?_⟩
    intro c use q hc hq
    have hkept : K.call c = true := (Cut.staying_call hc).trans hq
    obtain ⟨request, hget, rfl⟩ := hcalls.get c _ hc hkept
    exact ⟨hget, he.endsOf hkept, he.call hkept⟩

/-- The resource of deployments. -/
def deployments : Resource :=
  ⟨⟨"apps", "v1", "Deployment"⟩, "deployments", true⟩

/-- A cluster with one pod, where the relist of deployments does not come. -/
def stuckDeployments : Cluster :=
  (onePod.serve deployments).setHeld "deployments" true

/-- A call for deployments gets stuck and another one behind it, while pods are listed. -/
def crowding : List Move :=
  [.submit (.use .list (.ofKind deployments.gvk)),
    .submit (.use .list (.ofKind Watcher.pods.gvk)),
    .submit (.use .list (.ofKind deployments.gvk))] ++
    search 0 ++ search 1 ++ search 2 ++ [.watch 1 (.batch 1), .advance 1]

/-- Pods only. -/
def Cut.podsOnly : Cut :=
  .ofRun (· = Watcher.pods.gvk) stuckDeployments .standard crowding

/-- Both calls for deployments wait, the one for pods is answered, and so it is alone. -/
theorem kinds_isolated_crowding :
    WaitsFor ((starting stuckDeployments .standard).runMoves crowding) 0 deployments.gvk
      (granted deployments) ∧
    WaitsFor ((starting stuckDeployments .standard).runMoves crowding) 2 deployments.gvk [] ∧
    ((starting stuckDeployments .standard).runMoves crowding).log =
      [⟨1, .documents [Watcher.pod "a" "new"], 0⟩] ∧
    ((starting stuckDeployments .standard).runMoves (Cut.podsOnly.restrict crowding)).log =
      [⟨0, .documents [Watcher.pod "a" "new"], 0⟩] ∧
    (requests (Cut.podsOnly.restrict crowding))[0]? =
      some (.use .list (.ofKind Watcher.pods.gvk)) := by
  obtain ⟨hwaits, hrest⟩ := kinds_isolated stuckDeployments .standard crowding
  have hblind : ∀ m ∈ crowding, m.Blind := by
    simp [crowding, search, Move.Blind]
  have hplurals : ∀ g h r q, decide (g = Watcher.pods.gvk) = true →
      decide (h = Watcher.pods.gvk) = false → served stuckDeployments.resources g = some r →
      served stuckDeployments.resources h = some q → r.plural ≠ q.plural := by
    intro g h r q hg hh hr hq
    obtain ⟨hmem, rfl⟩ := served_mem hr
    obtain ⟨hmem', rfl⟩ := served_mem hq
    -- of the two resources that there are, one serves pods
    have hboth : ∀ r ∈ stuckDeployments.resources, ∀ q ∈ stuckDeployments.resources,
        r.gvk = Watcher.pods.gvk → ¬ q.gvk = Watcher.pods.gvk → r.plural ≠ q.plural := by
      decide
    exact hboth r hmem q hmem' (of_decide_eq_true hg) (of_decide_eq_false hh)
  obtain ⟨-, hlog, hstay⟩ := hrest (· = Watcher.pods.gvk) rfl hblind (by decide) hplurals
  exact ⟨hwaits 0 _ rfl rfl, hwaits 2 _ rfl rfl, rfl, hlog.trans rfl,
    (hstay 1 .list (.ofKind Watcher.pods.gvk) rfl rfl).1⟩

end Cache

end KindCache
