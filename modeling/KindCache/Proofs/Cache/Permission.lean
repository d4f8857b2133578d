import Mathlib.Data.List.Induction
import KindCache.Proofs.Cache.Replies

/-!
# The permission gate

No kind is watched without the three rights on its resource.

* `probes_run` — the questions of a call come to a probe of the resource;
* `opened_granted` — whoever opens a stream in the course of a search has been told
  the resource, and that it may get, list and watch it in all namespaces;
* `seen_granted` — every kind that counts as started went through that;
* `refused_fate` — a call with a refusal or a failed review asks its questions to the
  end, is told what was observed, and opens nothing;
* `permission_gate` — all of this for every run of a new cache.
-/

namespace KindCache

namespace Cache

section

variable {s s' : Cache} {c : CallId} {t : Ticket} {r : Resource} {v w : WatcherId} {m : Move}
  {g : GroupVersionKind} {replies : List Reply} {fates : List Fate} {moves : List Move}
  {access : Access} {verbs : List Verb}

/-! ## A probe, leg by leg -/

/-- The legs in which a call asks for rights, with nothing in between, come to asking the
cluster for them one after the other: the call remembers what it was told, and the cluster
counts each question. -/
theorem asks_run (h : s.call c = .probing t r access verbs) :
    (s.runMoves (List.replicate verbs.length (.advance c))).call c =
        .probing t r (s.cluster.reviewAll r access verbs).2 [] ∧
      (s.runMoves (List.replicate verbs.length (.advance c))).cluster =
        (s.cluster.reviewAll r access verbs).1 := by
  induction verbs generalizing s access with
  | nil => exact ⟨h, rfl⟩
  | cons verb verbs ih =>
    have hleg := current_asks h
    rw [List.length_cons, List.replicate_succ, runMoves_cons, perform,
      advance_onward (by rw [h]; rfl) hleg]
    have hborn : c < s.calls.length := lt_of_call (by rw [h]; exact Call.noConfusion)
    exact ih ((call_of_set (s := (s.review r verb).1) rfl hborn c).trans (if_pos rfl))

/-- **A call that starts a kind probes its resource.** It is told what a prober would be told
at that moment, and the cluster counts the same questions for both; so the two can only differ
where the cluster changes between the questions of the call. -/
theorem probes_run (h : s.call c = .probing t r .denied Verb.required) :
    (s.runMoves (List.replicate 3 (.advance c))).call c =
        .probing t r (s.cluster.probe r).2 [] ∧
      (s.runMoves (List.replicate 3 (.advance c))).cluster = (s.cluster.probe r).1 := by
  rw [← Cluster.reviewAll_required]
  exact asks_run h

/-- Where a prober would refuse, the call is refused in the same words. -/
theorem refused_of_probe (h : s.call c = .probing t r .denied Verb.required)
    {e : CacheError} (hgate : (s.cluster.probe r).2.ensure r.plural = .error e) :
    ((s.runMoves (List.replicate 3 (.advance c))).current c).2 = some (.error e) := by
  have hprobed := (probes_run h).1
  have hrefused : (s.cluster.probe r).2.complete = false := by
    rcases hall : (s.cluster.probe r).2.complete with _ | _
    · rfl
    · rw [Access.ensure, if_pos hall] at hgate
      cases hgate
  rw [Access.ensure, if_neg (by rw [hrefused]; exact Bool.false_ne_true)] at hgate
  rw [current_refused hprobed hrefused, ← Except.error.inj hgate]
  rfl

/-! ## Streams -/

/-- A leg that opens a stream opens it for the resource on which the call has all
rights. -/
theorem Leads.new_watcher {leg : Leg} (h : Leads s c leg)
    (hmore : s.watchers.length < leg.1.watchers.length) :
    ∃ t r access watcher, s.call c = .probing t r access [] ∧
      leg.1.watchers[s.watchers.length]? = some watcher ∧ watcher.resource = r := by
  rcases h.watchers with hsame | ⟨t, r, access, hcall, hwatchers⟩
  · rw [hsame] at hmore
    exact absurd hmore (Nat.lt_irrefl _)
  · rcases hrun : s.runningStream? r.streamName with _ | w
    · obtain ⟨cluster, watcher, heq, hresource, -⟩ := watcherFor_opened hrun
      refine ⟨t, r, access, watcher, hcall, ?_, hresource⟩
      rw [hwatchers, heq]
      exact List.getElem?_concat_length ..
    · rw [hwatchers, watcherFor_running hrun] at hmore
      exact absurd hmore (Nat.lt_irrefl _)

theorem Advance.new_watcher (h : Advance s c s')
    (hmore : s.watchers.length < s'.watchers.length) :
    ∃ t r access watcher, s.call c = .probing t r access [] ∧
      s'.watchers[s.watchers.length]? = some watcher ∧ watcher.resource = r := by
  cases h with
  | idle => exact absurd hmore (Nat.lt_irrefl _)
  | onward hleg => exact Leads.new_watcher (hleg ▸ s.current_leads c) hmore
  | answered herrand hleg hend =>
    rw [hend.evolves.length] at hmore
    obtain ⟨t, r, access, watcher, hcall, hget, hresource⟩ :=
      Leads.new_watcher (hleg ▸ s.current_leads c) hmore
    obtain ⟨watcher', hget', hlater⟩ := hend.evolves.after hget
    exact ⟨t, r, access, watcher', hcall, hget', hlater.resource.trans hresource⟩
  | aside hcall hend =>
    rw [hend.evolves.length] at hmore
    exact absurd hmore (Nat.lt_irrefl _)

/-- A call that opens a stream has heard that all rights on its resource are granted. -/
theorem opened_granted (h : Stage s c replies fates) (hv : opened s (.advance c) = some v) :
    ∃ t r watcher, (s.call c).starting? = some t ∧ r.gvk = t.query.gvk ∧
      replies = granted r ∧ (s.advance c).watchers[v]? = some watcher ∧
      watcher.resource = r := by
  simp only [opened] at hv
  split at hv
  · next hmore =>
    obtain rfl := Option.some.inj hv
    obtain ⟨t, r, access, watcher, hcall, hget, hresource⟩ :=
      (s.advance_cases c).new_watcher hmore
    rcases h.frame with hstill | ⟨u, q, hkind, hreplies, hpoised⟩
    · exact absurd hmore (Nat.not_lt_of_le (Nat.le_of_eq hstill.watchers))
    · rcases hpoised with ⟨access', hcall'⟩ | ⟨w, deadline, watcher', hcall', -⟩
      · obtain ⟨rfl, rfl, -⟩ := Call.probing.inj (hcall.symm.trans hcall')
        exact ⟨t, r, watcher, by rw [hcall]; rfl, hkind, hreplies, hget, hresource⟩
      · rw [hcall] at hcall'
        cases hcall'
  · cases hv

/-- A call that starts a kind has begun to. -/
theorem begun_of_starts (hnot : s.starts c g = false)
    (h : (s.runMoves moves).starts c g = true) : c ∈ trace (begun g) s moves := by
  induction moves generalizing s with
  | nil =>
    rw [runMoves_nil, hnot] at h
    cases h
  | cons m moves ih =>
    rcases hm : (s.perform m).starts c g with _ | _
    · exact List.mem_append_right _ (ih hm h)
    · refine List.mem_append_left _ (Option.mem_toList.mpr ?_)
      by_cases hadvance : m = .advance c
      · subst hadvance
        exact if_pos (by rw [hnot]; exact hm)
      · by_cases hcancel : m = .cancel c
        · subst hcancel
          rw [perform, cancel_starts] at hm
          cases hm
        · rcases perform_call (s := s) (g := g) hadvance hcancel with hcall | ⟨-, hno⟩
          · rw [Cache.starts, hcall] at hm
            rw [Cache.starts, hm] at hnot
            cases hnot
          · rw [hno] at hm
            cases hm

/-! ## Kinds that count as started -/

/-- A call that marks a kind has heard that all rights on its resource are granted. -/
theorem marked_granted (hs : Streams s) (h : Stage s c replies fates) {name : String}
    (hseen : (s.advance c).seen.lookup g = some name) (hnew : s.seen.lookup g ≠ some name) :
    ∃ w r, ended g s (.advance c) = some (c, some w) ∧ replies = granted r ∧ r.gvk = g ∧
      r.streamName = name := by
  rcases (s.advance_cases c).marked with
    hsame | ⟨t, w, s₁, watcher, ha, hget, -, hok, hput⟩
  · exact absurd (hsame ▸ hseen) hnew
  · rw [hput, Table.lookup_put] at hseen
    split at hseen
    · next hg =>
      subst hg
      obtain rfl := Option.some.inj hseen
      rcases h.frame with hstill | ⟨u, r, hkind, hreplies, hpoised⟩
      · rw [← hstill.seen, hput, Table.lookup_put, if_pos rfl] at hnew
        exact absurd rfl hnew
      · obtain rfl := Option.some.inj (ha.starting.symm.trans hpoised.starting)
        obtain ⟨watcher', hget', hname⟩ := hpoised.serves hs ha
        obtain rfl := Option.some.inj (hget.symm.trans hget')
        exact ⟨w, r, ended_of_answer (starts_iff.mpr ⟨t, ha.starting, rfl⟩) hok, hreplies, hkind,
          hname.symm⟩
    · exact absurd hseen hnew

/-- Every kind that counts as started was started by a call that had heard that all
rights on its resource are granted. -/
theorem seen_granted (cluster : Cluster) (settings : Settings) (moves : List Move)
    {name : String}
    (h : ((starting cluster settings).runMoves moves).seen.lookup g = some name) :
    ∃ before c after w r, moves = before ++ .advance c :: after ∧
      ended g ((starting cluster settings).runMoves before) (.advance c) = some (c, some w) ∧
      heard c (starting cluster settings) before = granted r ∧ r.gvk = g ∧
      r.streamName = name := by
  -- by induction on the moves from the end, to find the last one that marks the kind
  induction moves using List.reverseRecOn with
  | nil => cases h
  | append_singleton moves m ih =>
    by_cases hold : ((starting cluster settings).runMoves moves).seen.lookup g = some name
    · obtain ⟨before, c, after, w, r, rfl, hstart⟩ := ih hold
      refine ⟨before, c, after ++ [m], w, r, ?_, hstart⟩
      rw [List.append_assoc]
      rfl
    · rw [runMoves_append, runMoves_cons, runMoves_nil] at h
      by_cases hadvance : ∃ c, m = .advance c
      · obtain ⟨c, rfl⟩ := hadvance
        have hs := streams_of_reachable (reachable_run cluster settings moves)
        obtain ⟨w, r, hended, hheard, hkind, hname⟩ :=
          marked_granted hs (stage_of_run cluster settings moves c) h hold
        exact ⟨moves, c, [], w, r, rfl, hended, hheard, hkind, hname⟩
      · rw [perform_seen fun c hm => absurd ⟨c, hm⟩ hadvance] at h
        exact absurd h hold

/-! ## Refusals -/

/-- The error of a call with these answers to its reviews. -/
def denial (r : Resource) (a b d : Option Bool) : CacheError :=
  .accessDenied r.plural ⟨a.getD false, b.getD false, d.getD false⟩

/-- A call that has heard of a refusal or of a failed review asks its questions to the
end and is told what was observed, unless it is dropped before. -/
theorem refused_fate (h : Stage s c replies fates) {review : AccessReview}
    {answer : Option Bool} (hr : .reviewed review answer ∈ replies) (hnot : answer ≠ some true) :
    ∃ r answers, answers.length ≤ 3 ∧ replies = inquiry r answers ∧
      ((fates = [] ∧ ∃ t,
          s.call c = .probing t r (observed answers) (Verb.required.drop answers.length) ∧
          ∀ a b d, answers = [a, b, d] → (s.current c).2 = some (.error (denial r a b d))) ∨
        fates = [none] ∨
        ∃ a b d, answers = [a, b, d] ∧ fates = [some (.error (denial r a b d))]) := by
  cases h with
  | unborn | fresh | queued | resolving => cases hr
  | @probing t r answers hlen hkind h =>
    refine ⟨r, answers, hlen, rfl, .inl ⟨rfl, t, h, ?_⟩⟩
    rintro a b d rfl
    have hrefused : (observed [a, b, d]).complete = false := by
      rcases hall : (observed [a, b, d]).complete with _ | _
      · rfl
      · obtain ⟨rfl, rfl, rfl⟩ := complete_observed_iff.mp hall
        exact absurd (allowed_of_granted hr) hnot
    rw [current_refused h hrefused]
    rfl
  | syncing => exact absurd (allowed_of_granted hr) hnot
  | closed hborn h hclosed =>
    cases hclosed with
    | unasked => cases hr
    | @dropped r answers hlen => exact ⟨r, answers, hlen, rfl, .inr (.inl rfl)⟩
    | @refused r a b d => exact ⟨r, [a, b, d], Nat.le_refl 3, rfl, .inr (.inr ⟨a, b, d, rfl, rfl⟩)⟩
    | allowed => exact absurd (allowed_of_granted hr) hnot

/-- No leg of such a call opens a stream or marks a kind. -/
theorem refused_still (cluster : Cluster) (settings : Settings) {before after : List Move}
    (hmoves : moves = before ++ .advance c :: after) {review : AccessReview}
    {answer : Option Bool}
    (hr : .reviewed review answer ∈ heard c (starting cluster settings) moves)
    (hnot : answer ≠ some true) :
    Still ((starting cluster settings).runMoves before)
      (((starting cluster settings).runMoves before).advance c) := by
  rcases (stage_of_run cluster settings before c).frame with hstill | ⟨t, r, -, hgranted, -⟩
  · exact hstill
  · -- with all rights granted there would be no refusal to hear of
    have hall : heard c (starting cluster settings) moves = granted r := by
      have hsplit : heard c (starting cluster settings) moves = granted r ++
          heard c ((starting cluster settings).runMoves before) (.advance c :: after) := by
        rw [hmoves, heard, trace_append, ← heard, hgranted]
      rcases (stage_of_run cluster settings moves c).shape with hnil | ⟨q, answers, -, hinquiry⟩
      · rw [hnil] at hr
        cases hr
      · rw [hinquiry] at hsplit ⊢
        exact eq_granted hsplit
    exact absurd (allowed_of_granted (hall ▸ hr)) hnot

end

/-- In every run of a new cache, a stream that is opened in the course of a search is
opened for the resource that the kind was resolved to, by a call that has begun to
start the kind and has heard that it may get, list and watch the resource in all
namespaces; and every kind that counts as started was started by such a call. A call
with a refusal or a failed review is answered with exactly what was observed, unless
it is dropped before; none of its legs opens a stream or changes the table of
streams or the kinds that count as started. -/
theorem permission_gate (cluster : Cluster) (settings : Settings) (moves : List Move) :
    (∀ c v, opened ((starting cluster settings).runMoves moves) (.advance c) = some v →
      ∃ g r watcher, c ∈ trace (begun g) (starting cluster settings) moves ∧
        ((starting cluster settings).runMoves moves).starts c g = true ∧ r.gvk = g ∧
        heard c (starting cluster settings) moves = granted r ∧
        (((starting cluster settings).runMoves moves).advance c).watchers[v]? = some watcher ∧
        watcher.resource = r) ∧
    (∀ g name, ((starting cluster settings).runMoves moves).seen.lookup g = some name →
      ∃ before c after w r, moves = before ++ .advance c :: after ∧
        ended g ((starting cluster settings).runMoves before) (.advance c) = some (c, some w) ∧
        heard c (starting cluster settings) before = granted r ∧ r.gvk = g ∧
        r.streamName = name) ∧
    ∀ c review answer, .reviewed review answer ∈ heard c (starting cluster settings) moves →
      answer ≠ some true →
      (∃ r answers, answers.length ≤ 3 ∧
        heard c (starting cluster settings) moves = inquiry r answers ∧
        ((trace (fate c) (starting cluster settings) moves = [] ∧ ∃ t,
            ((starting cluster settings).runMoves moves).call c =
              .probing t r (observed answers) (Verb.required.drop answers.length) ∧
            ∀ a b d, answers = [a, b, d] →
              (((starting cluster settings).runMoves moves).current c).2 =
                some (.error (denial r a b d))) ∨
          trace (fate c) (starting cluster settings) moves = [none] ∨
          ∃ a b d, answers = [a, b, d] ∧
            trace (fate c) (starting cluster settings) moves =
              [some (.error (denial r a b d))])) ∧
      ∀ before after, moves = before ++ .advance c :: after →
        Still ((starting cluster settings).runMoves before)
          (((starting cluster settings).runMoves before).advance c) := by
  refine ⟨fun c v hv => ?_, fun g name => seen_granted cluster settings moves,
    fun c review answer hr hnot => ⟨?_, fun before after hmoves => ?_⟩⟩
  · obtain ⟨t, r, watcher, hstarting, hkind, hheard, hget, hresource⟩ :=
      opened_granted (stage_of_run cluster settings moves c) hv
    have hstarts := starts_iff.mpr ⟨t, hstarting, rfl⟩
    exact ⟨t.query.gvk, r, watcher, begun_of_starts rfl hstarts, hstarts, hkind, hheard, hget,
      hresource⟩
  · exact refused_fate (stage_of_run cluster settings moves c) hr hnot
  · exact refused_still cluster settings hmoves hr hnot

/-- What a call hears that may do everything with pods. -/
example : granted Watcher.pods =
    [.served Watcher.pods, .reviewed ⟨"", "v1", "pods", .get, none⟩ (some true),
      .reviewed ⟨"", "v1", "pods", .list, none⟩ (some true),
      .reviewed ⟨"", "v1", "pods", .watch, none⟩ (some true)] := rfl

/-- A call for pods that has asked all its questions. -/
def asking : List Move :=
  .submit (.use .handOut (.ofKind Watcher.pods.gvk)) :: List.replicate 6 (.advance 0)

/-- A cluster where nobody may list pods. -/
def closedPods : Cluster :=
  onePod.grant "pods" ⟨true, false, true⟩

/-- The call opens the stream and marks the kind. Where pods may not be listed, it is
told so. -/
theorem permission_gate_pods :
    (∃ g r watcher, 0 ∈ trace (begun g) (starting onePod .standard) asking ∧
      ((starting onePod .standard).runMoves asking).starts 0 g = true ∧ r.gvk = g ∧
      heard 0 (starting onePod .standard) asking = granted r ∧
      (((starting onePod .standard).runMoves asking).advance 0).watchers[0]? = some watcher ∧
      watcher.resource = r) ∧
    (∃ before c after w r, asking ++ [.advance 0, .watch 0 (.batch 1), .advance 0] =
        before ++ .advance c :: after ∧
      ended Watcher.pods.gvk ((starting onePod .standard).runMoves before) (.advance c) =
        some (c, some w) ∧
      heard c (starting onePod .standard) before = granted r ∧ r.gvk = Watcher.pods.gvk ∧
      r.streamName = "/v1/pods") ∧
    trace (fate 0) (starting closedPods .standard) (asking ++ [.advance 0]) =
      [some (.error (.accessDenied "pods" ⟨true, false, true⟩))] ∧
    Still ((starting closedPods .standard).runMoves asking)
      (((starting closedPods .standard).runMoves asking).advance 0) := by
  obtain ⟨hopened, -, -⟩ := permission_gate onePod .standard asking
  obtain ⟨-, hseen, -⟩ := permission_gate onePod .standard
    (asking ++ [.advance 0, .watch 0 (.batch 1), .advance 0])
  obtain ⟨-, -, hrefused⟩ := permission_gate closedPods .standard (asking ++ [.advance 0])
  refine ⟨hopened 0 0 rfl, hseen _ _ rfl, rfl, ?_⟩
  refine (hrefused 0 ⟨"", "v1", "pods", .list, none⟩ (some false) ?_ ?_).2 asking [] rfl
  · decide
  · decide

end Cache

end KindCache
