import KindCache.Proofs.Cache.Readiness

/-!
# One running stream for each resource

What is watched is determined by a group, a version and a plural name, the wire
of a resource. Of all watchers that were ever opened for one wire at most one
runs, and as long as it does nobody opens another one.

* `Resource.wire`, `Plain.wire_of_streamName` — the table of streams is kept by a
  text, which determines the wire if group and version hold no slash;
* `Streams.holds_running` — a watcher that runs is on the table, alone for its
  wire;
* `Streams.seenWatcher?_of_running` — it is the one that is known for a kind that
  was started on its stream name;
* `one_stream` — all of this for every reachable state and every run.
-/

namespace KindCache

namespace Resource

/-- What a watch is opened for. Kinds that are served by one wire share it. -/
def wire (r : Resource) : String × String × String :=
  (r.gvk.group, r.gvk.version, r.plural)

/-- A resource whose group and version hold no slash. -/
def Plain (r : Resource) : Prop :=
  '/' ∉ r.gvk.group.toList ∧ '/' ∉ r.gvk.version.toList

instance (r : Resource) : Decidable r.Plain :=
  inferInstanceAs (Decidable (_ ∧ _))

variable {r q : Resource}

/-- The table of streams is kept by the text that is put together from the wire, so a wire
has one entry at most. -/
theorem streamName_of_wire (h : r.wire = q.wire) : r.streamName = q.streamName := by
  simp only [wire, Prod.mk.injEq] at h
  obtain ⟨hgroup, hversion, hplural⟩ := h
  rw [streamName, streamName, hgroup, hversion, hplural]

theorem toList_streamName (r : Resource) : r.streamName.toList =
    r.gvk.group.toList ++ '/' :: (r.gvk.version.toList ++ '/' :: r.plural.toList) := by
  simp [streamName, String.toList_append]

/-- The parts of a stream name are the group, the version, and those of the plural name,
which may hold slashes. -/
theorem Plain.pieces (hr : r.Plain) : Text.pieces '/' r.streamName.toList =
    r.gvk.group.toList :: r.gvk.version.toList :: Text.pieces '/' r.plural.toList := by
  rw [toList_streamName, Text.pieces_append_cons hr.1, Text.pieces_append_cons hr.2]

/-- So the text can be taken apart again, from the left, and no two wires share an entry. -/
theorem Plain.wire_of_streamName (hr : r.Plain) (hq : q.Plain)
    (h : r.streamName = q.streamName) : r.wire = q.wire := by
  have hpieces := congrArg (fun name => Text.pieces '/' name.toList) h
  simp only [hr.pieces, hq.pieces, List.cons.injEq] at hpieces
  obtain ⟨hgroup, hversion, hrest⟩ := hpieces
  have hplural : r.plural.toList = q.plural.toList := by
    rw [← Text.joined_pieces '/' r.plural.toList, hrest, Text.joined_pieces]
  simp only [wire, Prod.mk.injEq]
  exact ⟨String.toList_inj.mp hgroup, String.toList_inj.mp hversion, String.toList_inj.mp hplural⟩

end Resource

namespace Cache

/-- A watcher of the cache runs and serves a resource. -/
def Serves (s : Cache) (w : WatcherId) (r : Resource) : Prop :=
  ∃ watcher, s.watchers[w]? = some watcher ∧ watcher.tied = true ∧
    watcher.running = true ∧ watcher.resource.wire = r.wire

section

variable {s : Cache} {c : CallId} {g : GroupVersionKind} {v w : WatcherId} {r : Resource}
  {moves : List Move}

/-- A watcher of the cache that runs is on the table. It was put there when it was opened,
and an entry is replaced only when its watcher has ended. -/
theorem Serves.runningStream? (h : s.Serves w r) (hs : Streams s) :
    s.runningStream? r.streamName = some w := by
  obtain ⟨watcher, hget, htied, hrun, hwire⟩ := h
  obtain ⟨j, hj, -, hlatest⟩ := hs.latest w watcher hget htied
  obtain rfl := hlatest hrun
  rw [Resource.streamName_of_wire hwire] at hj
  exact runningStream?_eq_some.mpr ⟨hj, isRunning_iff.mpr ⟨watcher, hget, hrun⟩⟩

/-- Of the watchers of one resource at most one runs, because the table has room for one. -/
theorem Serves.unique (hs : Streams s) (hv : s.Serves v r) (hw : s.Serves w r) : v = w :=
  Option.some.inj ((hv.runningStream? hs).symm.trans (hw.runningStream? hs))

/-- It is the latest of them: an earlier one had to end before its entry was replaced, and a
watcher that has ended does not run again. -/
theorem Serves.latest (hs : Streams s) (hw : s.Serves w r) {watcher : Watcher}
    (hget : s.watchers[v]? = some watcher) (htied : watcher.tied = true)
    (hwire : watcher.resource.wire = r.wire) : v ≤ w := by
  obtain ⟨j, hj, hle, -⟩ := hs.latest v watcher hget htied
  obtain ⟨hw, -⟩ := runningStream?_eq_some.mp (hw.runningStream? hs)
  rw [Resource.streamName_of_wire hwire, hw] at hj
  obtain rfl := Option.some.inj hj
  exact hle

/-- So none is opened in a run through which it goes on running, for that one would be
later. -/
theorem Serves.none_new (hs : Reachable s) (hw : s.Serves w r)
    (hafter : (s.runMoves moves).Serves w r) {watcher : Watcher} (hv : s.watchers.length ≤ v)
    (hget : (s.runMoves moves).watchers[v]? = some watcher) (htied : watcher.tied = true) :
    watcher.resource.wire ≠ r.wire := by
  intro hwire
  have hle : v ≤ w := hafter.latest (streams_of_reachable (hs.runMoves moves)) hget htied hwire
  obtain ⟨old, hold, -⟩ := hw
  obtain ⟨hlt, -⟩ := List.getElem?_eq_some_iff.mp hold
  exact Nat.lt_irrefl _ (Nat.lt_of_lt_of_le hlt (Nat.le_trans hv hle))

/-- It is known for every kind that was started on its stream name, whichever resource the
start of the kind was told. -/
theorem Serves.seenWatcher? (hs : Streams s) (hw : s.Serves w r)
    (hseen : s.seen.lookup g = some r.streamName) : s.seenWatcher? g = some w := by
  rw [Cache.seenWatcher?, hseen]
  exact hw.runningStream? hs

/-- The watcher of a resource has its stream name, be it one that was there or a new one. -/
theorem streamName_watcherFor (hs : Streams s) {watcher : Watcher}
    (hget : (s.watcherFor r).1.watchers[(s.watcherFor r).2]? = some watcher) :
    watcher.resource.streamName = r.streamName := by
  rcases hrun : s.runningStream? r.streamName with _ | w
  · obtain ⟨cluster, new, heq, hresource, -⟩ := watcherFor_opened hrun
    rw [heq] at hget
    obtain rfl := Option.some.inj ((List.getElem?_concat_length ..).symm.trans hget)
    rw [hresource]
  · rw [watcherFor_running hrun] at hget
    obtain ⟨hlookup, -⟩ := runningStream?_eq_some.mp hrun
    obtain ⟨tabled, hget', -, hname⟩ := hs.tabled _ _ hlookup
    obtain rfl := Option.some.inj (hget'.symm.trans hget)
    exact hname

/-- Whoever asks for a kind and is answered gets the watcher that is known. All other ways
out of these two points are errors or go on. -/
theorem Looks.known (h : s.Looks c g) (hw : (s.current c).2 = some (.ok w)) :
    s.seenWatcher? g = some w := by
  rcases hknown : s.seenWatcher? g with _ | v
  · rcases h with ⟨use, q, hcall, rfl⟩ | ⟨t, hcall, hturn, rfl⟩
    · simp only [current, hcall, approach, hknown] at hw
      split at hw <;> cases hw
    · simp only [current, hcall, hturn, if_true, enter, hknown] at hw
      cases hw
  · rw [(h.answer hknown).1] at hw
    cases hw
    rfl

/-- It is answered with a watcher of the stream name that the kind was started on. -/
theorem Looks.streamName (hs : Streams s) (h : s.Looks c g)
    (hw : (s.current c).2 = some (.ok w)) {watcher : Watcher}
    (hget : s.watchers[w]? = some watcher) :
    s.seen.lookup g = some watcher.resource.streamName := by
  obtain ⟨name, hseen, hlookup, -⟩ := seenWatcher?_eq_some.mp (h.known hw)
  obtain ⟨tabled, hget', -, hname⟩ := hs.tabled _ _ hlookup
  obtain rfl := Option.some.inj (hget'.symm.trans hget)
  rw [hname, hseen]

end

/-- **One running stream for each resource.** In every reachable state, at most one watcher
runs for a resource. It is on the table, whoever asks for the resource gets it, and so does
whoever asks for a kind that was started on its stream name; as long as it runs, no other
stream is opened for the resource. Resources whose group and version hold no slash are not
taken for one another. -/
theorem one_stream {s : Cache} (hs : Reachable s) :
    (∀ r v w, s.Serves v r → s.Serves w r → v = w) ∧
    (∀ r w, s.Serves w r → s.streams.lookup r.streamName = some w ∧ s.watcherFor r = (s, w) ∧
      (∀ c g, s.Looks c g → s.seen.lookup g = some r.streamName →
        (s.current c).2 = some (.ok w) ∧ (s.current c).1.watchers = s.watchers) ∧
      ∀ moves, (s.runMoves moves).Serves w r → ∀ v watcher, s.watchers.length ≤ v →
        (s.runMoves moves).watchers[v]? = some watcher → watcher.tied = true →
        watcher.resource.wire ≠ r.wire) ∧
    (∀ r watcher, r.Plain → watcher.resource.Plain →
      (s.watcherFor r).1.watchers[(s.watcherFor r).2]? = some watcher →
      watcher.resource.wire = r.wire) ∧
    ∀ (r : Resource) c g w watcher, r.Plain → watcher.resource.Plain → s.Looks c g →
      s.seen.lookup g = some r.streamName → (s.current c).2 = some (.ok w) →
      s.watchers[w]? = some watcher → watcher.resource.wire = r.wire := by
  have hstreams : Streams s := streams_of_reachable hs
  refine ⟨fun r v w hv hw => hv.unique hstreams hw, fun r w hw => ?_, fun r watcher hr hq hget => ?_,
    fun r c g w watcher hr hq hlooks hseen hw hget => ?_⟩
  · have hrun := hw.runningStream? hstreams
    refine ⟨(runningStream?_eq_some.mp hrun).1, watcherFor_running hrun, fun c g hlooks hseen => ?_,
      fun moves hafter v watcher hv hget htied => hw.none_new hs hafter hv hget htied⟩
    exact hlooks.answer (hw.seenWatcher? hstreams hseen)
  · exact hq.wire_of_streamName hr (streamName_watcherFor hstreams hget)
  · refine hq.wire_of_streamName hr ?_
    exact Option.some.inj ((hlooks.streamName hstreams hw hget).symm.trans hseen)

theorem one_stream_reopened :
    reopened.streams.lookup Watcher.pods.streamName = some 1 ∧
      reopened.watcherFor Watcher.pods = (reopened, 1) ∧
      (reopened.current 2).2 = some (.ok 1) ∧
      (∀ v watcher, reopened.watchers.length ≤ v →
        (reopened.runMoves [.advance 2, .watcherFor Watcher.pods]).watchers[v]? = some watcher →
        watcher.tied = true → watcher.resource.wire ≠ Watcher.pods.wire) ∧
      Watcher.pods.Plain := by
  have hserves : reopened.Serves 1 Watcher.pods := ⟨_, rfl, rfl, rfl, rfl⟩
  obtain ⟨-, hrunning, -, -⟩ := one_stream (reachable_run onePod .standard reopening)
  obtain ⟨htable, hfor, hasked, hnew⟩ := hrunning Watcher.pods 1 hserves
  have hlooks : reopened.Looks 2 Watcher.pods.gvk := .inl ⟨_, _, rfl, rfl⟩
  refine ⟨htable, hfor, (hasked 2 _ hlooks rfl).1, hnew _ ⟨_, rfl, rfl, rfl, rfl⟩, ?_⟩
  decide

end Cache

end KindCache
