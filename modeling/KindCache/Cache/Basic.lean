import KindCache.Cache.Call
import KindCache.Cluster.Inquiry
import KindCache.Settings
import KindCache.Watcher.Read

/-!
# The cache

The state of a cache over a cluster, with all its watchers and all calls that
were ever made.

* `Cache` — the state; watchers, slots and calls are only ever appended, so that
  their numbers stay valid;
* `Cache.watcherFor` — the watcher of a resource: the running one if there is
  one, a new stream otherwise;
* `Cache.seenWatcher?` — the watcher of a kind that has been started before
  and still runs; reads of such a kind never wait;
* `Cache.standalone` — a watcher beside the cache, with a stream of its own.
-/

namespace KindCache

/-- A first-touch slot. Calls that start one kind take turns in it. -/
structure Slot where
  /-- the call that has its turn -/
  holder : Option CallId
  /-- the calls behind it, in order of arrival -/
  waiting : List CallId

/-- What is counted for monitoring. -/
structure Meters where
  /-- how often each right was probed -/
  probes : Verb → Nat
  /-- how many streams the cache has opened -/
  watchersStarted : Nat
  /-- how many calls have started a kind and seen its relist -/
  syncWaits : Nat
  /-- how often a read was tried again -/
  retries : Nat
  /-- the size of the store last published for a kind -/
  objects : Table String Nat

/-- A cache over a cluster. -/
structure Cache where
  /-- the cluster -/
  cluster : Cluster
  /-- the knobs -/
  settings : Settings
  /-- what is known about served kinds -/
  registry : Registry
  /-- all watchers, by number -/
  watchers : List Watcher
  /-- the latest watcher of each stream name -/
  streams : Table String WatcherId
  /-- the kinds that were started with success, and their stream names -/
  seen : Table GroupVersionKind String
  /-- all first-touch slots, by number -/
  slots : List Slot
  /-- the slot that the calls for a kind share -/
  slotOf : Table GroupVersionKind SlotId
  /-- all calls, by number -/
  calls : List Call
  /-- the ends of calls, in the order in which they came -/
  log : List Completion
  /-- whether the cache was told to stop -/
  shutdown : Bool
  /-- the time in milliseconds -/
  now : Nat
  /-- the counters -/
  meters : Meters

namespace Cache

/-- A cache that has not been asked for anything. -/
def starting (cluster : Cluster) (settings : Settings) : Cache :=
  { cluster, settings
    registry := .starting Registry.standardMissTtl
    watchers := [], streams := [], seen := []
    slots := [], slotOf := []
    calls := [], log := []
    shutdown := false
    now := 0
    meters := { probes := fun _ => 0, watchersStarted := 0, syncWaits := 0, retries := 0,
                objects := [] } }

/-! ## Watchers -/

/-- Change a watcher. -/
def modifyWatcher (s : Cache) (w : WatcherId) (f : Watcher → Watcher) : Cache :=
  { s with watchers := s.watchers.modify w f }

/-- Whether a watcher consumes its stream. -/
def isRunning (s : Cache) (w : WatcherId) : Bool :=
  match s.watchers[w]? with
  | some watcher => watcher.running
  | none => false

/-- The running watcher of a stream name. -/
def runningStream? (s : Cache) (name : String) : Option WatcherId :=
  (s.streams.lookup name).filter s.isRunning

/-- The running watcher of a kind that was started before. -/
def seenWatcher? (s : Cache) (g : GroupVersionKind) : Option WatcherId :=
  (s.seen.lookup g).bind s.runningStream?

/-- Open a stream and add its watcher. -/
def spawn (s : Cache) (r : Resource) (cap : Nat) (tied : Bool) : Cache × WatcherId :=
  let watcher := Watcher.starting r cap tied (s.cluster.opening r.plural)
  let watcher := if tied && s.shutdown then watcher.stop else watcher
  ({ s with
      cluster := s.cluster.countStream r.plural
      watchers := s.watchers ++ [watcher] }, s.watchers.length)

/-- A watcher beside the cache. -/
def standalone (s : Cache) (r : Resource) (cap : Nat) : Cache × WatcherId :=
  s.spawn r cap false

/-- The watcher of a resource. A stopped one is replaced. -/
def watcherFor (s : Cache) (r : Resource) : Cache × WatcherId :=
  match s.runningStream? r.streamName with
  | some w => (s, w)
  | none =>
    let (s, w) := s.spawn r s.settings.eventQueueCap.toNat true
    ({ s with
        streams := Table.put r.streamName w s.streams
        meters := { s.meters with watchersStarted := s.meters.watchersStarted + 1 } }, w)

/-- Note the size of the store that a watcher has published. -/
def gauge (s : Cache) (watcher : Watcher) : Cache :=
  let objects := Table.put watcher.kindText watcher.store.size s.meters.objects
  { s with meters := { s.meters with objects } }

/-- Let a watcher consume what has arrived. -/
def ingest (s : Cache) (w : WatcherId) : Cache :=
  match s.watchers[w]? with
  | none => s
  | some watcher =>
    let after := watcher.ingest
    let s := s.modifyWatcher w Watcher.ingest
    if watcher.publishes then s.gauge after else s

/-! ## Calls -/

/-- The point that a call has reached. -/
def call (s : Cache) (c : CallId) : Call :=
  s.calls[c]?.getD .over

/-- Let a call stand at a point. -/
def setCall (s : Cache) (c : CallId) (point : Call) : Cache :=
  { s with calls := s.calls.set c point }

/-- End a call. -/
def complete (s : Cache) (c : CallId) (outcome : Outcome) : Cache :=
  { s.setCall c .over with log := s.log ++ [⟨c, outcome, s.now⟩] }

/-- A new call. -/
def submit (s : Cache) (request : Request) : Cache × CallId :=
  ({ s with calls := s.calls ++ [.fresh request] }, s.calls.length)

end Cache

end KindCache
