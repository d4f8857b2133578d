import KindCache.Cache.Metrics
import KindCache.Session.Step

/-!
# Sessions

`Session.take` does one step: it changes the cache, runs everything that can
run, delivers the queues of all subscribers, and then tells what came of the
step and which earlier calls have ended meanwhile.
-/

namespace KindCache

/-- A cache that is driven from outside, and what it was asked. -/
structure Session where
  /-- the cache -/
  cache : Cache
  /-- the watchers handed out, in the order in which they first were -/
  shown : List WatcherId
  /-- how many changes of each subscriber have been reported -/
  reported : Table String Nat
  /-- the step of each call -/
  origins : List Nat
  /-- the number of steps done -/
  steps : Nat

namespace Session

/-- A session at its start. -/
def starting (cluster : Cluster) (settings : Settings) : Session :=
  { cache := .starting cluster settings
    shown := [], reported := [], origins := [], steps := 0 }

/-! ## Numbers of watchers and calls -/

/-- The number of a watcher, a new one if it has none yet. -/
def numbered (shown : List WatcherId) (w : WatcherId) : List WatcherId × Nat :=
  match shown.idxOf? w with
  | some n => (shown, n)
  | none => (shown ++ [w], shown.length)

/-- The call that a step has made. -/
def callOf? (s : Session) (step : Nat) : Option CallId :=
  s.origins.idxOf? step

/-! ## Subscribers -/

/-- The subscriber with a name, on whichever watcher it is. -/
def subscriber? (s : Session) (name : String) : Option Subscriber :=
  s.cache.watchers.findSome? fun w => w.subscribers.find? fun x => x.name = name

/-- Whether a live call is going to register a subscriber. -/
def awaited (s : Session) (name : String) : Bool :=
  s.cache.calls.any fun call => call.errand?.any fun e => e.1 = .subscribe name

/-- What a subscriber has received since it was last asked, and whether nothing
more will come: it is closed, or the call that was to register it has failed. -/
def received (s : Session) (name : String) : Session × Result :=
  match s.subscriber? name with
  | none => (s, .changes [] (!s.awaited name))
  | some x =>
    let known := (s.reported.lookup name).getD 0
    ({ s with reported := Table.put name x.received.length s.reported },
      .changes (x.received.drop known) x.closed)

/-! ## Doing a step -/

/-- What a step leads to at once. -/
inductive Effect where
  | result (r : Result)
  | call (c : CallId)

/-- Change the cache and report success. -/
def act (s : Session) (f : Cache → Cache) : Session × Effect :=
  ({ s with cache := f s.cache }, .result .ok)

/-- Hand out a watcher. -/
def handOut (s : Session) (made : Cache × WatcherId) : Session × Effect :=
  let (cache, w) := made
  let (shown, n) := numbered s.shown w
  ({ s with cache, shown }, .result (.watcher n))

/-- Make a call. -/
def submit (s : Session) (request : Request) : Session × Effect :=
  let (cache, c) := s.cache.submit request
  ({ s with cache, origins := s.origins ++ [s.steps] }, .call c)

/-- Do something with a watcher that was handed out. -/
def onWatcher (s : Session) (n : Nat)
    (f : WatcherId → Watcher → Session × Effect) : Session × Effect :=
  match s.shown[n]? with
  | none => (s, .result .noSuchWatcher)
  | some w =>
    match s.cache.watchers[w]? with
    | none => (s, .result .noSuchWatcher)
    | some watcher => f w watcher

/-- An emission as it arrives on a stream. -/
def arrival (cluster : Cluster) : Emission → Arrival
  | .event e => .event e
  | .fault reason => cluster.fault reason

/-- Do what a step says, without running anything but time. -/
def perform (s : Session) : Step → Session × Effect
  | .serve r => s.act fun c => c.modifyCluster (·.serve r)
  | .seed plural ds => s.act fun c => c.modifyCluster (·.seed plural ds)
  | .grant plural access => s.act fun c => c.modifyCluster (·.grant plural access)
  | .failReviews plural => s.act fun c => c.modifyCluster (·.failReviews plural)
  | .hold plural => s.act fun c => c.modifyCluster (·.setHeld plural true)
  | .release plural => s.act fun c => c.release plural
  | .closeStreams plural => s.act fun c => c.closeStreams plural
  | .failDiscovery chain => s.act fun c => c.modifyCluster (·.failDiscovery chain)
  | .emit plural items =>
    s.act fun c => c.arrive plural (items.map (arrival c.cluster))
  | .advance ms => s.act (Cache.pass ms)
  | .shutDown => s.act Cache.shutDown
  | .cancel step =>
    match s.callOf? step with
    | some c => s.act fun cache => cache.cancel c
    | none => (s, .result .ok)
  | .use use query => s.submit (.use use query)
  | .await n => s.onWatcher n fun w _ => s.submit (.sync w)
  | .watcherFor r => s.handOut (s.cache.watcherFor r)
  | .standalone r cap => s.handOut (s.cache.standalone r cap)
  | .list n ns selector =>
    s.onWatcher n fun _ w => (s, .result (.documents (w.list ns selector)))
  | .get n name ns selector =>
    s.onWatcher n fun _ w =>
      match w.get ns name selector with
      | .ok d => (s, .result (.document d))
      | .error e => (s, .result (.failed e))
  | .stop n => s.onWatcher n fun w _ => s.act fun c => c.stopWatcher w
  | .subscribe n name failsAt =>
    s.onWatcher n fun w _ => s.act fun c => c.subscribe w name failsAt
  | .describe n => s.onWatcher n fun _ w => (s, .result (.description w))
  | .received name => let (s, r) := s.received name; (s, .result r)
  | .overview plurals => (s, .result (.overview (s.cache.overview plurals)))
  | .metrics => (s, .result (.metrics s.cache.metrics))
  | .refused e => (s, .result (.failed e))

/-! ## Reporting -/

/-- What came of a call, where a watcher gets its number. -/
def report (shown : List WatcherId) : Outcome → List WatcherId × Result
  | .documents ds => (shown, .documents ds)
  | .document d => (shown, .document d)
  | .counted d retries => (shown, .counted d retries)
  | .watcher w => let (shown, n) := numbered shown w; (shown, .watcher n)
  | .done => (shown, .ok)
  | .failed e => (shown, .failed e)

/-- The reports on ended calls, in the order in which they ended. -/
def reports (shown : List WatcherId) :
    List Completion → List WatcherId × List (CallId × Result × Nat)
  | [] => (shown, [])
  | e :: rest =>
    let (shown, r) := report shown e.outcome
    let (shown, more) := reports shown rest
    (shown, (e.call, r, e.time) :: more)

/-- Do one step. -/
def take (s : Session) (step : Step) : Session × Reply :=
  let known := s.cache.log.length
  let (s, effect) := s.perform step
  let cache := s.cache.settle.drain
  let (shown, ended) := reports s.shown (cache.log.drop known)
  let own : Option CallId :=
    match effect with
    | .call c => some c
    | .result _ => none
  let result :=
    match effect with
    | .result r => r
    | .call c => ((ended.lookup c).map (·.1)).getD .pending
  let done := (ended.filter fun e => some e.1 ≠ own).map fun e =>
    (s.origins.getD e.1 0, e.2)
  ({ s with cache, shown, steps := s.steps + 1 },
    ⟨result, done.mergeSort fun a b => a.1 ≤ b.1⟩)

/-- Do steps in order. -/
def takeAll (s : Session) : List Step → List Reply
  | [] => []
  | step :: rest =>
    let (s, reply) := s.take step
    reply :: s.takeAll rest

end Session

end KindCache
