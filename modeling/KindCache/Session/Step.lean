import KindCache.Cache.Overview
import KindCache.Cache.Schedule

/-!
# Steps of a session

A session drives a cache over a cluster in memory from outside, one step after
the other.

* `Step` — what can be done in one step;
* `Result` — what comes of it.

Watchers are known to a session by the order in which it was first handed
them, subscribers by their names and calls by the number of their step.
-/

namespace KindCache

namespace Session

/-- Something that the cluster puts on the streams of a resource. -/
inductive Emission where
  | event (e : WatchEvent)
  | fault (reason : String)

/-- What can be done in one step. -/
inductive Step where
  -- the cluster is programmed
  | serve (r : Resource)
  | seed (plural : String) (ds : List Document)
  | grant (plural : String) (access : Access)
  | failReviews (plural : String)
  | hold (plural : String)
  | release (plural : String)
  | closeStreams (plural : String)
  | failDiscovery (chain : List String)
  | emit (plural : String) (items : List Emission)
  -- time passes, and things are stopped
  | advance (ms : Nat)
  | shutDown
  /-- drop the call of an earlier step -/
  | cancel (step : Nat)
  -- calls
  | use (use : Use) (query : Query)
  | await (watcher : Nat)
  -- watchers
  | watcherFor (r : Resource)
  | standalone (r : Resource) (cap : Nat)
  | list (watcher : Nat) (ns : Option String) (selector : Option Selector)
  | get (watcher : Nat) (name : String) (ns : Option String) (selector : Option Selector)
  | stop (watcher : Nat)
  | subscribe (watcher : Nat) (name : String) (failsAt : Option Nat)
  | describe (watcher : Nat)
  -- questions
  /-- what a subscriber has received since it was last asked -/
  | received (name : String)
  | overview (plurals : List String)
  | metrics
  /-- a request that could not be read -/
  | refused (e : CacheError)

/-- What comes of a step or of a call. -/
inductive Result where
  | ok
  /-- the call of the step has not ended -/
  | pending
  | failed (e : CacheError)
  | documents (ds : List Document)
  | document (d : Document)
  | counted (d : Document) (retries : Nat)
  /-- a watcher, by the number that the session gave it -/
  | watcher (n : Nat)
  | description (w : Watcher)
  | changes (changes : List Change) (closed : Bool)
  | overview (o : Overview)
  | metrics (ms : List (String × Nat))
  /-- the step names a watcher that was never handed out -/
  | noSuchWatcher

/-- The answer to a step. -/
structure Reply where
  /-- what came of the step itself -/
  result : Result
  /-- the calls of earlier steps that ended during this one: the number of the
  step, what came of it, and when -/
  done : List (Nat × Result × Nat)

end Session

end KindCache
