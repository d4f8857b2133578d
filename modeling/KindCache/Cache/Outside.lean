import KindCache.Cache.Progress

/-!
# What happens to a cache from outside

Items arrive on streams, streams end, watchers are stopped, the whole cache is
shut down, and queues of subscribers are delivered. None of this runs a watcher
or a call; it only gives them something to do.
-/

namespace KindCache

namespace Cache

/-- Change the cluster. -/
def modifyCluster (s : Cache) (f : Cluster → Cluster) : Cache :=
  { s with cluster := f s.cluster }

/-- Change all watchers of a resource. -/
def onResource (s : Cache) (plural : String) (f : Watcher → Watcher) : Cache :=
  { s with watchers := s.watchers.map fun w => if w.resource.plural = plural then f w else w }

/-- Items arrive on every open stream of a resource. -/
def arrive (s : Cache) (plural : String) (items : List Arrival) : Cache :=
  s.onResource plural (·.arrive items)

/-- The streams of a resource no longer begin without a relist, and those that
are open get one. -/
def release (s : Cache) (plural : String) : Cache :=
  let s := s.modifyCluster (·.setHeld plural false)
  s.arrive plural [s.cluster.relist plural]

/-- All open streams of a resource end. -/
def closeStreams (s : Cache) (plural : String) : Cache :=
  s.onResource plural Watcher.closeStream

/-- One watcher is asked to stop. -/
def stopWatcher (s : Cache) (w : WatcherId) : Cache :=
  s.modifyWatcher w Watcher.stop

/-- The cache and all its watchers are asked to stop. -/
def shutDown (s : Cache) : Cache :=
  { s with
    shutdown := true
    watchers := s.watchers.map fun w => if w.tied then w.stop else w }

/-- A subscriber is added to a watcher. -/
def subscribe (s : Cache) (w : WatcherId) (name : String) (failsAt : Option Nat) : Cache :=
  s.modifyWatcher w fun watcher => watcher.subscribe name failsAt

/-- The queues of all subscribers are delivered. -/
def drain (s : Cache) : Cache :=
  { s with watchers := s.watchers.map Watcher.drain }

/-- Time passes. -/
def tick (s : Cache) : Cache :=
  { s with now := s.now + 1 }

end Cache

end KindCache
