import KindCache.Cache.Basic

/-!
# Overview of a cache

What a cache tells about itself: how many streams it has opened, which kinds
are being started or have been, and how often the cluster was asked.
-/

namespace KindCache

/-- The state of a cache in numbers. -/
structure Overview where
  /-- the number of stream names that have a watcher -/
  started : Nat
  /-- the number of kinds with a first-touch slot -/
  slots : Nat
  /-- the number of discoveries -/
  discoveries : Nat
  /-- the kinds that were started with success, in ascending order -/
  seen : List GroupVersionKind
  /-- the number of reviews on each resource asked about -/
  reviews : List (String × Nat)
  /-- the number of streams on each resource asked about -/
  streams : List (String × Nat)
  /-- whether the cache was told to stop -/
  stopping : Bool

/-- The state of a cache, with the counts for some resources. -/
def Cache.overview (s : Cache) (plurals : List String) : Overview :=
  { started := s.streams.length
    slots := s.slotOf.length
    discoveries := s.cluster.discoveries
    seen := GroupVersionKind.sorted (Table.keys s.seen)
    reviews := plurals.map fun p => (p, s.cluster.reviews p)
    streams := plurals.map fun p => (p, s.cluster.streams p)
    stopping := s.shutdown }

end KindCache
