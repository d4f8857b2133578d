import KindCache.Cache.Basic

/-!
# Metrics

The metrics of a cache under the names by which they are exported. A metric
that was never touched is not listed. A label stands in braces behind the name
of its metric.
-/

namespace KindCache

namespace Cache

/-- A metric with a label. -/
def labelled (name label value : String) : String :=
  name ++ "\x7b" ++ label ++ "=" ++ value ++ "\x7d"

/-- A counter, unless it was never touched. -/
def counter (name : String) (n : Nat) : List (String × Nat) :=
  if n = 0 then [] else [(name, n)]

/-- The number of sends to subscribers. -/
def dispatched (s : Cache) : Nat :=
  s.watchers.foldl (fun n w => n + w.dispatched) 0

/-- The counters of reviews, one for each right. -/
def reviewCounters (probes : Verb → Nat) : List (String × Nat) :=
  Verb.required.flatMap fun verb =>
    counter (labelled "cache_permission_probes_total" "verb" verb.text) (probes verb)

/-- The counters of a number of probes: each asks for every right once. -/
def probeCounters (probes : Nat) : List (String × Nat) :=
  reviewCounters fun _ => probes

/-- All metrics. -/
def metrics (s : Cache) : List (String × Nat) :=
  counter "cache_events_dispatched_total" s.dispatched ++
  counter "cache_get_retries_total" s.meters.retries ++
  s.meters.objects.map (fun (kind, n) => (labelled "cache_objects" "gvk" kind, n)) ++
  reviewCounters s.meters.probes ++
  counter "cache_sync_wait_ms" s.meters.syncWaits ++
  counter "cache_watchers_started_total" s.meters.watchersStarted

end Cache

end KindCache
