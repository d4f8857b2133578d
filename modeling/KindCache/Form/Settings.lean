import KindCache.Form.Record
import KindCache.Settings

/-!
# Settings as documents

A duration is a record of seconds and nanoseconds. Nanoseconds that make up
whole seconds are carried over; unlike in other records an unknown key is
refused.
-/

namespace KindCache

namespace Duration

/-- A duration as a document. -/
def toDocument (d : Duration) : Document :=
  .object [("secs", .integer d.secs.toNat), ("nanos", .integer d.nanos.val)]

/-- Whether a record of a duration has no key but its own. -/
def onlyOwnKeys : Document → Bool
  | .object fields => fields.all fun f => f.1 = "secs" || f.1 = "nanos"
  | _ => true

/-- The duration that a document stands for. -/
def ofDocument? (d : Document) : Option Duration := do
  if !onlyOwnKeys d then none
  let [secs, nanos] ← Form.record? ["secs", "nanos"] d | none
  let secs ← Form.required? (Document.natBelow? UInt64.size) secs
  let nanos ← Form.required? (Document.natBelow? UInt32.size) nanos
  ofNanos? (secs * 1000000000 + nanos)

end Duration

namespace Settings

/-- Settings as a document. -/
def toDocument (s : Settings) : Document :=
  .object [("get_attempts", .integer s.getAttempts.toNat),
    ("get_retry_delay", s.getRetryDelay.toDocument),
    ("event_queue_cap", .integer s.eventQueueCap.toNat),
    ("sync_timeout", Form.orNull Duration.toDocument s.syncTimeout)]

/-- The settings that a document stands for. -/
def ofDocument? (d : Document) : Option Settings := do
  let [attempts, delay, cap, timeout] ←
    Form.record? ["get_attempts", "get_retry_delay", "event_queue_cap", "sync_timeout"] d
      | none
  return {
    getAttempts := UInt32.ofNat (← Form.required? (Document.natBelow? UInt32.size) attempts)
    getRetryDelay := ← Form.required? Duration.ofDocument? delay
    eventQueueCap := UInt64.ofNat (← Form.required? (Document.natBelow? UInt64.size) cap)
    syncTimeout := ← Form.optional? Duration.ofDocument? timeout }

end Settings

end KindCache
