import KindCache.Duration

/-!
# Settings of the cache

`Settings` are the knobs of a cache, `Settings.standard` their defaults and
`Settings.ofEnvironment` the settings of a process: a variable that is unset or
not a number in its range leaves the default in place, and a count of zero is
raised to one.
-/

namespace KindCache

/-- The knobs of a cache. -/
structure Settings where
  /-- how often a read is tried, the first try included -/
  getAttempts : UInt32
  /-- the pause between two tries -/
  getRetryDelay : Duration
  /-- how many queued items one batch of a watcher may hold -/
  eventQueueCap : UInt64
  /-- how long the first relist is awaited; without limit if not given -/
  syncTimeout : Option Duration
deriving DecidableEq, Repr

namespace Settings

/-- The defaults. -/
def standard : Settings :=
  { getAttempts := 3
    getRetryDelay := .ofSecs 1
    eventQueueCap := 2048
    syncTimeout := none }

/-- A number of 32 bits from the environment. -/
def word32? (s : String) : Option UInt32 :=
  (Decimal.readBelow? UInt32.size s.toList).map UInt32.ofNat

/-- A number of 64 bits from the environment. -/
def word64? (s : String) : Option UInt64 :=
  (Decimal.readBelow? UInt64.size s.toList).map UInt64.ofNat

/-- The settings that the variables of an environment ask for. -/
def ofEnvironment (env : String → Option String) : Settings :=
  let attempts := (env "ORKA_GET_ATTEMPTS").bind word32?
  let delay := (env "ORKA_GET_RETRY_DELAY_MS").bind word64?
  let cap := (env "ORKA_EVENT_QUEUE_CAP").bind word64?
  let timeout := (env "ORKA_SYNC_TIMEOUT_SECS").bind word64?
  { getAttempts := max 1 (attempts.getD standard.getAttempts)
    getRetryDelay := (delay.map Duration.ofMillis).getD standard.getRetryDelay
    eventQueueCap := max 1 (cap.getD standard.eventQueueCap)
    syncTimeout := timeout.map Duration.ofSecs }

end Settings

end KindCache
