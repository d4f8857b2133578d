import KindCache.Cache.Outside

/-!
# Scheduling

Watchers and calls are tasks of one queue. What makes a task ready puts it at
the end of the queue; the task at the front runs as far as it gets.

* `Cache.ready` — whether a task would get any further now, a property of the
  state alone;
* `Cache.settle` — run all ready tasks, and those they make ready, until none
  is left;
* `Cache.pass` — let time pass one millisecond at a time, with all tasks run
  after each.

When one event makes several tasks ready, watchers come before calls, each in
the order of their numbers. So a watcher that was stopped has ended before a
call that waits for its turn can start the kind anew.
-/

namespace KindCache

/-- Something that runs. -/
inductive Task where
  /-- a watcher consumes its stream -/
  | ingest (w : WatcherId)
  /-- a call is resumed -/
  | resume (c : CallId)
deriving DecidableEq

namespace Cache

/-- Whether the relist that a call waits for has been settled. -/
def syncSettled (s : Cache) (w : WatcherId) : Bool :=
  match s.watchers[w]? with
  | some watcher => watcher.syncStatus s.shutdown ≠ .waiting
  | none => true

/-- Whether a call would get any further now. -/
def callReady (s : Cache) (c : CallId) : Bool :=
  match s.call c with
  | .fresh _ => true
  | .queued t => s.hasTurn c t.slot
  | .resolving _ => true
  | .probing .. => true
  | .syncing _ w deadline => s.syncSettled w || deadline.any (· ≤ s.now)
  | .pausing _ _ _ _ _ wake => wake ≤ s.now
  | .waiting w => s.syncSettled w
  | .over => false

/-- Whether a watcher has anything to do now. -/
def watcherReady (s : Cache) (w : WatcherId) : Bool :=
  match s.watchers[w]? with
  | some watcher => watcher.busy
  | none => false

/-- Whether a task would get any further now. -/
def ready (s : Cache) : Task → Bool
  | .ingest w => s.watcherReady w
  | .resume c => s.callReady c

/-- All tasks that would get any further now. -/
def readyTasks (s : Cache) : List Task :=
  ((List.range s.watchers.length).filter s.watcherReady).map .ingest ++
    ((List.range s.calls.length).filter s.callReady).map .resume

/-- Run a task. -/
def run (s : Cache) : Task → Cache
  | .ingest w => s.ingest w
  | .resume c => s.resume c

/-- Run the tasks of a queue, and behind them those that become ready. -/
def runQueue : Nat → Cache → List Task → Cache
  | 0, s, _ => s
  | _, s, [] => s
  | fuel + 1, s, task :: queue =>
    let s := s.run task
    runQueue fuel s (queue ++ s.readyTasks.filter fun t => !queue.contains t)

/-- A bound on the number of runs without time passing. A call gets further at
most four times, and each watcher runs once, those that calls open included. -/
def runBound (s : Cache) : Nat :=
  5 * s.calls.length + s.watchers.length + 1

/-- Run everything that can run. -/
def settle (s : Cache) : Cache :=
  runQueue s.runBound s s.readyTasks

/-- Let a number of milliseconds pass. -/
def pass : Nat → Cache → Cache
  | 0, s => s
  | n + 1, s => pass n s.tick.settle

end Cache

end KindCache
