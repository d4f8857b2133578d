import KindCache.Kind
import KindCache.Watcher.Subscriber

/-!
# The watcher of one kind

A `Watcher` consumes one list-and-watch stream and keeps a store up to date.

* `Arrival` — an item of the stream: an event or a failure;
* `Watcher.receive` — one item: the store, the count of events and the state
  of recovery after it, and the changes it made;
* `Watcher.consume` — one batch: its items in order, and then one publication
  of the new store to readers and of the changes to subscribers;
* `Watcher.ingest` — everything that has arrived, in batches of bounded size,
  and the end of the watcher if its stream has ended or it was stopped;
* `Watcher.subscribe` — a new subscriber, which is first told of every object
  that is there.

Readers see the watcher between two batches only. It is in sync from the batch
on that holds the first relist, and then for ever.

The number of publications stays at the largest 64-bit number once it is there
(`lastEpoch`). The number of events is not bounded here, though it is kept in 64 bits
as well: it only grows by the events that have come, one by one, so at a million of
them each second it would take half a million years to come round.
-/

namespace KindCache

/-- An item of a list-and-watch stream. -/
inductive Arrival where
  | event (e : WatchEvent)
  /-- the stream failed but goes on; the text names the failure and its causes -/
  | fault (reason : String)
deriving Inhabited

/-- Whether an item is a full list. -/
def Arrival.isRelist : Arrival → Bool
  | .event (.relisted _) => true
  | _ => false

/-- The cache of one kind, fed by one stream. -/
structure Watcher where
  /-- what is watched -/
  resource : Resource
  /-- how many items one batch may hold; zero counts as one -/
  batchCap : Nat
  /-- whether a shutdown of the whole cache stops it -/
  tied : Bool
  /-- what has arrived and is not consumed yet, oldest first -/
  inbox : List Arrival
  /-- whether more may arrive -/
  streamOpen : Bool
  /-- whether it was asked to stop -/
  stopRequested : Bool
  /-- whether it still consumes its stream -/
  running : Bool
  /-- the objects -/
  store : Store
  /-- the number of publications -/
  epoch : Nat
  /-- the number of events consumed, failures not counted -/
  events : Nat
  /-- the failure since which no event has come -/
  degraded : Option String
  /-- whether a relist has been published -/
  synced : Bool
  /-- everyone who ever subscribed, oldest first -/
  subscribers : List Subscriber
  /-- the number of sends to subscribers -/
  dispatched : Nat

namespace Watcher

/-- A watcher at the start of its stream. -/
def starting (resource : Resource) (batchCap : Nat) (tied : Bool) (inbox : List Arrival) :
    Watcher :=
  { resource, batchCap, tied, inbox
    streamOpen := true, stopRequested := false, running := true
    store := .empty, epoch := 0, events := 0, degraded := none, synced := false
    subscribers := [], dispatched := 0 }

/-- The number of subscribers that are still sent to. -/
def subscriberCount (w : Watcher) : Nat :=
  w.subscribers.countP (·.registered)

/-! ## Consuming the stream -/

/-- Take in one item. -/
def receive (w : Watcher) : Arrival → Watcher × List Change
  | .event e =>
    let (store, changes) := w.store.apply e
    ({ w with store, events := w.events + 1, degraded := none }, changes)
  | .fault reason => ({ w with degraded := some reason }, [])

/-- Take in items in order; all their changes. -/
def receiveAll (w : Watcher) : List Arrival → Watcher × List Change
  | [] => (w, [])
  | a :: rest =>
    let (w, changes) := w.receive a
    let (w, more) := w.receiveAll rest
    (w, changes ++ more)

/-- The largest epoch; the count stays there. -/
def lastEpoch : Nat := UInt64.size - 1

/-- Show the store to readers and tell the subscribers what has changed. -/
def publish (w : Watcher) (changes : List Change) : Watcher :=
  { w with
    epoch := min (w.epoch + 1) lastEpoch
    subscribers := w.subscribers.map (·.send changes)
    dispatched := w.subscribers.foldl (fun n x => n + x.sends changes) w.dispatched }

/-- Take in one batch and publish it. -/
def consume (w : Watcher) (batch : List Arrival) : Watcher :=
  let (after, changes) := w.receiveAll batch
  { after.publish changes with synced := w.synced || batch.any Arrival.isRelist }

/-- The batches of a queue: as many items as the cap allows, but at least one. -/
def batches (cap : Nat) (items : List Arrival) : List (List Arrival) :=
  match items with
  | [] => []
  | a :: rest =>
    (a :: rest.take (cap - 1)) :: batches cap (rest.drop (cap - 1))
termination_by items.length
decreasing_by simp only [List.length_drop, List.length_cons]; omega

/-- Stop consuming: nobody is sent anything any more. -/
def finish (w : Watcher) : Watcher :=
  { w with running := false, inbox := [], subscribers := w.subscribers.map (·.release) }

/-- What a watcher says of a stream that came to its end. -/
def streamEnded : String := "watch stream ended"

/-- Do all that can be done now. A request to stop comes before what has
arrived, what has arrived before the end of the stream. -/
def ingest (w : Watcher) : Watcher :=
  if !w.running then w
  else if w.stopRequested then w.finish
  else
    let caughtUp := (batches w.batchCap w.inbox).foldl consume { w with inbox := [] }
    if w.streamOpen then caughtUp
    else { caughtUp with degraded := some streamEnded }.finish

/-- Whether a batch will be published when it does all that can be done now. -/
def publishes (w : Watcher) : Bool :=
  w.running && !w.stopRequested && !w.inbox.isEmpty

/-- Whether there is anything to do now. -/
def busy (w : Watcher) : Bool :=
  w.running && (w.stopRequested || !w.inbox.isEmpty || !w.streamOpen)

/-! ## What happens to a watcher from outside -/

/-- An item arrives, unless the stream is closed or nobody consumes it. -/
def arrive (w : Watcher) (items : List Arrival) : Watcher :=
  if w.running && w.streamOpen then { w with inbox := w.inbox ++ items } else w

/-- The stream ends. -/
def closeStream (w : Watcher) : Watcher :=
  { w with streamOpen := false }

/-- The watcher is asked to stop. -/
def stop (w : Watcher) : Watcher :=
  { w with stopRequested := true }

/-- A new subscriber. It is told of every object that is there, in ascending
order, and of all changes from then on. -/
def subscribe (w : Watcher) (name : String) (failsAt : Option Nat) : Watcher :=
  let replay := w.store.entries.map fun e => Change.added e.2
  { w with
    subscribers := w.subscribers ++ [.starting name failsAt replay]
    dispatched := w.dispatched + replay.length }

/-- All queues are delivered. -/
def drain (w : Watcher) : Watcher :=
  { w with subscribers := w.subscribers.map (·.drain) }

end Watcher

end KindCache
