import KindCache.Cache.Slots
import KindCache.Retry

/-!
# How a call proceeds

A call proceeds in legs. Between two legs it may have to wait, other calls and
watchers may run, and it may be dropped.

* `Cache.current` — one leg of the search for the watcher of a kind, and the
  answer if it ends there;
* `Cache.advance` — one leg of any call;
* `Cache.resume` — as many legs as a call can do at the moment.

A call for a kind that is running gets its watcher at once (`Cache.approach`).
Any other call takes part in the slot of its kind and, once it has its turn,
starts the kind unless a call before it has done so (`Cache.enter`): the kind is
resolved (`Cache.findResource`), the rights on its resource are probed one after
the other (`Cache.probeRights`), its stream is opened (`Cache.openStream`), and
the first relist is awaited (`Cache.awaitSync`). A failure at any of these points
ends the search and leaves the turn to the next call.

A read of one object that fails without being final is repeated after a pause
(`Cache.tryRead`). Each try is a leg of its own, so even in a pause of no length
others may run; a call that is resumed does not insist on that and goes on at once
(`Cache.goesOn`).

A call that waits for a relist looks at the watcher as it stands when the call is
resumed. If both the relist and the shutdown have come by then, it takes the relist
(`Cache.awaitSync`, `Cache.await`), where a select over the two may pick either.
`Watcher.Finds` has all that may be picked, and what the first relist means for those
who wait is stated for all of it.
-/

namespace KindCache

namespace Cache

/-! ## Reading with retries -/

/-- How often a read is tried. -/
def readTries (s : Cache) : Nat :=
  max s.settings.getAttempts.toNat 1

/-- The end of a read: the error of the last try, or the object if the query
still admits it. -/
def readOutcome (counted : Bool) (q : Query) (name : String) (retries : Nat)
    (result : Except CacheError Document) : Outcome :=
  match result with
  | .error e => .failed (if e.isNotFound then e else .exhausted q.text retries e)
  | .ok d =>
    match q.selector.filter fun sel => !sel.selects d.labels with
    | some sel =>
      .failed (.filteredOut (q.gvk.text ++ " " ++ (ObjectRef.of q.ns name).text) sel.text)
    | none => if counted then .counted d retries else .document d

/-- One try to read the object of a query from a watcher, whatever the query's
selector says. -/
def readOnce (s : Cache) (q : Query) (name : String) (w : WatcherId) :
    Except CacheError Document :=
  match s.watchers[w]? with
  | some watcher => watcher.get q.ns name none
  | none => .error .shuttingDown

/-- Try to read after `tries` tries that have failed, and pause if this one fails as
well and another one may help. -/
def tryRead (s : Cache) (c : CallId) (counted : Bool) (q : Query) (name : String)
    (w : WatcherId) (tries : Nat) : Cache :=
  let result := s.readOnce q name w
  if Retry.again s.readTries (tries + 1) (fun e => !e.isNotFound) result then
    let wake := s.now + s.settings.getRetryDelay.ticks
    s.setCall c (.pausing counted q name w (tries + 1) wake)
  else
    let meters := { s.meters with retries := s.meters.retries + tries }
    { s with meters }.complete c (readOutcome counted q name tries result)

/-! ## Using the watcher of a kind -/

/-- Go on with the watcher of the kind. -/
def serve (s : Cache) (c : CallId) (use : Use) (q : Query) (w : WatcherId) : Cache :=
  match use with
  | .handOut => s.complete c (.watcher w)
  | .list =>
    match s.watchers[w]? with
    | some watcher => s.complete c (.documents (watcher.list q.ns q.selector))
    | none => s.complete c (.documents [])
  | .subscribe name =>
    (s.modifyWatcher w fun watcher => watcher.subscribe name none).complete c .done
  | .get counted =>
    match q.name with
    | some name => s.tryRead c counted q name w 0
    | none => s.complete c .done

/-- Give up for want of a watcher. -/
def giveUp (s : Cache) (c : CallId) (use : Use) (q : Query) (e : CacheError) : Cache :=
  match use with
  | .handOut => s.complete c (.failed e)
  | _ => s.complete c (.failed (.unresolved q.text e))

/-- Use the answer to the search for a watcher, if there is one. -/
def conclude (s : Cache) (c : CallId) (use : Use) (q : Query) :
    Option (Except CacheError WatcherId) → Cache
  | none => s
  | some (.ok w) => s.serve c use q w
  | some (.error e) => s.giveUp c use q e

/-! ## Starting a kind -/

/-- The state after one leg of the search for a watcher, and the answer if that
was the last one. -/
abbrev Leg := Cache × Option (Except CacheError WatcherId)

/-- End the turn of a call with an answer. -/
def leave (s : Cache) (t : Ticket) (answer : Except CacheError WatcherId) : Leg :=
  (s.leaveSlot t, some answer)

/-- The error of a relist that did not come in time. -/
def timedOut (s : Cache) (kind : String) : CacheError :=
  let limit := (s.settings.syncTimeout.map Duration.text).getD ""
  .transient ("timed out after " ++ limit ++ " waiting for " ++ kind ++ " to sync")

/-- Note that a kind was started on a stream. -/
def markSeen (s : Cache) (g : GroupVersionKind) (name : String) : Cache :=
  { s with
    seen := Table.put g name s.seen
    meters := { s.meters with syncWaits := s.meters.syncWaits + 1 } }

/-- Go on if the first relist is there, and wait until the deadline if it is
not. A relist that is there comes before a shutdown, and both come before the
deadline. -/
def awaitSync (s : Cache) (c : CallId) (t : Ticket) (w : WatcherId)
    (deadline : Option Nat) : Leg :=
  match s.watchers[w]? with
  | none => s.leave t (.error .shuttingDown)
  | some watcher =>
    match watcher.syncStatus s.shutdown with
    | .reached => (s.markSeen t.query.gvk watcher.resource.streamName).leave t (.ok w)
    | .failed e => s.leave t (.error e)
    | .waiting =>
      if deadline.any (· ≤ s.now) then s.leave t (.error (s.timedOut watcher.kindText))
      else (s.setCall c (.syncing t w deadline), none)

/-- Open the stream of a resource, or use the one that is running, and wait for
its relist from now on. -/
def openStream (s : Cache) (c : CallId) (t : Ticket) (r : Resource) : Leg :=
  let (s, w) := s.watcherFor r
  s.awaitSync c t w (s.settings.syncTimeout.map fun limit => s.now + limit.ticks)

/-- Ask for one right on a resource. -/
def review (s : Cache) (r : Resource) (verb : Verb) : Cache × Bool :=
  let (cluster, allowed) := s.cluster.review r verb
  let probes := override s.meters.probes verb (s.meters.probes verb + 1)
  ({ s with cluster, meters := { s.meters with probes } }, allowed)

/-- Ask for the next right, or open the stream if all were asked for and are
granted. -/
def probeRights (s : Cache) (c : CallId) (t : Ticket) (r : Resource) (access : Access) :
    List Verb → Leg
  | verb :: left =>
    let (s, allowed) := s.review r verb
    (s.setCall c (.probing t r (access.record verb allowed) left), none)
  | [] =>
    match access.ensure r.plural with
    | .error e => s.leave t (.error e)
    | .ok () => s.openStream c t r

/-- Resolve a kind now. A kind that the last listing lacked is not looked up again
until the miss has grown old. -/
def resolveKind (s : Cache) (g : GroupVersionKind) : Cache × Except CacheError Resource :=
  let (cluster, registry, result) := s.cluster.resolve s.registry s.now g
  ({ s with registry, cluster }, result)

/-- Ask for the resource of the kind. -/
def findResource (s : Cache) (c : CallId) (t : Ticket) : Leg :=
  let (s, resolved) := s.resolveKind t.query.gvk
  match resolved with
  | .error e => s.leave t (.error e)
  | .ok r => (s.setCall c (.probing t r .denied Verb.required), none)

/-- Use the turn: the kind may have been started in the meantime. -/
def enter (s : Cache) (c : CallId) (t : Ticket) : Leg :=
  match s.seenWatcher? t.query.gvk with
  | some w => s.leave t (.ok w)
  | none => (s.setCall c (.resolving t), none)

/-- Look for the watcher of a kind. -/
def approach (s : Cache) (c : CallId) (use : Use) (q : Query) : Leg :=
  match s.seenWatcher? q.gvk with
  | some w => (s, some (.ok w))
  | none =>
    if s.shutdown then (s, some (.error .shuttingDown))
    else (s.enqueue c use q, none)

/-- One leg of the search for the watcher of a kind. -/
def current (s : Cache) (c : CallId) : Leg :=
  match s.call c with
  | .fresh (.use use q) => s.approach c use q
  | .queued t => if s.hasTurn c t.slot then s.enter c t else (s, none)
  | .resolving t => s.findResource c t
  | .probing t r access left => s.probeRights c t r access left
  | .syncing t w deadline => s.awaitSync c t w deadline
  | _ => (s, none)

/-! ## Waiting for one watcher -/

/-- Wait until a watcher is in sync. A relist that is there comes before a
shutdown. -/
def await (s : Cache) (c : CallId) (w : WatcherId) : Cache :=
  match s.watchers[w]? with
  | none => s.complete c (.failed .shuttingDown)
  | some watcher =>
    match watcher.syncStatus s.shutdown with
    | .reached => s.complete c .done
    | .failed e => s.complete c (.failed e)
    | .waiting => s.setCall c (.waiting w)

/-! ## All of it -/

/-- The complaint about a read without a name. -/
def nameless (q : Query) : CacheError :=
  .resolution ("get requires a name: " ++ q.text)

/-- Whether a call is a read without a name. -/
def lacksName : Use → Query → Bool
  | .get _, q => q.name.isNone
  | _, _ => false

/-- Look for the watcher of a kind, and use it once it is there. -/
def proceed (s : Cache) (c : CallId) (use : Use) (q : Query) : Cache :=
  let (s, answer) := s.current c
  s.conclude c use q answer

/-- One leg of a call. A call whose time has not come stays where it is. -/
def advance (s : Cache) (c : CallId) : Cache :=
  match s.call c with
  | .fresh (.sync w) => s.await c w
  | .fresh (.use use q) =>
    if lacksName use q then s.complete c (.failed (nameless q)) else s.proceed c use q
  | .queued t => s.proceed c t.use t.query
  | .resolving t => s.proceed c t.use t.query
  | .probing t .. => s.proceed c t.use t.query
  | .syncing t .. => s.proceed c t.use t.query
  | .pausing counted q name w tries wake =>
    if wake ≤ s.now then s.tryRead c counted q name w tries else s
  | .waiting w => s.await c w
  | .over => s

/-- Whether a call can do another leg at once. The cluster in memory never lets
it wait for an answer, and a pause of no length is over when it begins. -/
def goesOn (s : Cache) (c : CallId) : Bool :=
  match s.call c with
  | .queued t => s.hasTurn c t.slot
  | .resolving _ => true
  | .probing .. => true
  | .pausing _ _ _ _ _ wake => wake ≤ s.now
  | _ => false

/-- Do up to a number of further legs of a call. -/
def legs : Nat → Cache → CallId → Cache
  | 0, s, _ => s
  | n + 1, s, c => if s.goesOn c then legs n (s.advance c) c else s

/-- Take a call as far as it gets: into its slot, through the questions for the
resource and for each of the three rights, to the stream, and through all tries
between which there is no time. -/
def resume (s : Cache) (c : CallId) : Cache :=
  legs (6 + s.readTries) (s.advance c) c

/-- Drop a call. Its turn is passed on; it never reports. -/
def cancel (s : Cache) (c : CallId) : Cache :=
  match (s.call c).slot? with
  | some i => (s.setCall c .over).dropFromSlot c i
  | none => s.setCall c .over

end Cache

end KindCache
