import KindCache.Error
import KindCache.Kind
import KindCache.Query

/-!
# Calls

A call is a request to the cache that may have to wait: for its turn, for a
relist or for time to pass. It is kept as the point that it has reached, so
that it can be resumed or dropped there.

* `Request` — what is asked for;
* `Ticket` — what a call needs to remember while it takes part in a first-touch
  slot;
* `Call` — how far the request has come;
* `Outcome` — how it ended.
-/

namespace KindCache

/-- The number of a watcher: watchers are never forgotten, and keep their
number. -/
abbrev WatcherId := Nat

/-- The number of a call. -/
abbrev CallId := Nat

/-- The number of a first-touch slot. -/
abbrev SlotId := Nat

/-- What a request does with the watcher of its kind. -/
inductive Use where
  /-- list the objects of the query -/
  | list
  /-- read the object of the query, and tell how often the read was retried if
  `counted` -/
  | get (counted : Bool)
  /-- register a subscriber -/
  | subscribe (name : String)
  /-- hand out the watcher itself -/
  | handOut
deriving DecidableEq

/-- What is asked for. -/
inductive Request where
  /-- use the watcher of the kind of a query -/
  | use (use : Use) (query : Query)
  /-- wait until a given watcher is in sync -/
  | sync (watcher : WatcherId)

/-- A share in a first-touch slot. -/
structure Ticket where
  /-- what will be done with the watcher -/
  use : Use
  /-- the query, whose kind the slot is for -/
  query : Query
  /-- the slot -/
  slot : SlotId

/-- The point that a request has reached. -/
inductive Call where
  /-- nothing has been done -/
  | fresh (request : Request)
  /-- it waits for its turn in the slot, or has got it and not used it yet -/
  | queued (ticket : Ticket)
  /-- it has its turn and asks which resource serves the kind -/
  | resolving (ticket : Ticket)
  /-- it has its turn and asks for the rights on a resource: those granted so
  far, and those still to be asked for -/
  | probing (ticket : Ticket) (resource : Resource) (access : Access) (left : List Verb)
  /-- it has its turn and waits for the relist of a watcher -/
  | syncing (ticket : Ticket) (watcher : WatcherId) (deadline : Option Nat)
  /-- it has tried to read, and will do so again at a later time -/
  | pausing (counted : Bool) (query : Query) (name : String) (watcher : WatcherId)
      (tries wake : Nat)
  /-- it waits for the relist of a given watcher, outside of any slot -/
  | waiting (watcher : WatcherId)
  /-- it has ended or was dropped -/
  | over

/-- How a call ended. -/
inductive Outcome where
  | documents (ds : List Document)
  | document (d : Document)
  /-- a document and the number of retries that it took -/
  | counted (d : Document) (retries : Nat)
  | watcher (w : WatcherId)
  /-- nothing to report but success -/
  | done
  | failed (e : CacheError)

/-- The end of a call. -/
structure Completion where
  /-- the call -/
  call : CallId
  /-- how it ended -/
  outcome : Outcome
  /-- when, in milliseconds -/
  time : Nat

namespace Call

/-- The share that a call has in a first-touch slot. -/
def ticket? : Call → Option Ticket
  | .queued t => some t
  | .resolving t => some t
  | .probing t .. => some t
  | .syncing t .. => some t
  | _ => none

/-- The slot that a call takes part in. -/
def slot? (call : Call) : Option SlotId :=
  call.ticket?.map (·.slot)

/-- The share of a call that is starting its kind: it has its turn, and nobody
has started the kind before. -/
def starting? : Call → Option Ticket
  | .resolving t => some t
  | .probing t .. => some t
  | .syncing t .. => some t
  | _ => none

/-- What a call that still looks for the watcher of a kind is to do with it, and
the query. -/
def errand? : Call → Option (Use × Query)
  | .fresh (.use use q) => some (use, q)
  | call => call.ticket?.map fun t => (t.use, t.query)

/-- The kind whose watcher a call looks for. -/
def kind? (call : Call) : Option GroupVersionKind :=
  call.errand?.map (·.2.gvk)

/-- Whether a call may still report. -/
def live : Call → Bool
  | .over => false
  | _ => true

end Call

end KindCache
