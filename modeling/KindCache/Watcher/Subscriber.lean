import KindCache.Store.Change

/-!
# Subscribers

A `Subscriber` is told the changes of one kind, each through a queue of its
own, so that a slow or failing one holds back nobody.

A subscriber is kept with its whole history: what was put into its queue and
how much of that its callback has received. A callback may fail, which ends the
delivery for good; the watcher finds out when it next tries to send.
-/

namespace KindCache

/-- One receiver of changes and what it has been told. -/
structure Subscriber where
  /-- the name under which its caller knows it -/
  name : String
  /-- the callback fails on the change with this number, counted from one -/
  failsAt : Option Nat
  /-- everything put into its queue so far, in order -/
  sent : List Change
  /-- how much of that the callback has received -/
  delivered : Nat
  /-- whether the watcher still sends to it -/
  registered : Bool

namespace Subscriber

/-- A subscriber that begins with the given changes in its queue. -/
def starting (name : String) (failsAt : Option Nat) (replay : List Change) : Subscriber :=
  { name, failsAt, sent := replay, delivered := 0, registered := true }

/-- How many changes the callback can receive at all before it ends. -/
def reach (s : Subscriber) : Nat :=
  match s.failsAt with
  | some (k + 1) => min (k + 1) s.sent.length
  | _ => s.sent.length

/-- Whether the callback has not failed. -/
def alive (s : Subscriber) : Bool :=
  match s.failsAt with
  | some (k + 1) => s.delivered ≤ k
  | _ => true

/-- Whether nothing more will ever be delivered. -/
def closed (s : Subscriber) : Bool :=
  !s.alive || !s.registered

/-- The changes that the callback has received. -/
def received (s : Subscriber) : List Change :=
  s.sent.take s.delivered

/-- Send a batch of changes. A live subscriber gets them all; a failed one is
found out at the first of them and is no longer registered. -/
def send (changes : List Change) (s : Subscriber) : Subscriber :=
  if changes.isEmpty || !s.registered then s
  else if s.alive then { s with sent := s.sent ++ changes }
  else { s with registered := false }

/-- How many sends a batch of changes takes, the failed one included. -/
def sends (changes : List Change) (s : Subscriber) : Nat :=
  if changes.isEmpty || !s.registered then 0
  else if s.alive then changes.length
  else 1

/-- End the registration: what is in the queue is still delivered. -/
def release (s : Subscriber) : Subscriber :=
  { s with registered := false }

/-- Deliver what is in the queue, up to the change on which the callback
fails. -/
def drain (s : Subscriber) : Subscriber :=
  { s with delivered := max s.delivered s.reach }

end Subscriber

end KindCache
