import KindCache.Cache.Basic

/-!
# First-touch slots

Calls that start one kind take turns, in the order in which they came; calls
for other kinds do not wait for them.

* `Cache.enqueue` — share the slot of a kind, and take the turn or a place in
  the queue;
* `Cache.shares` — how many hold on to a slot: the table of slots, and the calls
  that take part in it;
* `Cache.leaveSlot` — the end of a turn: the next call has its turn. The last
  call through takes the slot off the table, so that the next call for the kind
  makes a new one;
* `Cache.dropFromSlot` — a call is dropped: the next call has its turn if the
  dropped one had it. The slot stays on the table, even if nobody is left in it.

What a call does between two points at which it waits is one step. At the end of a
turn it counts who holds on to the slot, passes the turn on, and lets go of the slot
itself, and nothing comes in between. On several threads another call may do its own
count between the last two: it then finds one holder more than there will be, and
leaves the slot on the table.
-/

namespace KindCache

namespace Slot

/-- A slot that nobody has entered. -/
def free : Slot :=
  ⟨none, []⟩

/-- A call takes the turn if nobody has it, else a place at the end of the
queue. -/
def join (slot : Slot) (c : CallId) : Slot :=
  match slot.holder with
  | none => { slot with holder := some c }
  | some _ => { slot with waiting := slot.waiting ++ [c] }

/-- Give the turn to the next call, if there is one. -/
def passOn (slot : Slot) : Slot :=
  { slot with holder := slot.waiting.head?, waiting := slot.waiting.drop 1 }

/-- A call goes away in the middle of its turn or of its wait. -/
def without (slot : Slot) (c : CallId) : Slot :=
  if slot.holder = some c then slot.passOn
  else { slot with waiting := slot.waiting.filter (· ≠ c) }

end Slot

namespace Cache

/-- Change a slot. -/
def modifySlot (s : Cache) (i : SlotId) (f : Slot → Slot) : Cache :=
  { s with slots := s.slots.modify i f }

/-- Whether a call has its turn in a slot. -/
def hasTurn (s : Cache) (c : CallId) (i : SlotId) : Bool :=
  match s.slots[i]? with
  | some slot => slot.holder = some c
  | none => false

/-- The slot that the calls for a kind share. -/
def sharedSlot (s : Cache) (g : GroupVersionKind) : Cache × SlotId :=
  match s.slotOf.lookup g with
  | some i => (s, i)
  | none =>
    ({ s with
        slots := s.slots ++ [.free]
        slotOf := Table.put g s.slots.length s.slotOf }, s.slots.length)

/-- Let a call take part in the slot of the kind of its query. -/
def enqueue (s : Cache) (c : CallId) (use : Use) (q : Query) : Cache :=
  let (s, i) := s.sharedSlot q.gvk
  (s.modifySlot i (·.join c)).setCall c (.queued ⟨use, q, i⟩)

/-- How many hold on to a slot. -/
def shares (s : Cache) (i : SlotId) : Nat :=
  s.slotOf.countP (·.2 = i) + s.calls.countP (·.slot? = some i)

/-- Whether the holder of a ticket is the last call that takes part in its slot,
and the slot is the one on the table. -/
def lastThrough (s : Cache) (t : Ticket) : Bool :=
  s.slotOf.lookup t.query.gvk = some t.slot && s.shares t.slot = 2

/-- Take the slot of a kind off the table. -/
def retireSlot (s : Cache) (g : GroupVersionKind) : Cache :=
  { s with slotOf := s.slotOf.filter fun e => e.1 ≠ g }

/-- End a turn. The call itself still holds its ticket. -/
def leaveSlot (s : Cache) (t : Ticket) : Cache :=
  let s := if s.lastThrough t then s.retireSlot t.query.gvk else s
  s.modifySlot t.slot Slot.passOn

/-- Drop a call from its slot. -/
def dropFromSlot (s : Cache) (c : CallId) (i : SlotId) : Cache :=
  s.modifySlot i (·.without c)

end Cache

end KindCache
