/-!
# Retrying with a fixed delay

An operation is tried again as long as its error may pass and the budget of
tries is not used up, with the same pause between any two tries.

* `Retry.again` — the decision after one try;
* `Retry.run` — the whole course for an operation whose `i`-th try is known.

A budget of zero tries counts as one: the operation is always tried once.
-/

namespace KindCache.Retry

variable {α ε : Type}

/-- Whether to try again after the try number `tries` (from one) came out as
`outcome`. -/
def again (attempts tries : Nat) (mayPass : ε → Bool) (outcome : Except ε α) : Bool :=
  match outcome with
  | .ok _ => false
  | .error e => mayPass e && tries < max attempts 1

/-- How a retried operation ended, and what it took. -/
structure Retried (ε α : Type) where
  /-- what the last try gave -/
  result : Except ε α
  /-- how often the operation was called -/
  calls : Nat
  /-- how often another try was announced -/
  retries : Nat
  /-- how many pauses were made -/
  pauses : Nat

/-- An operation that is called once. -/
def Retried.once (result : Except ε α) : Retried ε α :=
  { result, calls := 1, retries := 0, pauses := 0 }

/-- The same course after one more try, its announcement and the pause. -/
def Retried.oneMore (r : Retried ε α) : Retried ε α :=
  { r with calls := r.calls + 1, retries := r.retries + 1, pauses := r.pauses + 1 }

/-- The tries from number `i` (from zero) on, of which at most `budget` more may
follow. -/
def runFrom (attempts : Nat) (op : Nat → Except ε α) (mayPass : ε → Bool) :
    Nat → Nat → Retried ε α
  | 0, i => .once (op i)
  | budget + 1, i =>
    if again attempts (i + 1) mayPass (op i) then
      (runFrom attempts op mayPass budget (i + 1)).oneMore
    else .once (op i)

/-- Try an operation up to `attempts` times. -/
def run (attempts : Nat) (op : Nat → Except ε α) (mayPass : ε → Bool) : Retried ε α :=
  runFrom attempts op mayPass (attempts - 1) 0

/-- The time spent in pauses of a given length. -/
def Retried.waited (r : Retried ε α) (delay : Nat) : Nat :=
  r.pauses * delay

end KindCache.Retry
