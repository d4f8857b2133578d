import KindCache.Decimal.Natural

/-!
# Durations

`Duration` is a length of time of 64-bit seconds and a fraction in nanoseconds.
Its text uses the largest of the units second, millisecond, microsecond and
nanosecond of which there is at least one, with a decimal fraction that does
not end in zeros: `1s`, `1.5s`, `250ms`, `30.001ms`, `500µs`, `0ns`.
-/

namespace KindCache

/-- A length of time. -/
structure Duration where
  /-- the whole seconds -/
  secs : UInt64
  /-- the nanoseconds beyond them -/
  nanos : Fin 1000000000
deriving DecidableEq, Repr

namespace Duration

/-- The duration of a number of nanoseconds, if its seconds fit. -/
def ofNanos? (n : Nat) : Option Duration :=
  let secs := n / 1000000000
  if secs < UInt64.size then
    some ⟨UInt64.ofNat secs, ⟨n % 1000000000, Nat.mod_lt n (by decide)⟩⟩
  else none

/-- A whole number of seconds. -/
def ofSecs (n : UInt64) : Duration :=
  ⟨n, 0⟩

/-- A number of milliseconds. -/
def ofMillis (n : UInt64) : Duration :=
  ⟨n / 1000, ⟨n.toNat % 1000 * 1000000, by omega⟩⟩

/-- A number of microseconds. -/
def ofMicros (n : UInt64) : Duration :=
  ⟨n / 1000000, ⟨n.toNat % 1000000 * 1000, by omega⟩⟩

/-- The duration in nanoseconds. -/
def toNanos (d : Duration) : Nat :=
  d.secs.toNat * 1000000000 + d.nanos.val

/-- The duration in milliseconds, rounded up: the tick of a millisecond clock
at which it is over. -/
def ticks (d : Duration) : Nat :=
  (d.toNanos + 999999) / 1000000

/-! ## The text of a duration -/

/-- `n` in `width` decimal places, without the zeros at the end. -/
def places (width n : Nat) : List Char :=
  let ds := Decimal.digits n
  let padded := List.replicate (width - ds.length) '0' ++ ds
  (padded.reverse.dropWhile (· = '0')).reverse

/-- A whole number of units and a fraction of them. -/
def inUnit (whole fraction width : Nat) (unit : String) : String :=
  let point := if fraction = 0 then [] else '.' :: places width fraction
  String.ofList (Decimal.digits whole ++ point) ++ unit

/-- The text of a duration. -/
def text (d : Duration) : String :=
  let n := d.nanos.val
  if d.secs ≠ 0 then inUnit d.secs.toNat n 9 "s"
  else if 1000000 ≤ n then inUnit (n / 1000000) (n % 1000000) 6 "ms"
  else if 1000 ≤ n then inUnit (n / 1000) (n % 1000) 3 "µs"
  else inUnit n 0 0 "ns"

end Duration

end KindCache
