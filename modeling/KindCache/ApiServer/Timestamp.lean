import KindCache.Decimal.Natural

/-!
# Timestamps

Metadata carries points in time as texts, in any offset from universal time and
with any number of fractional digits. They are stored in one form:

* `Timestamp.read?` — a point in time from its text;
* `Timestamp.text` — its text in universal time, with no fraction, or with
  three, six or nine digits, whatever is enough.
-/

namespace KindCache.ApiServer

/-- A point in time. -/
structure Timestamp where
  /-- the day, counted from the first of January 1970 -/
  day : Int
  /-- the minute of the day -/
  minute : Nat
  /-- the second of the minute; sixty in a leap second -/
  second : Nat
  /-- the nanosecond of the second -/
  nanos : Nat
deriving DecidableEq, Repr

namespace Timestamp

/-! ## The calendar -/

/-- Whether a year has a leap day. -/
def isLeap (y : Int) : Bool :=
  y % 4 = 0 && (y % 100 ≠ 0 || y % 400 = 0)

/-- The number of days of a month. -/
def monthLength (y : Int) (m : Nat) : Nat :=
  if m = 2 then (if isLeap y then 29 else 28)
  else if m = 4 ∨ m = 6 ∨ m = 9 ∨ m = 11 then 30
  else 31

/-- The day of a date. Years are taken to begin in March, so that the leap day
is the last one, and come in cycles of four hundred. -/
def dayOf (y : Int) (m d : Nat) : Int :=
  let y := if m ≤ 2 then y - 1 else y
  let cycle := y / 400
  let yearOfCycle := y - cycle * 400
  let monthFromMarch : Int := if m > 2 then m - 3 else m + 9
  let dayOfYear := (153 * monthFromMarch + 2) / 5 + d - 1
  let dayOfCycle := yearOfCycle * 365 + yearOfCycle / 4 - yearOfCycle / 100 + dayOfYear
  cycle * 146097 + dayOfCycle - 719468

/-- The date of a day. -/
def dateOf (day : Int) : Int × Nat × Nat :=
  let z := day + 719468
  let cycle := z / 146097
  let dayOfCycle := z - cycle * 146097
  let yearOfCycle :=
    (dayOfCycle - dayOfCycle / 1460 + dayOfCycle / 36524 - dayOfCycle / 146096) / 365
  let dayOfYear := dayOfCycle - (365 * yearOfCycle + yearOfCycle / 4 - yearOfCycle / 100)
  let monthFromMarch := (5 * dayOfYear + 2) / 153
  let d := dayOfYear - (153 * monthFromMarch + 2) / 5 + 1
  let m := if monthFromMarch < 10 then monthFromMarch + 3 else monthFromMarch - 9
  let y := yearOfCycle + cycle * 400
  (if m ≤ 2 then y + 1 else y, m.toNat, d.toNat)

/-! ## Reading -/

/-- A number of exactly `width` digits in front of a text. -/
def fixed? (width : Nat) (cs : List Char) : Option (Nat × List Char) := do
  if cs.length < width then none
  return (← Decimal.read? (cs.take width), cs.drop width)

/-- The text behind a given character. -/
def behind? (c : Char) : List Char → Option (List Char)
  | d :: rest => if d = c then some rest else none
  | [] => none

/-- A fraction of a second in nanoseconds; further digits are cut off. -/
def readFraction? (cs : List Char) : Option (Nat × List Char) :=
  match cs with
  | '.' :: rest => do
    let ds := rest.takeWhile fun c => '0' ≤ c ∧ c ≤ '9'
    if ds.isEmpty then none
    let nine := ds.take 9 ++ List.replicate (9 - ds.length) '0'
    return (← Decimal.read? nine, rest.drop ds.length)
  | cs => some (0, cs)

/-- An offset from universal time in minutes. -/
def readOffset? (cs : List Char) : Option Int :=
  match cs with
  | ['Z'] | ['z'] => some 0
  | sign :: rest => do
    if sign ≠ '+' ∧ sign ≠ '-' then none
    let (h, rest) ← fixed? 2 rest
    let rest ← behind? ':' rest
    let (m, rest) ← fixed? 2 rest
    if rest ≠ [] ∨ 24 ≤ h ∨ 60 ≤ m then none
    let offset : Int := h * 60 + m
    return if sign = '-' then -offset else offset
  | [] => none

/-- A point in time from its text. -/
def read? (s : String) : Option Timestamp := do
  let (y, cs) ← fixed? 4 s.toList
  let (mo, cs) ← fixed? 2 (← behind? '-' cs)
  let (d, cs) ← fixed? 2 (← behind? '-' cs)
  let sep :: cs := cs | none
  if sep ≠ 'T' ∧ sep ≠ 't' ∧ sep ≠ ' ' then none
  let (h, cs) ← fixed? 2 cs
  let (mi, cs) ← fixed? 2 (← behind? ':' cs)
  let (sec, cs) ← fixed? 2 (← behind? ':' cs)
  let (nanos, cs) ← readFraction? cs
  let offset ← readOffset? cs
  if mo = 0 ∨ 12 < mo ∨ d = 0 ∨ monthLength y mo < d then none
  if 24 ≤ h ∨ 60 ≤ mi ∨ 60 < sec then none
  let minutes : Int := h * 60 + mi - offset
  return {
    day := dayOf y mo d + minutes / 1440
    minute := (minutes % 1440).toNat
    second := sec
    nanos }

/-! ## Writing -/

/-- A number in at least `width` digits. -/
def padded (width n : Nat) : List Char :=
  let ds := Decimal.digits n
  List.replicate (width - ds.length) '0' ++ ds

/-- A year: four digits, or a sign and at least four. -/
def yearText (y : Int) : List Char :=
  if 0 ≤ y ∧ y ≤ 9999 then padded 4 y.toNat
  else (if y < 0 then '-' else '+') :: padded 4 y.natAbs

/-- The fraction of a second. -/
def fractionText (nanos : Nat) : List Char :=
  if nanos = 0 then []
  else if nanos % 1000000 = 0 then '.' :: padded 3 (nanos / 1000000)
  else if nanos % 1000 = 0 then '.' :: padded 6 (nanos / 1000)
  else '.' :: padded 9 nanos

/-- The text of a point in time. -/
def text (t : Timestamp) : String :=
  let (y, m, d) := dateOf t.day
  String.ofList (yearText y ++ '-' :: padded 2 m ++ '-' :: padded 2 d ++
    'T' :: padded 2 (t.minute / 60) ++ ':' :: padded 2 (t.minute % 60) ++
    ':' :: padded 2 t.second ++ fractionText t.nanos ++ ['Z'])

end Timestamp

end KindCache.ApiServer
