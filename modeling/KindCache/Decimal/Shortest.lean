import KindCache.Decimal.Binary64
import KindCache.Decimal.Natural

/-!
# The shortest decimal that reads back

A floating-point number is printed with the fewest digits that still name it
among all numbers of its format:

* `Binary64.Interval` — the decimals that round to a given number;
* `Binary64.shortest` — the coarsest power of ten with a multiple inside that
  interval, and of the multiples there the one nearest to the number;
* `Binary64.text` — that decimal as a text, positional within a window of
  magnitudes and with an exponent outside of it.

Everything is decided in exact arithmetic on natural numbers.
-/

namespace KindCache.Decimal

namespace Binary64

/-- The decimals that round to a number, in units of a quarter of its last bit.
The ends belong to it when the significand is even. -/
structure Interval where
  /-- the lower end -/
  lower : Nat
  /-- the number itself -/
  centre : Nat
  /-- the upper end -/
  upper : Nat
  /-- whether the ends round to the number too -/
  closed : Bool
  /-- the power of two of the unit -/
  unit : Int

/-- The interval of a positive number: half a last bit to both sides, but only
a quarter downwards where the next smaller number has a finer last bit. -/
def interval (x : Binary64) : Interval :=
  let m := x.significand
  let fine := m = Nat.pow 2 (precision - 1) && leastExponent < x.exponent
  { lower := if fine then 4 * m - 1 else 4 * m - 2
    centre := 4 * m
    upper := 4 * m + 2
    closed := m % 2 = 0
    unit := x.exponent - 2 }

/-- Two quotients `n * 2 ^ p` and `d * 10 ^ k` brought to natural numbers of the
same unit: the factors by which `n` and `d` are multiplied. -/
def factors (p k : Int) : Nat × Nat :=
  (Nat.pow 2 p.toNat * Nat.pow 10 (-k).toNat, Nat.pow 2 (-p).toNat * Nat.pow 10 k.toNat)

/-- The multiple of `10 ^ k` in the interval that is nearest to its centre, if
there is one; of two equally near the even one. -/
def Interval.multiple? (i : Interval) (k : Int) : Option Nat :=
  let (f, g) := factors i.unit k
  let centre := i.centre * f
  let inside (d : Nat) : Bool :=
    if i.closed then i.lower * f ≤ d * g && d * g ≤ i.upper * f
    else i.lower * f < d * g && d * g < i.upper * f
  let below := centre / g
  let above := below + 1
  match inside below, inside above with
  | false, false => none
  | true, false => some below
  | false, true => some above
  | true, true =>
    let down := centre - below * g
    let up := above * g - centre
    if down < up || (down = up && below % 2 = 0) then some below else some above

/-- The first hit on the grids `10 ^ k`, `10 ^ (k - 1)`, … -/
def Interval.search (i : Interval) : Nat → Int → Nat × Int
  | 0, k => (i.centre, k)
  | tries + 1, k =>
    match i.multiple? k with
    | some d => (d, k)
    | none => i.search tries (k - 1)

/-- A power of ten above a positive number: its bit length times a little more
than the decimal logarithm of two. -/
def powerAbove (x : Binary64) : Int :=
  ((x.significand.log2 : Int) + 1 + x.exponent) * 30103 / 100000 + 1

/-- The shortest decimal `d * 10 ^ k` that rounds to a positive number. Twenty
grids are enough: seventeen digits always name the number. -/
def shortest (x : Binary64) : Nat × Int :=
  x.interval.search 20 x.powerAbove

/-- How the digits of a number are laid out. -/
structure Layout where
  /-- the decimal point stands to the right of this place … -/
  after : Int
  /-- … and at most at this place; else an exponent is written -/
  upTo : Int

/-- The layout of a decimal with digits `ds` whose last one stands for
`10 ^ k`. The place of the point is counted from the left of the digits. -/
def layOut (form : Layout) (ds : List Char) (k : Int) : List Char :=
  let point := ds.length + k
  if 0 ≤ k && point ≤ form.upTo then
    ds ++ List.replicate k.toNat '0' ++ ['.', '0']
  else if 0 < point && point ≤ form.upTo then
    ds.take point.toNat ++ '.' :: ds.drop point.toNat
  else if form.after < point && point ≤ 0 then
    '0' :: '.' :: List.replicate (-point).toNat '0' ++ ds
  else
    let mantissa := if ds.length = 1 then ds else ds.take 1 ++ '.' :: ds.drop 1
    mantissa ++ 'e' :: integerDigits (point - 1)

/-- The text of a number: its shortest decimal, with a fraction in positional
layout, so that it is never mistaken for an integer. -/
def text (form : Layout) (x : Binary64) : List Char :=
  let magnitude :=
    if x.significand = 0 then ['0', '.', '0']
    else
      let (d, k) := x.shortest
      layOut form (digits d) k
  if x.negative then '-' :: magnitude else magnitude

end Binary64

end KindCache.Decimal
