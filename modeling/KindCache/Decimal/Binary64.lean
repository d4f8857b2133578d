/-!
# Finite binary64 numbers

The finite numbers of the 64-bit binary floating-point format, kept as sign,
significand and exponent instead of as a bit pattern, so that rounding and
printing are exact arithmetic on natural numbers:

* `Binary64` — `significand * 2 ^ exponent` with a sign; zero has both signs;
* `Binary64.ofRatio?` — the number nearest to a quotient, a tie going to the
  even significand; `none` beyond the largest number;
* `Binary64.mul?`, `Binary64.div?` — the rounded product and quotient.

Each number has one representation (`Binary64.Normal`): the exponent is as
small as 53 significand bits and the least exponent allow. Equality of the
structures is therefore equality of the numbers, the sign of zero included;
`Binary64.sameValue` forgets that sign.
-/

namespace KindCache.Decimal

/-- A finite floating-point number of 64 bits. -/
structure Binary64 where
  /-- whether the number lies below zero, or is the zero with a minus sign -/
  negative : Bool
  /-- the significant bits, read as a whole number -/
  significand : Nat
  /-- the power of two of the last significant bit -/
  exponent : Int
deriving DecidableEq, Repr, Inhabited

namespace Binary64

/-- The number of bits of a full significand. -/
def precision : Nat := 53

/-- The exponent of the smallest positive number. -/
def leastExponent : Int := -1074

/-- The exponent of the largest numbers. -/
def greatestExponent : Int := 971

/-- Zero, with the given sign. -/
def zero (negative : Bool) : Binary64 :=
  ⟨negative, 0, leastExponent⟩

/-- The one representation of a number: a full significand, or a smaller one at
the least exponent. -/
def Normal (x : Binary64) : Prop :=
  x.significand < Nat.pow 2 precision ∧ leastExponent ≤ x.exponent ∧
    x.exponent ≤ greatestExponent ∧
    (x.significand < Nat.pow 2 (precision - 1) → x.exponent = leastExponent)

/-- The same number, where the two zeros count as one. -/
def sameValue (x y : Binary64) : Bool :=
  x = y || (x.significand = 0 && y.significand = 0)

/-! ## Rounding -/

/-- The whole number nearest to `num / den`, of two equally near the even one. -/
def roundHalfEven (num den : Nat) : Nat :=
  let q := num / den
  let r := num % den
  if 2 * r < den || (2 * r = den && q % 2 = 0) then q else q + 1

/-- The quotient `num / den`, divided by `2 ^ exponent`, as a quotient. -/
def descaled (num den : Nat) (exponent : Int) : Nat × Nat :=
  match exponent with
  | .ofNat k => (num, den * Nat.pow 2 k)
  | .negSucc k => (num * Nat.pow 2 (k + 1), den)

/-- The exponent at which `num / den` has a full significand, but at least the
least one. -/
def exponentFor (num den : Nat) : Int :=
  let length := (num.log2 : Int) - den.log2
  let (n, d) := descaled num den length
  let top := if d ≤ n then length else length - 1
  max leastExponent (top - (precision - 1 : Nat))

/-- The number nearest to `num / den` with the given sign. -/
def ofRatio? (negative : Bool) (num den : Nat) : Option Binary64 :=
  if num = 0 then some (zero negative)
  else
    let e := exponentFor num den
    let (n, d) := descaled num den e
    let m := roundHalfEven n d
    let (m, e) :=
      if m = Nat.pow 2 precision then (Nat.pow 2 (precision - 1), e + 1) else (m, e)
    if greatestExponent < e then none else some ⟨negative, m, e⟩

/-- The number nearest to a natural number. -/
def ofNat? (n : Nat) : Option Binary64 :=
  ofRatio? false n 1

/-- The magnitude of a number as a quotient. -/
def ratio (x : Binary64) : Nat × Nat :=
  match x.exponent with
  | .ofNat k => (x.significand * Nat.pow 2 k, 1)
  | .negSucc k => (x.significand, Nat.pow 2 (k + 1))

/-- The rounded product; `none` if it is too large. -/
def mul? (x y : Binary64) : Option Binary64 :=
  let (a, b) := x.ratio
  let (c, d) := y.ratio
  ofRatio? (x.negative != y.negative) (a * c) (b * d)

/-- The rounded quotient by a number that is not zero; `none` if it is too
large. -/
def div? (x y : Binary64) : Option Binary64 :=
  let (a, b) := x.ratio
  let (c, d) := y.ratio
  ofRatio? (x.negative != y.negative) (a * d) (b * c)

end Binary64

end KindCache.Decimal
