/-!
# Natural numbers in decimal

* `Decimal.digits` — the decimal text of a number, without leading zeros;
* `Decimal.read?` — the number that a text of digits stands for; leading zeros
  are allowed, an empty text is not a number;
* `Decimal.readBelow?` — the form in which settings are given: one plus sign
  may stand in front, and a number at or above the bound is refused.

Only the digits `0` to `9` count; blanks, underscores and minus signs are never
part of a number here.
-/

namespace KindCache.Decimal

/-- The value of a digit. -/
def digitValue? (c : Char) : Option Nat :=
  if '0' ≤ c ∧ c ≤ '9' then some (c.toNat - '0'.toNat) else none

/-- The decimal text of `n`. -/
def digits (n : Nat) : List Char :=
  Nat.toDigits 10 n

/-- The number whose digits follow those of `acc`. -/
def readFrom? (acc : Nat) : List Char → Option Nat
  | [] => some acc
  | c :: rest => do readFrom? (10 * acc + (← digitValue? c)) rest

/-- The number that a text of digits stands for. -/
def read? : List Char → Option Nat
  | [] => none
  | cs => readFrom? 0 cs

/-- A number below `bound`, with at most one plus sign in front. -/
def readBelow? (bound : Nat) (cs : List Char) : Option Nat :=
  let unsigned := if cs.head? = some '+' then cs.drop 1 else cs
  (read? unsigned).filter (· < bound)

/-- The decimal text of an integer: a minus sign stands before a negative one. -/
def integerDigits : Int → List Char
  | .ofNat n => digits n
  | .negSucc n => '-' :: digits (n + 1)

end KindCache.Decimal
