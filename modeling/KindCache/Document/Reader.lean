import KindCache.Document.Basic
import KindCache.Decimal.Natural

/-!
# Reading a document

`Document.read?` reads the text form of one document, with blanks allowed
between its parts and at both ends. It keeps the order of the keys of an
object; a repeated key takes the last value at the first place.

* A number without fraction and exponent is an integer as long as it fits into
  64 bits, signed or unsigned. All others are floating-point numbers, and so is
  minus zero.
* A floating-point number is read from its leading digits, as many as 64 bits
  hold, by one rounding and one rounded multiplication or division by a power
  of ten.
* In a text, `\u` escapes above the basic plane come in pairs; a lone half is
  refused.

The recursion is bounded by the number of characters, since every step into a
document takes at least one of them.
-/

namespace KindCache.Document

open Decimal (Binary64 digitValue?)

/-- The blanks that may stand between the parts of a document. -/
def isGap (c : Char) : Bool :=
  c = ' ' || c = '\t' || c = '\n' || c = '\r'

/-- The text from its first character that is no gap. -/
def skipGaps (cs : List Char) : List Char :=
  cs.dropWhile isGap

/-! ## Texts -/

/-- The value of a digit in base sixteen, in either case. -/
def hexValue? (c : Char) : Option Nat :=
  if '0' ≤ c ∧ c ≤ '9' then some (c.toNat - '0'.toNat)
  else if 'a' ≤ c ∧ c ≤ 'f' then some (c.toNat - 'a'.toNat + 10)
  else if 'A' ≤ c ∧ c ≤ 'F' then some (c.toNat - 'A'.toNat + 10)
  else none

/-- The number of four digits in base sixteen. -/
def hexUnit? (a b c d : Char) : Option Nat := do
  return (((← hexValue? a) * 16 + (← hexValue? b)) * 16 + (← hexValue? c)) * 16
    + (← hexValue? d)

/-- The character that a letter stands for behind a backslash. -/
def shortEscape? : Char → Option Nat
  | '"' => some 0x22
  | '\\' => some 0x5c
  | '/' => some 0x2f
  | 'b' => some 0x08
  | 'f' => some 0x0c
  | 'n' => some 0x0a
  | 'r' => some 0x0d
  | 't' => some 0x09
  | _ => none

/-- The code units of a text up to its closing quote, and what follows the
quote. A character that is not escaped is one unit, whatever its plane. -/
def readUnits? : List Char → Option (List Nat × List Char)
  | [] => none
  | '"' :: rest => some ([], rest)
  | '\\' :: 'u' :: a :: b :: c :: d :: rest => do
    let unit ← hexUnit? a b c d
    let (units, rest) ← readUnits? rest
    return (unit :: units, rest)
  | '\\' :: c :: rest => do
    let unit ← shortEscape? c
    let (units, rest) ← readUnits? rest
    return (unit :: units, rest)
  | c :: rest =>
    if c.toNat < 0x20 then none
    else do
      let (units, rest) ← readUnits? rest
      return (c.toNat :: units, rest)

/-- The characters of a sequence of code units: a high and a low surrogate
unite, and neither may stand alone. -/
def unitePairs? : List Nat → Option (List Char)
  | [] => some []
  | u :: rest =>
    if 0xd800 ≤ u ∧ u < 0xdc00 then
      match rest with
      | [] => none
      | l :: rest =>
        if 0xdc00 ≤ l ∧ l < 0xe000 then do
          let cs ← unitePairs? rest
          return Char.ofNat (0x10000 + (u - 0xd800) * 0x400 + (l - 0xdc00)) :: cs
        else none
    else if 0xdc00 ≤ u ∧ u < 0xe000 then none
    else do
      let cs ← unitePairs? rest
      return Char.ofNat u :: cs

/-- The text up to its closing quote, and what follows the quote. -/
def readText? (cs : List Char) : Option (String × List Char) := do
  let (units, rest) ← readUnits? cs
  return (String.ofList (← unitePairs? units), rest)

/-! ## Numbers -/

/-- The longest run of digits in front. -/
def leadingDigits : List Char → List Nat × List Char
  | [] => ([], [])
  | c :: rest =>
    match digitValue? c with
    | some d => let (ds, rest) := leadingDigits rest; (d :: ds, rest)
    | none => ([], c :: rest)

/-- Append digits to a significand as long as it fits into 64 bits; the result
and the number of digits taken. -/
def absorb (significand : Nat) : List Nat → Nat × Nat
  | [] => (significand, 0)
  | d :: ds =>
    if significand * 10 + d < UInt64.size then
      let (s, n) := absorb (significand * 10 + d) ds
      (s, n + 1)
    else (significand, 0)

/-- The greatest power of ten by which one step of scaling multiplies. -/
def greatestPower : Nat := 308

/-- A floating-point number times a power of ten, in at most `tries` divisions
by the greatest power and one last step; `none` if it gets too large. -/
def scaled? : Nat → Binary64 → Int → Option Binary64
  | 0, _, _ => none
  | tries + 1, x, e =>
    if e.natAbs ≤ greatestPower then do
      let power ← Binary64.ofNat? (Nat.pow 10 e.natAbs)
      if 0 ≤ e then x.mul? power else x.div? power
    else if x.significand = 0 then some x
    else if 0 ≤ e then none
    else do
      let power ← Binary64.ofNat? (Nat.pow 10 greatestPower)
      scaled? tries (← x.div? power) (e + greatestPower)

/-- The floating-point number with the given sign, digits and power of ten. -/
def floating? (negative : Bool) (significand : Nat) (e : Int) : Option Document := do
  let x ← scaled? 4 (← Binary64.ofNat? significand) e
  return .float { x with negative := negative }

/-- The digits behind the decimal point, if there is one. -/
def readFraction? : List Char → Option (Option (List Nat) × List Char)
  | '.' :: rest =>
    match leadingDigits rest with
    | ([], _) => none
    | (ds, rest) => some (some ds, rest)
  | rest => some (none, rest)

/-- The digits of an exponent, behind its sign. -/
def readPower? (negative : Bool) (cs : List Char) : Option (Option Int × List Char) :=
  match leadingDigits cs with
  | ([], _) => none
  | (ds, rest) =>
    let n : Nat := ds.foldl (fun (acc d : Nat) => acc * 10 + d) 0
    some (some (if negative then -(n : Int) else n), rest)

/-- The exponent, if there is one. -/
def readExponent? : List Char → Option (Option Int × List Char)
  | c :: rest =>
    if c = 'e' || c = 'E' then
      match rest with
      | '+' :: rest => readPower? false rest
      | '-' :: rest => readPower? true rest
      | rest => readPower? false rest
    else some (none, c :: rest)
  | [] => some (none, [])

/-- A number without its sign. -/
def readUnsigned? (negative : Bool) (cs : List Char) : Option (Document × List Char) := do
  let (whole, rest) := leadingDigits cs
  if whole = [] || (whole.head? = some 0 && whole.length ≠ 1) then none
  let (fraction, rest) ← readFraction? rest
  let (power, rest) ← readExponent? rest
  let (s, taken) := absorb 0 whole
  let beyond := whole.length - taken
  let fits := beyond = 0 && (!negative || (s ≠ 0 && Int64.minValue.toInt ≤ -s))
  if fraction = none && power = none && fits then
    return (.integer (if negative then -s else s), rest)
  let (s, taken) := absorb s (fraction.getD [])
  let e : Int := beyond - taken + power.getD 0
  return (← floating? negative s e, rest)

/-- A number. -/
def readNumber? : List Char → Option (Document × List Char)
  | '-' :: rest => readUnsigned? true rest
  | cs => readUnsigned? false cs

/-! ## Documents -/

mutual

/-- A document and what follows it. -/
def readValue? : Nat → List Char → Option (Document × List Char)
  | 0, _ => none
  | fuel + 1, cs =>
    match skipGaps cs with
    | 'n' :: 'u' :: 'l' :: 'l' :: rest => some (.null, rest)
    | 't' :: 'r' :: 'u' :: 'e' :: rest => some (.bool true, rest)
    | 'f' :: 'a' :: 'l' :: 's' :: 'e' :: rest => some (.bool false, rest)
    | '"' :: rest => do
      let (s, rest) ← readText? rest
      return (.text s, rest)
    | '[' :: rest =>
      match skipGaps rest with
      | ']' :: rest => some (.array [], rest)
      | rest => do
        let (items, rest) ← readItems? fuel rest
        return (.array items, rest)
    | '\x7b' :: rest =>
      match skipGaps rest with
      | '\x7d' :: rest => some (.object [], rest)
      | rest => do
        let (fields, rest) ← readFields? fuel [] rest
        return (.object fields, rest)
    | rest => readNumber? rest

/-- The items of an array up to its closing bracket. -/
def readItems? : Nat → List Char → Option (List Document × List Char)
  | 0, _ => none
  | fuel + 1, cs => do
    let (d, rest) ← readValue? fuel cs
    match skipGaps rest with
    | ',' :: rest =>
      let (ds, rest) ← readItems? fuel rest
      return (d :: ds, rest)
    | ']' :: rest => return ([d], rest)
    | _ => none

/-- The fields of an object up to its closing brace, behind those read so
far. -/
def readFields? : Nat → List Field → List Char → Option (List Field × List Char)
  | 0, _, _ => none
  | fuel + 1, sofar, cs => do
    let '"' :: rest := skipGaps cs | none
    let (key, rest) ← readText? rest
    let ':' :: rest := skipGaps rest | none
    let (d, rest) ← readValue? fuel rest
    let fields := Table.put key d sofar
    match skipGaps rest with
    | ',' :: rest => readFields? fuel fields rest
    | '\x7d' :: rest => return (fields, rest)
    | _ => none

end

/-- The document that a text stands for. -/
def read? (s : String) : Option Document := do
  let cs := s.toList
  let (d, rest) ← readValue? (cs.length + 1) cs
  if skipGaps rest = [] then some d else none

end KindCache.Document
