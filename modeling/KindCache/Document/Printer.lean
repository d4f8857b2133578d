import KindCache.Document.Basic
import KindCache.Decimal.Shortest

/-!
# The compact text of a document

`Document.print` writes a document without blanks, the fields of an object in
their stored order. Inside a text only the quote, the backslash and the
characters below U+0020 are escaped, five of them by a letter and the others by
their code point; everything else stands as it is.

The rules for the layout of numbers are the two constants of `numberLayout`:
positional from `0.00001` up to sixteen digits before the point, with an
exponent beyond.
-/

namespace KindCache.Document

open Decimal (Binary64 integerDigits)

/-- Floating-point numbers are positional as long as the point stands at most
sixteen places behind the first digit or four places before it. -/
def numberLayout : Binary64.Layout :=
  { after := -5, upTo := 16 }

/-- The two lower digits of a code point in base sixteen. -/
def lowByte (n : Nat) : List Char :=
  [Nat.digitChar (n / 16 % 16), Nat.digitChar (n % 16)]

/-- One character inside a text. -/
def escapedChar (c : Char) : List Char :=
  match c with
  | '"' => ['\\', '"']
  | '\\' => ['\\', '\\']
  | '\x08' => ['\\', 'b']
  | '\x0c' => ['\\', 'f']
  | '\n' => ['\\', 'n']
  | '\r' => ['\\', 'r']
  | '\t' => ['\\', 't']
  | c => if c.toNat < 0x20 then ['\\', 'u', '0', '0'] ++ lowByte c.toNat else [c]

/-- A text between quotes. -/
def printText (s : String) : List Char :=
  '"' :: s.toList.flatMap escapedChar ++ ['"']

mutual

/-- The compact text of a document. -/
def printChars : Document → List Char
  | .null => ['n', 'u', 'l', 'l']
  | .bool true => ['t', 'r', 'u', 'e']
  | .bool false => ['f', 'a', 'l', 's', 'e']
  | .integer n => integerDigits n
  | .float x => x.text numberLayout
  | .text s => printText s
  | .array items => '[' :: printItems items ++ [']']
  | .object fields => '\x7b' :: printFields fields ++ ['\x7d']

/-- The items of an array with commas between them. -/
def printItems : List Document → List Char
  | [] => []
  | [d] => printChars d
  | d :: ds => printChars d ++ ',' :: printItems ds

/-- The fields of an object with commas between them. -/
def printFields : List (String × Document) → List Char
  | [] => []
  | [(k, d)] => printText k ++ ':' :: printChars d
  | (k, d) :: fs => printText k ++ ':' :: printChars d ++ ',' :: printFields fs

end

/-- The compact text of a document as a string. -/
def print (d : Document) : String :=
  String.ofList d.printChars

end KindCache.Document
