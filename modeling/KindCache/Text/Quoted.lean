import KindCache.Text.Printable

/-!
# Quoted text

How a message shows a text that may hold anything: between double quotes, with
an escape for the quote, the backslash, the common control characters and every
other character that is not printable (`Text.isPrintable`), which is written by
its code point: U+200B is `\u{200b}`.
-/

namespace KindCache.Text

/-- The digits of `n` in base sixteen, lower case, without leading zeros. -/
def hexadecimal (n : Nat) : List Char :=
  Nat.toDigits 16 n

/-- One character as a quoted text shows it. -/
def escaped (c : Char) : List Char :=
  match c with
  | '"' => ['\\', '"']
  | '\\' => ['\\', '\\']
  | '\n' => ['\\', 'n']
  | '\r' => ['\\', 'r']
  | '\t' => ['\\', 't']
  | '\x00' => ['\\', '0']
  | c =>
    if isPrintable c then [c]
    else '\\' :: 'u' :: '\x7b' :: hexadecimal c.toNat ++ ['\x7d']

/-- A text between double quotes. -/
def quoted (cs : List Char) : List Char :=
  '"' :: cs.flatMap escaped ++ ['"']

end KindCache.Text
