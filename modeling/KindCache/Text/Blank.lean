/-!
# Blank characters

White space in the sense of the Unicode property `White_Space`, and trimming by it:

* `Text.isBlank` — the property, as a list of code-point ranges;
* `Text.trimStart`, `Text.trimEnd`, `Text.trim` — a text without the blanks at its ends.

Texts that are taken apart are lists of characters throughout the library; a
`String` is opened once on the way in and closed once on the way out.
-/

namespace KindCache.Text

/-- The code points of the property `White_Space`, as closed ranges. -/
def blankRanges : List (Nat × Nat) :=
  [(0x09, 0x0d), (0x20, 0x20), (0x85, 0x85), (0xa0, 0xa0), (0x1680, 0x1680),
   (0x2000, 0x200a), (0x2028, 0x2029), (0x202f, 0x202f), (0x205f, 0x205f),
   (0x3000, 0x3000)]

/-- White space: the blanks of ASCII, the no-break space and the typographic
spaces. The zero-width characters and the byte-order mark are not blank. -/
def isBlank (c : Char) : Bool :=
  blankRanges.any fun r => r.1 ≤ c.toNat && c.toNat ≤ r.2

/-- The text from its first character that is not blank. -/
def trimStart (cs : List Char) : List Char :=
  cs.dropWhile isBlank

/-- The text up to its last character that is not blank. -/
def trimEnd (cs : List Char) : List Char :=
  (cs.reverse.dropWhile isBlank).reverse

/-- The text without the blanks at both ends. -/
def trim (cs : List Char) : List Char :=
  trimEnd (trimStart cs)

/-- A text is blank when trimming leaves nothing of it. -/
def allBlank (cs : List Char) : Bool :=
  cs.all isBlank

end KindCache.Text
