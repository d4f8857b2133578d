import KindCache.Error
import KindCache.Selector.Basic
import KindCache.Text.Blank
import KindCache.Text.Pieces
import KindCache.Text.Quoted

/-!
# Reading a selector

A selector is a list of terms with commas between them; blank terms are
skipped, and commas between parentheses belong to the values of a set.

* `Selector.terms` — the terms of a text;
* `Requirement.ofTerm` — the requirement that a term stands for, or why it
  stands for none;
* `Selector.parse` — the selector of a text, or the complaint about its first
  malformed term.

A term is recognised by the first of these that applies: a leading `!`, then
`!=`, `==` and `=` wherever they stand, then a key that ends at the first
blank, alone or followed by `notin` or `in` and a set. A key has at least one
character; the value of an equation may be empty, a value of a set may not.

The depth of parentheses is an integer without bounds. Where it is kept in 32 bits,
only a text with more than two thousand million parentheses that are not matched
could tell the difference, and such a text is no selector that anyone asks for.
-/

namespace KindCache

/-- Letters and digits of ASCII. -/
def isAlphanumeric (c : Char) : Bool :=
  ('a' ≤ c && c ≤ 'z') || ('A' ≤ c && c ≤ 'Z') || ('0' ≤ c && c ≤ '9')

/-- The characters of a label value. -/
def isValueChar (c : Char) : Bool :=
  isAlphanumeric c || c = '-' || c = '_' || c = '.'

/-- The characters of a label key. -/
def isKeyChar (c : Char) : Bool :=
  isValueChar c || c = '/'

/-- Whether a text may be a label key. -/
def validKey (cs : List Char) : Bool :=
  !cs.isEmpty && cs.all isKeyChar

/-- Whether a text may be a label value. -/
def validValue (cs : List Char) : Bool :=
  cs.all isValueChar

/-- Why a term is no requirement. -/
inductive TermFault where
  | badKey
  | badValue
  | badSetValue
  | noSet
  | unknownOperator
deriving DecidableEq, Repr

/-- The wording of a fault. -/
def TermFault.text : TermFault → String
  | .badKey => "bad key"
  | .badValue => "bad value"
  | .badSetValue => "bad value in set"
  | .noSet => "expected (v1,v2,...)"
  | .unknownOperator => "unknown operator"

/-- The text between the parentheses that enclose it. -/
def enclosed? : List Char → Option (List Char)
  | '(' :: rest => if rest.getLast? = some ')' then some rest.dropLast else none
  | _ => none

/-- The set of values between parentheses. -/
def readSet (cs : List Char) : Except TermFault ValueSet :=
  match enclosed? (Text.trim cs) with
  | none => .error .noSet
  | some inner =>
    let values := (Text.pieces ',' inner).map Text.trim
    if values.all fun v => !v.isEmpty && validValue v then
      .ok (ValueSet.ofList (values.map String.ofList))
    else .error .badSetValue

/-- The sides of an equation: a key and a value, with blanks around them. -/
def readSides (sides : List Char × List Char) : Except TermFault (String × String) :=
  let key := Text.trim sides.1
  let value := Text.trim sides.2
  if !validKey key then .error .badKey
  else if !validValue value then .error .badValue
  else .ok (String.ofList key, String.ofList value)

/-- A key alone, or a key followed by an operator on sets. -/
def readKeyed (cs : List Char) : Except TermFault Requirement :=
  let key := cs.takeWhile (!Text.isBlank ·)
  let rest := Text.trimStart (cs.dropWhile (!Text.isBlank ·))
  let name := String.ofList key
  if !validKey key then .error .badKey
  else
    match rest with
    | [] => .ok (.present name)
    | 'n' :: 'o' :: 't' :: 'i' :: 'n' :: set => (readSet set).map (.noneOf name)
    | 'i' :: 'n' :: set => (readSet set).map (.oneOf name)
    | _ => .error .unknownOperator

/-- The requirement of a term that does not begin with `!`. -/
def readPositive (cs : List Char) : Except TermFault Requirement :=
  match Text.breakAt ['!', '='] cs with
  | some sides => (readSides sides).map fun (k, v) => .notEqual k v
  | none =>
    match Text.breakAt ['=', '='] cs with
    | some sides => (readSides sides).map fun (k, v) => .equal k v
    | none =>
      match Text.breakAt ['='] cs with
      | some sides => (readSides sides).map fun (k, v) => .equal k v
      | none => readKeyed cs

/-- The requirement that a term without surrounding blanks stands for. -/
def Requirement.ofTerm : List Char → Except TermFault Requirement
  | '!' :: rest =>
    let key := Text.trim rest
    if validKey key then .ok (.absent (String.ofList key)) else .error .badKey
  | cs => readPositive cs

namespace Selector

/-- The change of the parenthesis depth at a character. A closing parenthesis
without an opening one leads below zero. -/
def depthStep : Char → Int
  | '(' => 1
  | ')' => -1
  | _ => 0

/-- The texts between the commas at depth zero, from a given depth on. -/
def terms (depth : Int) : List Char → List (List Char)
  | [] => [[]]
  | c :: rest =>
    if c = ',' ∧ depth = 0 then [] :: terms 0 rest
    else
      match terms (depth + depthStep c) rest with
      | [] => [[c]]
      | term :: more => (c :: term) :: more

/-- The requirements of the terms in order, up to the first malformed one. -/
def readTerms : List (List Char) → Except (List Char × TermFault) (List Requirement)
  | [] => .ok []
  | term :: more =>
    if Text.allBlank term then readTerms more
    else
      match Requirement.ofTerm (Text.trim term) with
      | .error fault => .error (Text.trim term, fault)
      | .ok r => (readTerms more).map (r :: ·)

/-- The complaint about a malformed term. -/
def complaint (term : List Char) (fault : TermFault) : CacheError :=
  .resolution ("invalid label selector term " ++ String.ofList (Text.quoted term) ++
    ": " ++ fault.text)

/-- The selector that a text stands for. -/
def parse (s : String) : Except CacheError Selector :=
  match readTerms (terms 0 s.toList) with
  | .ok requirements => .ok ⟨requirements⟩
  | .error (term, fault) => .error (complaint term fault)

end Selector

end KindCache
