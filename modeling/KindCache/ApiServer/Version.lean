import KindCache.Decimal.Natural
import KindCache.Text.Pieces

/-!
# The priority of API versions

A version is stable (`v2`), beta (`v2beta1`) or alpha (`v2alpha1`), or has some
other name. Stable versions come before beta versions, those before alpha
versions and those before all others; among their like the higher numbers come
first, and other names in alphabetical order.
-/

namespace KindCache.ApiServer

/-- How far a version is from being stable. -/
inductive Stability where
  | other
  | alpha
  | beta
  | stable
deriving DecidableEq, Repr

/-- The rank of a stability; stable is the highest. -/
def Stability.rank : Stability → Nat
  | .other => 0
  | .alpha => 1
  | .beta => 2
  | .stable => 3

/-- A version by its parts. -/
structure Version where
  /-- how stable it is -/
  stability : Stability
  /-- the number behind the `v` -/
  major : Nat
  /-- the number behind the stability, if there is one -/
  minor : Option Nat
  /-- the name -/
  name : String
deriving DecidableEq, Repr

namespace Version

/-- The numbers of a version have 32 bits. -/
def numberBound : Nat := UInt32.size

/-- The optional number behind a stability. -/
def readMinor? (cs : List Char) : Option (Option Nat) :=
  if cs.isEmpty then some none else (Decimal.readBelow? numberBound cs).map some

/-- The parts behind the `v`. -/
def readParts? (cs : List Char) : Option (Stability × Nat × Option Nat) := do
  let ds := cs.takeWhile fun c => '0' ≤ c ∧ c ≤ '9'
  let major ← Decimal.readBelow? numberBound ds
  match cs.drop ds.length with
  | [] => return (.stable, major, none)
  | 'a' :: 'l' :: 'p' :: 'h' :: 'a' :: rest => return (.alpha, major, ← readMinor? rest)
  | 'b' :: 'e' :: 't' :: 'a' :: rest => return (.beta, major, ← readMinor? rest)
  | _ => none

/-- A version from its name. -/
def ofName (name : String) : Version :=
  let parts :=
    match name.toList with
    | 'v' :: rest => readParts? rest
    | _ => none
  match parts with
  | some (stability, major, minor) => ⟨stability, major, minor, name⟩
  | none => ⟨.other, 0, none, name⟩

/-- Whether a number comes before another; no number comes first. -/
def minorBelow : Option Nat → Option Nat → Bool
  | none, some _ => true
  | some a, some b => a < b
  | _, none => false

/-- Whether a version has a lower priority than another. -/
def below (a b : Version) : Bool :=
  if a.stability ≠ b.stability then a.stability.rank < b.stability.rank
  else if a.stability = .other then b.name < a.name
  else if a.major ≠ b.major then a.major < b.major
  else minorBelow a.minor b.minor

/-- The first name of highest priority. -/
def highest? (names : List String) : Option String :=
  (names.foldl
    (fun best name =>
      match best with
      | none => some (ofName name)
      | some v => if v.below (ofName name) then some (ofName name) else some v)
    none).map Version.name

end Version

end KindCache.ApiServer
