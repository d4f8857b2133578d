import KindCache.Error
import KindCache.Kind

/-!
# The registry of served kinds

The registry turns a kind into the resource under which the cluster serves it.

* `Registry.find?` — the resource of a kind in the latest listing; of several
  entries for one kind the last one counts;
* `Registry.asks` — whether a request needs a new listing: the kind is not in
  the latest one, and no listing has lacked it a short while ago;
* `Registry.refresh`, `Registry.resolveUntil` — taking in a listing, alone or on
  behalf of a request;
* `Registry.settle` — what a request makes of the listing it waited for.

A failed discovery leaves the registry as it was. So that unknown kinds do not
cause one listing each time they are asked for, a kind that a listing lacked is
remembered for a while.
-/

namespace KindCache

/-- What is known about the kinds that the cluster serves. -/
structure Registry where
  /-- the latest listing -/
  listing : List Resource
  /-- kinds that a listing lacked, and the time of that listing -/
  misses : List (GroupVersionKind × Nat)
  /-- how long a missing kind is remembered -/
  missTtl : Nat

namespace Registry

/-- For how many milliseconds a missing kind is remembered by default. -/
def standardMissTtl : Nat := 5000

/-- The registry before the first listing. -/
def starting (missTtl : Nat) : Registry :=
  { listing := [], misses := [], missTtl }

/-- The resource of a kind. -/
def find? (reg : Registry) (g : GroupVersionKind) : Option Resource :=
  reg.listing.reverse.find? fun r => r.gvk = g

/-- The kinds of the latest listing. -/
def kinds (reg : Registry) : List GroupVersionKind :=
  (reg.listing.map (·.gvk)).eraseDups

/-- The number of kinds in the latest listing. -/
def size (reg : Registry) : Nat :=
  reg.kinds.length

/-- Whether a miss of the given time is still remembered. -/
def fresh (reg : Registry) (now since : Nat) : Bool :=
  now - since < reg.missTtl

/-- Whether a listing has lacked a kind a short while ago. -/
def recentlyMissed (reg : Registry) (now : Nat) (g : GroupVersionKind) : Bool :=
  match reg.misses.lookup g with
  | some since => reg.fresh now since
  | none => false

/-- Whether a new listing is needed to answer for a kind. -/
def asks (reg : Registry) (now : Nat) (g : GroupVersionKind) : Bool :=
  (reg.find? g).isNone && !reg.recentlyMissed now g

/-- The complaint about a kind that is not served. -/
def unknown (g : GroupVersionKind) : CacheError :=
  .resolution ("GVK not found: " ++ g.text)

/-- The error of a failed discovery. -/
def discoveryFailed (reason : String) : CacheError :=
  .transient ("discovery: " ++ reason)

/-- Take in a listing. -/
def refresh (reg : Registry) (discovered : Except String (List Resource)) :
    Registry × Except CacheError Unit :=
  match discovered with
  | .ok listing => ({ reg with listing }, .ok ())
  | .error reason => (reg, .error (discoveryFailed reason))

/-- Remember that a kind is missing, and forget what is no longer fresh. -/
def remember (reg : Registry) (now : Nat) (g : GroupVersionKind) : Registry :=
  let kept := reg.misses.filter fun m => reg.fresh now m.2 && m.1 ≠ g
  { reg with misses := (g, now) :: kept }

/-- Forget that a kind was missing. -/
def forget (reg : Registry) (g : GroupVersionKind) : Registry :=
  { reg with misses := reg.misses.filter fun m => m.1 ≠ g }

/-- Answer for a kind from a listing that was just taken in. -/
def settle (reg : Registry) (now : Nat) (g : GroupVersionKind) :
    Registry × Except CacheError Resource :=
  match reg.find? g with
  | some r => (reg.forget g, .ok r)
  | none => (reg.remember now g, .error (unknown g))

/-- Answer for a kind. The discovery is used only if the registry `asks`; it takes
until `later`. -/
def resolveUntil (reg : Registry) (now later : Nat) (g : GroupVersionKind)
    (discovered : Except String (List Resource)) : Registry × Except CacheError Resource :=
  match reg.find? g with
  | some r => (reg, .ok r)
  | none =>
    if reg.recentlyMissed now g then (reg, .error (unknown g))
    else
      match reg.refresh discovered with
      | (reg, .ok ()) => reg.settle later g
      | (reg, .error e) => (reg, .error e)

/-- Answer for a kind with a discovery that takes no time. -/
def resolve (reg : Registry) (now : Nat) (g : GroupVersionKind)
    (discovered : Except String (List Resource)) : Registry × Except CacheError Resource :=
  reg.resolveUntil now now g discovered

end Registry

end KindCache
