import KindCache.Access.Basic
import KindCache.Kind
import KindCache.Watcher.Basic

/-!
# A cluster in memory

The cluster as the cache sees it: it lists what it serves, answers access
reviews and opens list-and-watch streams. This one is programmed from outside
and counts how often it was asked.

* `Cluster.discovery` — the listing, or the failure that was ordered;
* `Cluster.answer` — the answer to an access review;
* `Cluster.opening` — what a new stream carries at once: a relist of the
  objects, unless the resource is held back.
-/

namespace KindCache

/-- A function changed at one point. -/
def override {α β : Type} [DecidableEq α] (f : α → β) (a : α) (b : β) : α → β :=
  fun x => if x = a then b else f x

/-- A cluster in memory. Plural names identify resources here. -/
structure Cluster where
  /-- what discovery lists -/
  resources : List Resource
  /-- the rights on each resource -/
  grants : String → Access
  /-- the resources whose reviews fail -/
  failsReview : String → Bool
  /-- the objects of each resource at the start of a stream -/
  seeds : String → List Document
  /-- the resources whose streams begin without a relist -/
  held : String → Bool
  /-- the failure of every discovery and its causes; none if it works -/
  discoveryFault : List String
  /-- what is said in front of every failure of a stream -/
  watchContext : Option String
  /-- the number of discoveries -/
  discoveries : Nat
  /-- the number of access reviews on each resource -/
  reviews : String → Nat
  /-- the number of streams opened on each resource -/
  streams : String → Nat

namespace Cluster

/-- A cluster that serves nothing. What it is not told otherwise it allows. -/
def empty : Cluster :=
  { resources := []
    grants := fun _ => .full
    failsReview := fun _ => false
    seeds := fun _ => []
    held := fun _ => false
    discoveryFault := []
    watchContext := none
    discoveries := 0
    reviews := fun _ => 0
    streams := fun _ => 0 }

instance : Inhabited Cluster :=
  ⟨empty⟩

/-! ## What the cluster answers -/

/-- The listing, or a failure with its causes. -/
def discovery (c : Cluster) : Except String (List Resource) :=
  match c.discoveryFault with
  | [] => .ok c.resources
  | chain => .error (String.intercalate ": " chain)

/-- The answer to a review; none if the review fails. -/
def answer (c : Cluster) (review : AccessReview) : Option Bool :=
  if c.failsReview review.resource then none
  else some ((c.grants review.resource).allows review.verb)

/-- A relist of the objects of a resource. -/
def relist (c : Cluster) (plural : String) : Arrival :=
  .event (.relisted (c.seeds plural))

/-- What a new stream carries at once. -/
def opening (c : Cluster) (plural : String) : List Arrival :=
  if c.held plural then [] else [c.relist plural]

/-- A failure of a stream as it arrives. -/
def fault (c : Cluster) (reason : String) : Arrival :=
  match c.watchContext with
  | some context => .fault (context ++ ": " ++ reason)
  | none => .fault reason

/-! ## Counting -/

/-- One more discovery. -/
def countDiscovery (c : Cluster) : Cluster :=
  { c with discoveries := c.discoveries + 1 }

/-- More reviews on a resource. -/
def countReviews (c : Cluster) (plural : String) (n : Nat) : Cluster :=
  { c with reviews := override c.reviews plural (c.reviews plural + n) }

/-- One more stream on a resource. -/
def countStream (c : Cluster) (plural : String) : Cluster :=
  { c with streams := override c.streams plural (c.streams plural + 1) }

/-! ## Programming the cluster -/

/-- Serve one more resource. -/
def serve (c : Cluster) (r : Resource) : Cluster :=
  { c with resources := c.resources ++ [r] }

/-- Set the rights on a resource. -/
def grant (c : Cluster) (plural : String) (access : Access) : Cluster :=
  { c with grants := override c.grants plural access }

/-- Let the reviews on a resource fail. -/
def failReviews (c : Cluster) (plural : String) : Cluster :=
  { c with failsReview := override c.failsReview plural true }

/-- Set the objects of a resource. -/
def seed (c : Cluster) (plural : String) (ds : List Document) : Cluster :=
  { c with seeds := override c.seeds plural ds }

/-- Hold back the relist of new streams of a resource, or no longer. -/
def setHeld (c : Cluster) (plural : String) (held : Bool) : Cluster :=
  { c with held := override c.held plural held }

/-- Set the failure of every discovery. -/
def failDiscovery (c : Cluster) (chain : List String) : Cluster :=
  { c with discoveryFault := chain }

end Cluster

end KindCache
