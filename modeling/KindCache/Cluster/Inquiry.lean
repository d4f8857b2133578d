import KindCache.Access.Probe
import KindCache.Cluster.Memory
import KindCache.Cluster.Registry

/-!
# Asking the cluster

What the cache wants to know before it watches a kind, with every question
counted by the cluster:

* `Cluster.resolveUntil` — the resource of a kind, by way of a registry; the
  cluster is asked for its listing only if the registry cannot answer;
* `Cluster.refresh` — a new listing for a registry in any case;
* `Cluster.review` — one right on a resource;
* `Cluster.probe` — all rights on a resource, by one review for each of them.
-/

namespace KindCache.Cluster

/-- Resolve a kind at some time. A discovery that is needed takes until `later`. -/
def resolveUntil (c : Cluster) (reg : Registry) (now later : Nat) (g : GroupVersionKind) :
    Cluster × Registry × Except CacheError Resource :=
  let (reg', result) := reg.resolveUntil now later g c.discovery
  (if reg.asks now g then c.countDiscovery else c, reg', result)

/-- Resolve a kind with a discovery that takes no time. -/
def resolve (c : Cluster) (reg : Registry) (now : Nat) (g : GroupVersionKind) :
    Cluster × Registry × Except CacheError Resource :=
  c.resolveUntil reg now now g

/-- Get a new listing. -/
def refresh (c : Cluster) (reg : Registry) : Cluster × Registry × Except CacheError Unit :=
  let (reg, result) := reg.refresh c.discovery
  (c.countDiscovery, reg, result)

/-- Ask for one right on a resource. A review that fails counts as a refusal. -/
def review (c : Cluster) (r : Resource) (verb : Verb) : Cluster × Bool :=
  (c.countReviews r.plural 1, (c.answer (AccessReview.about r verb)).getD false)

/-- Probe the rights on a resource. -/
def probe (c : Cluster) (r : Resource) : Cluster × Access :=
  (c.countReviews r.plural (AccessReview.required r).length, Access.probe c.answer r)

end KindCache.Cluster
