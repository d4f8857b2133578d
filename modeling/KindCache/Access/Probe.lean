import KindCache.Error
import KindCache.Kind

/-!
# Probing for access

Before a kind is watched, the cluster is asked one question per right. The
watch spans all namespaces, so no question is narrowed to one.

* `Access.probe` — the rights on a resource, where a review that failed counts
  as a refusal;
* `Access.ensure` — the gate: all three rights, or an error that names the
  state of each.
-/

namespace KindCache

/-- The question for one right on a resource. -/
def AccessReview.about (r : Resource) (verb : Verb) : AccessReview :=
  { group := r.gvk.group
    version := r.gvk.version
    resource := r.plural
    verb
    ns := none }

/-- The questions that a probe asks, in order. -/
def AccessReview.required (r : Resource) : List AccessReview :=
  Verb.required.map (AccessReview.about r)

namespace Access

/-- The rights on a resource according to the answers; none stands for a review
that failed. -/
def probe (answer : AccessReview → Option Bool) (r : Resource) : Access :=
  (AccessReview.required r).foldl
    (fun access review => access.record review.verb ((answer review).getD false)) denied

/-- Refuse unless all rights are granted. -/
def ensure (access : Access) (resource : String) : Except CacheError Unit :=
  if access.complete then .ok () else .error (.accessDenied resource access)

end Access

end KindCache
