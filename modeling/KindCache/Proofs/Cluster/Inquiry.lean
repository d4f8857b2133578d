import KindCache.Cluster.Inquiry

/-!
# What the cluster is asked

* `Registry.Resolved`, `Registry.resolved` — the five ways in which a request for a kind is
  answered;
* `Registry.gvk_of_resolve` — a kind is resolved to a resource that serves it;
* `Cluster.reviewAll` — some rights asked for one after the other;
* `Cluster.reviewAll_required` — a prober asks for all rights of a resource at once,
  while a call that starts a kind asks for one right after the other, in legs of its
  own. Both learn the same, and the cluster counts the same number of questions. The
  legs of a call are brought to this form by `Cache.asks_run`.
-/

namespace KindCache

namespace Registry

variable {reg : Registry} {now : Nat} {g : GroupVersionKind} {r : Resource}

/-- A listing is searched by kind. -/
theorem gvk_of_find? (h : reg.find? g = some r) : r.gvk = g := by
  simpa using List.find?_some h

/-- What a request can lead to. Only in the last three cases the cluster is asked. -/
inductive Resolved (reg : Registry) (now later : Nat) (g : GroupVersionKind)
    (discovered : Except String (List Resource)) :
    Registry × Except CacheError Resource → Prop where
  /-- the kind is in the latest listing -/
  | known {r : Resource} : reg.find? g = some r →
      Resolved reg now later g discovered (reg, .ok r)
  /-- a listing has lacked the kind a short while ago -/
  | remembered : reg.find? g = none → reg.recentlyMissed now g = true →
      Resolved reg now later g discovered (reg, .error (unknown g))
  /-- there is no new listing -/
  | failed {reason : String} : reg.asks now g = true → discovered = .error reason →
      Resolved reg now later g discovered (reg, .error (discoveryFailed reason))
  /-- the kind is in the new listing -/
  | found {listing : List Resource} {r : Resource} : reg.asks now g = true →
      discovered = .ok listing → { reg with listing }.find? g = some r →
      Resolved reg now later g discovered ({ reg with listing }.forget g, .ok r)
  /-- the new listing lacks the kind -/
  | lacking {listing : List Resource} : reg.asks now g = true →
      discovered = .ok listing → { reg with listing }.find? g = none →
      Resolved reg now later g discovered
        ({ reg with listing }.remember later g, .error (unknown g))

/-- **Each request is answered in one of these ways.** Proofs about the registry split here,
and not along the code. -/
theorem resolved (reg : Registry) (now later : Nat) (g : GroupVersionKind)
    (discovered : Except String (List Resource)) :
    Resolved reg now later g discovered (reg.resolveUntil now later g discovered) := by
  rcases hknown : reg.find? g with _ | r
  · rcases hmissed : reg.recentlyMissed now g with _ | _
    · have hasks : reg.asks now g = true := by simp [asks, hknown, hmissed]
      rcases discovered with reason | listing
      · have hresolve : reg.resolveUntil now later g (.error reason) =
            (reg, .error (discoveryFailed reason)) := by
          simp [resolveUntil, hknown, hmissed, refresh]
        rw [hresolve]
        exact .failed hasks rfl
      · have hresolve : reg.resolveUntil now later g (.ok listing) =
            { reg with listing }.settle later g := by
          simp [resolveUntil, hknown, hmissed, refresh]
        rw [hresolve]
        rcases hfind : { reg with listing }.find? g with _ | r
        · rw [settle, hfind]
          exact .lacking hasks rfl hfind
        · rw [settle, hfind]
          exact .found hasks rfl hfind
    · rw [resolveUntil, hknown, if_pos hmissed]
      exact .remembered hknown hmissed
  · rw [resolveUntil, hknown]
    exact .known hknown

/-- Whether it is in the latest listing or in a new one, a resource that a kind is resolved
to serves this kind. -/
theorem gvk_of_resolve {discovered : Except String (List Resource)}
    (h : (reg.resolve now g discovered).2 = .ok r) : r.gvk = g := by
  have hresolved := reg.resolved now now g discovered
  rw [resolve] at h
  generalize reg.resolveUntil now now g discovered = answer at h hresolved
  cases hresolved with
  | known hknown =>
    obtain rfl := Except.ok.inj h
    exact gvk_of_find? hknown
  | found _ _ hfound =>
    obtain rfl := Except.ok.inj h
    exact gvk_of_find? hfound
  | remembered | failed | lacking => cases h

end Registry

namespace Cluster

/-! ## Reviews one by one -/

/-- Ask for some rights one after the other. -/
def reviewAll (c : Cluster) (r : Resource) (access : Access) (verbs : List Verb) :
    Cluster × Access :=
  verbs.foldl (fun p verb =>
    ((p.1.review r verb).1, p.2.record verb (p.1.review r verb).2)) (c, access)

@[simp] theorem countReviews_none (c : Cluster) (plural : String) :
    c.countReviews plural 0 = c := by
  have hsame : override c.reviews plural (c.reviews plural + 0) = c.reviews := by
    funext x
    by_cases hx : x = plural
    · simp [override, hx]
    · simp [override, hx]
  rw [countReviews, hsame]

/-- Questions add up, so one call for all rights and one for each right leave the same
count. -/
theorem countReviews_countReviews (c : Cluster) (plural : String) (n m : Nat) :
    (c.countReviews plural n).countReviews plural m = c.countReviews plural (n + m) := by
  have hsum : override (override c.reviews plural (c.reviews plural + n)) plural
      (override c.reviews plural (c.reviews plural + n) plural + m) =
      override c.reviews plural (c.reviews plural + (n + m)) := by
    funext x
    by_cases hx : x = plural
    · simp [override, hx, Nat.add_assoc]
    · simp [override, hx]
  simp only [countReviews, hsum]

/-- The questions before have no influence on the answer: what is counted is not what is
granted. -/
theorem reviewAll_eq (c : Cluster) (r : Resource) (access : Access) (verbs : List Verb) :
    c.reviewAll r access verbs = (c.countReviews r.plural verbs.length,
      verbs.foldl (fun access verb => access.record verb
        ((c.answer (AccessReview.about r verb)).getD false)) access) := by
  induction verbs generalizing c access with
  | nil => simp [reviewAll]
  | cons verb verbs ih =>
    have hnext : c.reviewAll r access (verb :: verbs) =
        (c.countReviews r.plural 1).reviewAll r
          (access.record verb ((c.answer (AccessReview.about r verb)).getD false)) verbs := rfl
    rw [hnext, ih, countReviews_countReviews, Nat.add_comm 1]
    rfl

/-- To ask for all rights one after the other is to probe. So a start and a prober learn the
same from the same cluster. -/
theorem reviewAll_required (c : Cluster) (r : Resource) :
    c.reviewAll r .denied Verb.required = c.probe r := by
  rw [reviewAll_eq, probe, Access.probe, AccessReview.required, List.foldl_map, List.length_map]
  rfl

end Cluster

end KindCache
