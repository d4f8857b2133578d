import KindCache.Proofs.Cluster.Inquiry

/-!
# What a registry learns

A registry is called again and again, while the cluster changes what it lists and its discovery
may fail at any call. The registry keeps the latest listing as a whole and, apart from it, the
kinds that some listing has lacked; a listing that is taken in on behalf of one kind may bring or
lose another one.

* `Visit`, `Ledger` — a call, and a run of calls with the listings that were taken in;
* `Visit.Does`, `Visit.does` — all that one call can do;
* `Ledger.Learned` — the invariant of a run whose calls are made in turn: where the two tables
  come from, and that no kind is forgotten too early;
* `Ledger.run_answers` — every answer agrees with the listings, and the listings for one missing
  kind lie apart.
-/

namespace KindCache

/-! ## Entries of a listing -/

/-- The last entry of a listing for a kind. -/
def LastEntry (listing : List Resource) (g : GroupVersionKind) (r : Resource) : Prop :=
  ∃ before after, listing = before ++ r :: after ∧ r.gvk = g ∧ ∀ x ∈ after, x.gvk ≠ g

/-- A listing without any entry for a kind. -/
def Lacks (listing : List Resource) (g : GroupVersionKind) : Prop :=
  ∀ x ∈ listing, x.gvk ≠ g

/-- A listing does not lack what it has an entry for. -/
theorem LastEntry.not_lacks {listing : List Resource} {g : GroupVersionKind} {r : Resource}
    (h : LastEntry listing g r) : ¬ Lacks listing g := by
  obtain ⟨before, after, rfl, hr, -⟩ := h
  exact fun hlacks => hlacks r (by simp) hr

namespace Registry

variable {reg : Registry} {g g' : GroupVersionKind} {r : Resource} {now t since : Nat}

/-- A registry finds the last entry of a kind: later entries of a listing take the place of
earlier ones. -/
theorem find?_eq_some_iff : reg.find? g = some r ↔ LastEntry reg.listing g r := by
  rw [find?, List.find?_eq_some_iff_append]
  constructor
  · rintro ⟨hr, before, after, hsplit, hnone⟩
    refine ⟨after.reverse, before.reverse, ?_, by simpa using hr, fun x hx => ?_⟩
    · rw [List.reverse_eq_iff] at hsplit
      simpa using hsplit
    · simpa using hnone x (List.mem_reverse.mp hx)
  · rintro ⟨before, after, hsplit, hr, hnone⟩
    refine ⟨by simpa using hr, after.reverse, before.reverse, by simp [hsplit], fun x hx => ?_⟩
    simpa using hnone x (List.mem_reverse.mp hx)

theorem find?_eq_none_iff : reg.find? g = none ↔ Lacks reg.listing g := by
  simp [find?, Lacks]

/-! ## Remembering and forgetting -/

@[simp] theorem find?_remember : (reg.remember now g).find? g' = reg.find? g' :=
  rfl

@[simp] theorem find?_forget : (reg.forget g).find? g' = reg.find? g' :=
  rfl

/-- To be missing is to have an entry in the second table that is still fresh. -/
theorem recentlyMissed_iff :
    reg.recentlyMissed t g = true ↔
      ∃ since, reg.misses.lookup g = some since ∧ reg.fresh t since = true := by
  rw [recentlyMissed]
  split
  · next since hlookup => simp [hlookup]
  · next hlookup => simp [hlookup]

/-- An entry that is kept is still the one that is found. Pruning goes by the age of
entries, and an entry of another kind never hides this one. -/
theorem lookup_filter {misses : List (GroupVersionKind × Nat)}
    {p : GroupVersionKind × Nat → Bool} (h : misses.lookup g = some since)
    (hp : p (g, since) = true) : (misses.filter p).lookup g = some since := by
  induction misses with
  | nil => cases h
  | cons m misses ih =>
    obtain ⟨g', since'⟩ := m
    rw [List.lookup_cons] at h
    split at h
    · next hsame =>
      obtain rfl : g = g' := by simpa using hsame
      obtain rfl := Option.some.inj h
      rw [List.filter_cons_of_pos hp, List.lookup_cons, hsame]
    · next hother =>
      rcases hkeep : p (g', since') with _ | _
      · rw [List.filter_cons_of_neg (by simp [hkeep])]
        exact ih h
      · rw [List.filter_cons_of_pos hkeep, List.lookup_cons, hother]
        exact ih h

/-- The kind that has just been searched for is missing for as long as an entry of now is
fresh. -/
theorem recentlyMissed_remember_self :
    (reg.remember now g).recentlyMissed t g = reg.fresh t now := by
  simp [recentlyMissed, remember, fresh]

/-- What is pruned is not asked for any more, since time goes on. So other kinds that are
still missing stay so when one more is remembered. -/
theorem recentlyMissed_remember (hne : g' ≠ g) (htime : now ≤ t)
    (h : reg.recentlyMissed t g' = true) :
    (reg.remember now g).recentlyMissed t g' = true := by
  obtain ⟨since, hlookup, hfresh⟩ := recentlyMissed_iff.mp h
  have hkept : reg.fresh now since = true := by
    simp only [fresh, decide_eq_true_eq] at hfresh ⊢
    omega
  refine recentlyMissed_iff.mpr ⟨since, ?_, hfresh⟩
  have hbeq : (g' == g) = false := by simpa using hne
  rw [remember, List.lookup_cons, hbeq]
  exact lookup_filter hlookup (by simp [hkept, hne])

/-- When a kind is found, only its own entry goes. -/
theorem recentlyMissed_forget (hne : g' ≠ g) (h : reg.recentlyMissed t g' = true) :
    (reg.forget g).recentlyMissed t g' = true := by
  obtain ⟨since, hlookup, hfresh⟩ := recentlyMissed_iff.mp h
  exact recentlyMissed_iff.mpr ⟨since, lookup_filter hlookup (by simp [hne]), hfresh⟩

/-- The cluster is asked when neither table has an answer. -/
theorem asks_iff :
    reg.asks t g = true ↔ reg.find? g = none ∧ reg.recentlyMissed t g = false := by
  simp [asks]

end Registry

/-! ## Calls -/

/-- A call of a registry, and the cluster that it may ask. -/
structure Visit where
  /-- the kind to resolve; none if only a new listing is wanted -/
  request : Option GroupVersionKind
  /-- the cluster during the call -/
  cluster : Cluster
  /-- when the call was made -/
  asked : Nat
  /-- when it returned -/
  answered : Nat

/-- What a call leaves behind. -/
structure Visit.Outcome where
  cluster : Cluster
  registry : Registry
  /-- the resource, unless only a new listing was wanted -/
  result : Except CacheError (Option Resource)

/-- A listing that a registry has taken in. -/
structure Intake where
  /-- the kind on whose behalf the cluster was asked; none if there was none -/
  request : Option GroupVersionKind
  /-- when the cluster was asked -/
  began : Nat
  /-- when the listing was there -/
  done : Nat
  listing : List Resource

namespace Visit

/-- Make the call. -/
def outcome (v : Visit) (reg : Registry) : Outcome :=
  match v.request with
  | some g =>
    let (cluster, registry, result) := v.cluster.resolveUntil reg v.asked v.answered g
    { cluster, registry, result := result.map some }
  | none =>
    let (cluster, registry, result) := v.cluster.refresh reg
    { cluster, registry, result := result.map fun _ => none }

/-- Whether the cluster was asked: it counts this. -/
def discovers (v : Visit) (reg : Registry) : Bool :=
  v.cluster.discoveries < (v.outcome reg).cluster.discoveries

/-- The listing that the cluster gave, if it was asked. -/
def intake? (v : Visit) (reg : Registry) : Option Intake :=
  if v.discovers reg then
    v.cluster.discovery.toOption.map fun listing =>
      { request := v.request, began := v.asked, done := v.answered, listing }
  else none

/-- All that a call can do: what it leaves behind, and the listing that it takes in. -/
inductive Does (v : Visit) (reg : Registry) : Outcome → Bool → Option Intake → Prop where
  | known {g : GroupVersionKind} {r : Resource} : v.request = some g → reg.find? g = some r →
      Does v reg ⟨v.cluster, reg, .ok (some r)⟩ false none
  | remembered {g : GroupVersionKind} : v.request = some g → reg.find? g = none →
      reg.recentlyMissed v.asked g = true →
      Does v reg ⟨v.cluster, reg, .error (Registry.unknown g)⟩ false none
  | failed {reason : String} : (∀ g, v.request = some g → reg.asks v.asked g = true) →
      v.cluster.discovery = .error reason →
      Does v reg ⟨v.cluster.countDiscovery, reg, .error (Registry.discoveryFailed reason)⟩ true
        none
  | refreshed {listing : List Resource} : v.request = none →
      v.cluster.discovery = .ok listing →
      Does v reg ⟨v.cluster.countDiscovery, { reg with listing }, .ok none⟩ true
        (some ⟨none, v.asked, v.answered, listing⟩)
  | found {g : GroupVersionKind} {listing : List Resource} {r : Resource} :
      v.request = some g → reg.asks v.asked g = true → v.cluster.discovery = .ok listing →
      { reg with listing }.find? g = some r →
      Does v reg ⟨v.cluster.countDiscovery, { reg with listing }.forget g, .ok (some r)⟩ true
        (some ⟨some g, v.asked, v.answered, listing⟩)
  | lacking {g : GroupVersionKind} {listing : List Resource} :
      v.request = some g → reg.asks v.asked g = true → v.cluster.discovery = .ok listing →
      { reg with listing }.find? g = none →
      Does v reg ⟨v.cluster.countDiscovery, { reg with listing }.remember v.answered g,
        .error (Registry.unknown g)⟩ true (some ⟨some g, v.asked, v.answered, listing⟩)

section

variable {v : Visit} {reg reg' : Registry} {g : GroupVersionKind}

/-- The counter of the cluster tells whether it was asked, and if not, nothing is taken
in. -/
theorem intake?_unasked (h : (v.outcome reg).cluster = v.cluster) :
    v.discovers reg = false ∧ v.intake? reg = none := by
  have hnot : v.discovers reg = false := by simp [discovers, h]
  exact ⟨hnot, by rw [intake?, hnot]; rfl⟩

theorem intake?_asked (h : (v.outcome reg).cluster = v.cluster.countDiscovery) :
    v.discovers reg = true ∧ v.intake? reg = v.cluster.discovery.toOption.map fun listing =>
      ⟨v.request, v.asked, v.answered, listing⟩ := by
  have hasked : v.discovers reg = true := by simp [discovers, h, Cluster.countDiscovery]
  exact ⟨hasked, by rw [intake?, if_pos hasked]⟩

/-- Without a discovery a call takes nothing in, and the cluster is as it was. -/
theorem resolve_unasked {result : Except CacheError Resource} (hrequest : v.request = some g)
    (hanswer : reg.resolveUntil v.asked v.answered g v.cluster.discovery = (reg', result))
    (hasks : reg.asks v.asked g = false) :
    v.outcome reg = ⟨v.cluster, reg', result.map some⟩ ∧ v.discovers reg = false ∧
      v.intake? reg = none := by
  have houtcome : v.outcome reg = ⟨v.cluster, reg', result.map some⟩ := by
    simp [outcome, hrequest, Cluster.resolveUntil, hanswer, hasks]
  exact ⟨houtcome, intake?_unasked (by rw [houtcome])⟩

/-- With a discovery it takes in the listing, if there is one. A listing that lacks the kind
is taken in as well. -/
theorem resolve_asked {result : Except CacheError Resource} (hrequest : v.request = some g)
    (hanswer : reg.resolveUntil v.asked v.answered g v.cluster.discovery = (reg', result))
    (hasks : reg.asks v.asked g = true) :
    v.outcome reg = ⟨v.cluster.countDiscovery, reg', result.map some⟩ ∧
      v.discovers reg = true ∧ v.intake? reg = v.cluster.discovery.toOption.map fun listing =>
        ⟨some g, v.asked, v.answered, listing⟩ := by
  have houtcome : v.outcome reg = ⟨v.cluster.countDiscovery, reg', result.map some⟩ := by
    simp [outcome, hrequest, Cluster.resolveUntil, hanswer, hasks]
  exact ⟨houtcome, hrequest ▸ intake?_asked (by rw [houtcome])⟩

/-- A refresh always is a discovery: it looks at neither of the tables. -/
theorem refresh_asked {result : Except CacheError Unit} (hrequest : v.request = none)
    (hanswer : reg.refresh v.cluster.discovery = (reg', result)) :
    v.outcome reg = ⟨v.cluster.countDiscovery, reg', result.map fun _ => none⟩ ∧
      v.discovers reg = true ∧ v.intake? reg = v.cluster.discovery.toOption.map fun listing =>
        ⟨none, v.asked, v.answered, listing⟩ := by
  have houtcome : v.outcome reg =
      ⟨v.cluster.countDiscovery, reg', result.map fun _ => none⟩ := by
    simp [outcome, hrequest, Cluster.refresh, hanswer]
  exact ⟨houtcome, hrequest ▸ intake?_asked (by rw [houtcome])⟩

end

/-- **All that a call can do.** Statements about calls split along `Does`, and never along
the code of the registry. -/
theorem does (v : Visit) (reg : Registry) :
    v.Does reg (v.outcome reg) (v.discovers reg) (v.intake? reg) := by
  rcases hrequest : v.request with _ | g
  · have hnone : ∀ g, v.request ≠ some g := by simp [hrequest]
    rcases hdiscovery : v.cluster.discovery with reason | listing
    · have hanswer : reg.refresh v.cluster.discovery =
          (reg, .error (Registry.discoveryFailed reason)) := by
        rw [hdiscovery]
        rfl
      obtain ⟨houtcome, hasked, hintake⟩ := refresh_asked hrequest hanswer
      rw [houtcome, hasked, hintake, hdiscovery]
      exact .failed (fun g hg => absurd hg (hnone g)) hdiscovery
    · have hanswer : reg.refresh v.cluster.discovery = ({ reg with listing }, .ok ()) := by
        rw [hdiscovery]
        rfl
      obtain ⟨houtcome, hasked, hintake⟩ := refresh_asked hrequest hanswer
      rw [houtcome, hasked, hintake, hdiscovery]
      exact .refreshed hrequest hdiscovery
  · have hresolved := reg.resolved v.asked v.answered g v.cluster.discovery
    generalize hanswer : reg.resolveUntil v.asked v.answered g v.cluster.discovery = answer
      at hresolved
    cases hresolved with
    | known hknown =>
      have hasks : reg.asks v.asked g = false := by simp [Registry.asks, hknown]
      obtain ⟨houtcome, hunasked, hintake⟩ := resolve_unasked hrequest hanswer hasks
      rw [houtcome, hunasked, hintake]
      exact .known hrequest hknown
    | remembered hnone hmissed =>
      have hasks : reg.asks v.asked g = false := by simp [Registry.asks, hmissed]
      obtain ⟨houtcome, hunasked, hintake⟩ := resolve_unasked hrequest hanswer hasks
      rw [houtcome, hunasked, hintake]
      exact .remembered hrequest hnone hmissed
    | failed hasks hdiscovery =>
      obtain ⟨houtcome, hasked, hintake⟩ := resolve_asked hrequest hanswer hasks
      rw [houtcome, hasked, hintake, hdiscovery]
      refine .failed (fun g' hg' => ?_) hdiscovery
      obtain rfl := Option.some.inj (hrequest.symm.trans hg')
      exact hasks
    | found hasks hdiscovery hfound =>
      obtain ⟨houtcome, hasked, hintake⟩ := resolve_asked hrequest hanswer hasks
      rw [houtcome, hasked, hintake, hdiscovery]
      exact .found hrequest hasks hdiscovery hfound
    | lacking hasks hdiscovery hlacking =>
      obtain ⟨houtcome, hasked, hintake⟩ := resolve_asked hrequest hanswer hasks
      rw [houtcome, hasked, hintake, hdiscovery]
      exact .lacking hrequest hasks hdiscovery hlacking

namespace Does

variable {v : Visit} {reg : Registry} {o : Outcome} {asked : Bool} {i : Option Intake}
  {g : GroupVersionKind}

/-- A kind is resolved to what the registry then has for it, whether it was there before or
has just been taken in. -/
theorem result_iff (h : v.Does reg o asked i) (hrequest : v.request = some g) {r : Resource} :
    o.result = .ok (some r) ↔ o.registry.find? g = some r := by
  cases h with
  | known hsame hknown =>
    obtain rfl := Option.some.inj (hrequest.symm.trans hsame)
    simp [hknown]
  | remembered hsame hnone =>
    obtain rfl := Option.some.inj (hrequest.symm.trans hsame)
    simp [hnone]
  | failed hasks =>
    have hnone : reg.find? g = none := (Registry.asks_iff.mp (hasks g hrequest)).1
    simp [hnone]
  | refreshed hnone => simp [hnone] at hrequest
  | found hsame _ _ hfound =>
    obtain rfl := Option.some.inj (hrequest.symm.trans hsame)
    rw [Registry.find?_forget, hfound, Except.ok.injEq]
  | lacking hsame _ _ hnone =>
    obtain rfl := Option.some.inj (hrequest.symm.trans hsame)
    rw [Registry.find?_remember, hnone]
    simp

/-- A kind is unknown if it is remembered as missing or if a new listing lacks it. The
registry has no entry for it afterwards either. -/
theorem unknown (h : v.Does reg o asked i) (hrequest : v.request = some g) {e : CacheError}
    (hresult : o.result = .error e) (hkind : e.kind = .resolution) :
    o.registry.find? g = none ∧ (reg.recentlyMissed v.asked g = true ∨
      ∃ a, i = some a ∧ Lacks a.listing g) := by
  cases h with
  | known | refreshed | found => cases hresult
  | failed =>
    cases hresult
    cases hkind
  | remembered hsame hnone hmissed =>
    obtain rfl := Option.some.inj (hrequest.symm.trans hsame)
    exact ⟨hnone, .inl hmissed⟩
  | lacking hsame _ _ hnone =>
    obtain rfl := Option.some.inj (hrequest.symm.trans hsame)
    exact ⟨hnone, .inr ⟨_, rfl, Registry.find?_eq_none_iff.mp hnone⟩⟩

/-- A discovery that fails leaves both tables as they are, so that the next call tries
again. -/
theorem failed_discovery (h : v.Does reg o asked i) (hasked : asked = true) {reason : String}
    (hdiscovery : v.cluster.discovery = .error reason) :
    o.result = .error (.transient ("discovery: " ++ reason)) ∧ o.registry = reg ∧ i = none := by
  cases h with
  | known | remembered => cases hasked
  | failed _ hfail =>
    obtain rfl := Except.error.inj (hfail.symm.trans hdiscovery)
    exact ⟨rfl, rfl, rfl⟩
  | refreshed _ hlisted | found _ _ hlisted | lacking _ _ hlisted =>
    cases hlisted.symm.trans hdiscovery

/-- There are two sorts of errors, and one of them takes a discovery that has failed. -/
theorem errors (h : v.Does reg o asked i) {e : CacheError} (hresult : o.result = .error e) :
    e.kind = .resolution ∧ v.request.isSome = true ∨
      asked = true ∧ ∃ reason, v.cluster.discovery = .error reason := by
  cases h with
  | known | refreshed | found => cases hresult
  | remembered hrequest | lacking hrequest =>
    cases hresult
    exact .inl ⟨rfl, by rw [hrequest]; rfl⟩
  | failed _ hfail => exact .inr ⟨rfl, _, hfail⟩

/-- The cluster is asked at most once in a call. -/
theorem once (h : v.Does reg o asked i) :
    o.cluster = v.cluster ∨ o.cluster = v.cluster.countDiscovery := by
  cases h with
  | known | remembered => exact .inl rfl
  | failed | refreshed | found | lacking => exact .inr rfl

/-- For a kind that is known the cluster is not asked, however old the listing is. -/
theorem hit (h : v.Does reg o asked i) (hrequest : v.request = some g) {r : Resource}
    (hknown : reg.find? g = some r) : o.cluster = v.cluster := by
  have hnot : ¬ reg.asks v.asked g = true := by simp [Registry.asks, hknown]
  cases h with
  | known | remembered => rfl
  | failed hasks => exact absurd (hasks g hrequest) hnot
  | refreshed hnone => simp [hnone] at hrequest
  | found hsame hasks | lacking hsame hasks =>
    obtain rfl := Option.some.inj (hrequest.symm.trans hsame)
    exact absurd hasks hnot

end Does

end Visit

/-! ## Runs -/

/-- A registry, and all listings that it has taken in so far. -/
structure Ledger where
  registry : Registry
  intakes : List Intake

/-- Calls that are made one after the other. -/
structure InTurn (visits : List Visit) : Prop where
  forward : ∀ v ∈ visits, v.asked ≤ v.answered
  apart : visits.Pairwise fun v v' => v.answered ≤ v'.asked

/-- Two listings on behalf of one kind that lie apart, if the first one lacked the kind. -/
def Intake.Spaced (ttl : Nat) (a b : Intake) : Prop :=
  ∀ g, a.request = some g → b.request = some g → Lacks a.listing g → a.done + ttl ≤ b.began

namespace Ledger

/-- The ledger before the first call. -/
def starting (ttl : Nat) : Ledger :=
  { registry := .starting ttl, intakes := [] }

/-- The ledger after a call. -/
def visit (l : Ledger) (v : Visit) : Ledger :=
  { registry := (v.outcome l.registry).registry
    intakes := l.intakes ++ (v.intake? l.registry).toList }

/-- The listing that was taken in last. -/
def latest (l : Ledger) : Option Intake :=
  l.intakes.getLast?

/-- The ledger after some calls. -/
def run (l : Ledger) (visits : List Visit) : Ledger :=
  visits.foldl visit l

/-- What is known of a registry when nothing will be asked before a given time. -/
structure Learned (ttl now : Nat) (l : Ledger) : Prop where
  missTtl : l.registry.missTtl = ttl
  /-- the first table is the latest listing -/
  listing : l.registry.listing = l.latest.elim [] (·.listing)
  /-- the second table holds nothing that no listing has lacked -/
  misses : ∀ m ∈ l.registry.misses, ∃ a ∈ l.intakes, Lacks a.listing m.1 ∧ a.done = m.2
  /-- a kind that was searched for and not found is remembered -/
  remembers : ∀ a ∈ l.intakes, ∀ g, a.request = some g → Lacks a.listing g →
    ∀ t, now ≤ t → t < a.done + ttl → l.registry.recentlyMissed t g = true
  done : ∀ a ∈ l.intakes, a.done ≤ now
  spaced : l.intakes.Pairwise (Intake.Spaced ttl)

namespace Learned

variable {ttl now later : Nat} {l : Ledger} {v : Visit} {g : GroupVersionKind}

/-- A new registry has taken nothing in, and remembers nothing. -/
theorem starting (ttl : Nat) : (Ledger.starting ttl).Learned ttl 0 := by
  refine ⟨rfl, rfl, fun m hm => ?_, fun a ha => ?_, fun a ha => ?_, .nil⟩
  · exact absurd hm List.not_mem_nil
  · exact absurd ha List.not_mem_nil
  · exact absurd ha List.not_mem_nil

/-- Time goes by. Everything that is promised for a time is promised for later times too. -/
theorem wait (h : l.Learned ttl now) (hle : now ≤ later) : l.Learned ttl later :=
  { h with
    remembers := fun a ha g hg hlacks t ht => h.remembers a ha g hg hlacks t (Nat.le_trans hle ht)
    done := fun a ha => Nat.le_trans (h.done a ha) hle }

/-- A kind that needs a new listing was not searched for in vain a short while ago, for it
would be remembered. This is what keeps the listings for one kind apart. -/
theorem expired (h : l.Learned ttl now) (hasks : l.registry.asks now g = true) {a : Intake}
    (ha : a ∈ l.intakes) (hrequest : a.request = some g) (hlacks : Lacks a.listing g) :
    a.done + ttl ≤ now := by
  refine Nat.le_of_not_lt fun hlt => ?_
  have hmissed := h.remembers a ha g hrequest hlacks now (Nat.le_refl now) hlt
  rw [(Registry.asks_iff.mp hasks).2] at hmissed
  exact Bool.noConfusion hmissed

/-- **A new listing takes the place of the old one.** What is remembered may change, as long
as no other kind is forgotten and every entry has its reason. -/
theorem intake (h : l.Learned ttl now) {a : Intake} {reg : Registry} (hbegan : now ≤ a.began)
    (hdone : a.began ≤ a.done) (hasks : ∀ g, a.request = some g → l.registry.asks a.began g = true)
    (httl : reg.missTtl = ttl) (hlisting : reg.listing = a.listing)
    (hmisses : ∀ m ∈ reg.misses, m ∈ l.registry.misses ∨ Lacks a.listing m.1 ∧ a.done = m.2)
    (hothers : ∀ g t, a.request ≠ some g → a.done ≤ t → l.registry.recentlyMissed t g = true →
      reg.recentlyMissed t g = true)
    (hnew : ∀ g t, a.request = some g → Lacks a.listing g → a.done ≤ t → t < a.done + ttl →
      reg.recentlyMissed t g = true) :
    Learned ttl a.done ⟨reg, l.intakes ++ [a]⟩ := by
  have hbefore := h.wait hbegan
  refine ⟨httl, ?_, fun m hm => ?_, fun b hb g hg hlacks t ht hlt => ?_, fun b hb => ?_, ?_⟩
  · simp [latest, hlisting]
  · rcases hmisses m hm with hold | ⟨hlacks, hat⟩
    · obtain ⟨b, hb, hreason⟩ := h.misses m hold
      exact ⟨b, List.mem_append_left _ hb, hreason⟩
    · exact ⟨a, by simp, hlacks, hat⟩
  · rcases List.mem_append.mp hb with hb | hb
    · by_cases hsame : a.request = some g
      · -- an old listing for the same kind is out of date by now
        have hexpired := hbefore.expired (hasks g hsame) hb hg hlacks
        omega
      · exact hothers g t hsame ht
          (hbefore.remembers b hb g hg hlacks t (Nat.le_trans hdone ht) hlt)
    · obtain rfl := List.mem_singleton.mp hb
      exact hnew g t hg hlacks ht hlt
  · rcases List.mem_append.mp hb with hb | hb
    · exact Nat.le_trans (hbefore.done b hb) hdone
    · obtain rfl := List.mem_singleton.mp hb
      exact Nat.le_refl _
  · refine List.pairwise_append.mpr ⟨h.spaced, List.pairwise_singleton _ _, fun b hb c hc => ?_⟩
    obtain rfl := List.mem_singleton.mp hc
    intro g hg hsame hlacks
    exact hbefore.expired (hasks g hsame) hb hg hlacks

/-- Whatever a call does, the registry knows no more and no less than the listings say. The
three cases that take a listing in go through `intake`, and the others change nothing. -/
theorem visit (h : l.Learned ttl now) (hasked : now ≤ v.asked) (hanswered : v.asked ≤ v.answered) :
    (l.visit v).Learned ttl v.answered := by
  have hdoes := v.does l.registry
  have hwait : l.Learned ttl v.answered := h.wait (Nat.le_trans hasked hanswered)
  rw [Ledger.visit]
  generalize v.outcome l.registry = o at hdoes
  generalize v.intake? l.registry = i at hdoes
  generalize v.discovers l.registry = d at hdoes
  cases hdoes with
  | known | remembered | failed =>
    rw [Option.toList_none, List.append_nil]
    exact hwait
  | refreshed hrequest =>
    refine h.intake (a := ⟨none, v.asked, v.answered, _⟩) hasked hanswered ?_ h.missTtl rfl ?_ ?_ ?_
    · exact fun g hg => absurd hg (Option.some_ne_none g).symm
    · exact fun m hm => .inl hm
    · exact fun g t _ _ hmissed => hmissed
    · exact fun g t hg => absurd hg (Option.some_ne_none g).symm
  | @found g listing r hrequest hasks _ hfound =>
    have hlists : LastEntry listing g r := Registry.find?_eq_some_iff.mp hfound
    refine h.intake (a := ⟨some g, v.asked, v.answered, listing⟩) hasked hanswered ?_ h.missTtl rfl
      ?_ ?_ ?_
    · exact fun g' hg' => by rwa [← Option.some.inj hg']
    · exact fun m hm => .inl (List.mem_filter.mp hm).1
    · intro g' t hne _ hmissed
      have hother : g' ≠ g := fun hsame => hne (congrArg some hsame.symm)
      exact Registry.recentlyMissed_forget hother hmissed
    · intro g' t hg' hlacks
      obtain rfl := Option.some.inj hg'
      exact absurd hlacks hlists.not_lacks
  | @lacking g listing hrequest hasks _ hnone =>
    have hlacks : Lacks listing g := Registry.find?_eq_none_iff.mp hnone
    refine h.intake (a := ⟨some g, v.asked, v.answered, listing⟩) hasked hanswered ?_ h.missTtl rfl
      ?_ ?_ ?_
    · exact fun g' hg' => by rwa [← Option.some.inj hg']
    · intro m hm
      rcases List.mem_cons.mp hm with rfl | hm
      · exact .inr ⟨hlacks, rfl⟩
      · exact .inl (List.mem_filter.mp hm).1
    · intro g' t hne ht hmissed
      have hother : g' ≠ g := fun hsame => hne (congrArg some hsame.symm)
      exact Registry.recentlyMissed_remember hother ht hmissed
    · intro g' t hg' _ ht hlt
      obtain rfl := Option.some.inj hg'
      have hfresh : t - v.answered < ttl := Nat.sub_lt_left_of_lt_add ht hlt
      rw [Registry.recentlyMissed_remember_self, Registry.fresh]
      exact decide_eq_true (h.missTtl.symm ▸ hfresh)

/-- It holds after calls in turn, for every time at which all of them have returned. The
next call is made no earlier, so the invariant is in force when it starts. -/
theorem run {visits : List Visit} (h : l.Learned ttl now) (hturn : InTurn visits)
    (hstart : ∀ v ∈ visits, now ≤ v.asked) :
    ∃ later, (l.run visits).Learned ttl later ∧
      ∀ t, now ≤ t → (∀ v ∈ visits, v.answered ≤ t) → later ≤ t := by
  induction visits generalizing l now with
  | nil => exact ⟨now, h, fun _ hle _ => hle⟩
  | cons v visits ih =>
    obtain ⟨hfirst, hrest⟩ := List.pairwise_cons.mp hturn.apart
    have hnext := h.visit (hstart v List.mem_cons_self) (hturn.forward v List.mem_cons_self)
    obtain ⟨later, hlearned, hafter⟩ :=
      ih hnext ⟨fun u hu => hturn.forward u (List.mem_cons_of_mem _ hu), hrest⟩ hfirst
    refine ⟨later, hlearned, fun t _ ht => ?_⟩
    exact hafter t (ht v List.mem_cons_self) fun u hu => ht u (List.mem_cons_of_mem _ hu)

/-! ### Answers -/

/-- What a registry finds is in the latest listing, since the first table is that
listing. -/
theorem find?_iff (h : l.Learned ttl now) {r : Resource} :
    l.registry.find? g = some r ↔ ∃ a, l.latest = some a ∧ LastEntry a.listing g r := by
  rw [Registry.find?_eq_some_iff, h.listing]
  rcases hlatest : l.latest with _ | a
  · simp [LastEntry]
  · simp

/-- What a registry does not find the latest listing lacks, if there is one. Before the
first listing nothing can be said. -/
theorem lacks (h : l.Learned ttl now) {a : Intake} (ha : a ∈ l.intakes)
    (hnone : l.registry.find? g = none) : ∃ a, l.latest = some a ∧ Lacks a.listing g := by
  have hsome : l.latest.isSome = true := by
    rw [latest, List.getLast?_isSome]
    exact List.ne_nil_of_mem ha
  obtain ⟨b, hb⟩ := Option.isSome_iff_exists.mp hsome
  have hlacks := Registry.find?_eq_none_iff.mp hnone
  rw [h.listing, hb] at hlacks
  exact ⟨b, hb, hlacks⟩

/-- What is remembered as missing some listing has lacked a short while ago. It need not be
the latest one: a kind may be back and still be remembered. -/
theorem missed (h : l.Learned ttl now) {t : Nat} (hmissed : l.registry.recentlyMissed t g = true) :
    ∃ a ∈ l.intakes, Lacks a.listing g ∧ t < a.done + ttl := by
  obtain ⟨since, hlookup, hfresh⟩ := Registry.recentlyMissed_iff.mp hmissed
  obtain ⟨a, ha, hlacks, hdone⟩ := h.misses (g, since) (Table.mem_of_lookup hlookup)
  refine ⟨a, ha, hlacks, ?_⟩
  simp only [Registry.fresh, h.missTtl, decide_eq_true_eq] at hfresh
  omega

end Learned

/-- An answer that agrees with the listings that were taken in before the call and in it. -/
structure Answers (ttl : Nat) (l : Ledger) (v : Visit) : Prop where
  /-- a kind is resolved to its last entry in the latest listing -/
  found : ∀ g r, v.request = some g → ((v.outcome l.registry).result = .ok (some r) ↔
    ∃ a, (l.visit v).latest = some a ∧ LastEntry a.listing g r)
  /-- a kind is unknown only if the latest listing lacks it, and so did one that was made in this
  call or a short while ago -/
  unknown : ∀ g e, v.request = some g → (v.outcome l.registry).result = .error e →
    e.kind = .resolution → (∃ a, (l.visit v).latest = some a ∧ Lacks a.listing g) ∧
      ∃ a ∈ (l.visit v).intakes, Lacks a.listing g ∧
        (v.intake? l.registry = some a ∨ v.asked < a.done + ttl)
  /-- a discovery that fails is reported and changes nothing -/
  failed : ∀ reason, v.discovers l.registry = true → v.cluster.discovery = .error reason →
    (v.outcome l.registry).result = .error (.transient ("discovery: " ++ reason)) ∧
      l.visit v = l
  /-- there is no other error -/
  errors : ∀ e, (v.outcome l.registry).result = .error e →
    e.kind = .resolution ∧ v.request.isSome = true ∨
      v.discovers l.registry = true ∧ ∃ reason, v.cluster.discovery = .error reason
  /-- the cluster is asked once or not at all -/
  once : (v.outcome l.registry).cluster = v.cluster ∨
    (v.outcome l.registry).cluster = v.cluster.countDiscovery
  /-- it is not asked for what the latest listing has -/
  hit : ∀ g a r, v.request = some g → l.latest = some a → LastEntry a.listing g r →
    (v.outcome l.registry).cluster = v.cluster

variable {ttl now : Nat} {l : Ledger} {v : Visit}

/-- An invariant that holds before a call makes its answer agree with the listings. -/
theorem Learned.answers (h : l.Learned ttl now) (hasked : now ≤ v.asked)
    (hanswered : v.asked ≤ v.answered) : Answers ttl l v := by
  have hdoes := v.does l.registry
  have hafter : (l.visit v).Learned ttl v.answered := h.visit hasked hanswered
  refine ⟨fun g r hg => ?_, fun g e hg he hkind => ?_, fun reason hdiscovers hreason => ?_,
    fun e he => hdoes.errors he, hdoes.once, fun g a r hg ha hr => ?_⟩
  · exact (hdoes.result_iff hg).trans hafter.find?_iff
  · obtain ⟨hnone, hmissed | ⟨a, ha, hlacks⟩⟩ := hdoes.unknown hg he hkind
    · obtain ⟨a, ha, hlacks, hfresh⟩ := h.missed hmissed
      have hmem : a ∈ (l.visit v).intakes := List.mem_append_left _ ha
      exact ⟨hafter.lacks hmem hnone, a, hmem, hlacks, .inr hfresh⟩
    · have hmem : a ∈ (l.visit v).intakes := List.mem_append_right _ (by simp [ha])
      exact ⟨hafter.lacks hmem hnone, a, hmem, hlacks, .inl ha⟩
  · obtain ⟨hresult, hregistry, hintake⟩ := hdoes.failed_discovery hdiscovers hreason
    refine ⟨hresult, ?_⟩
    rw [Ledger.visit, hregistry, hintake]
    simp
  · exact hdoes.hit hg (h.find?_iff.mpr ⟨a, ha, hr⟩)

/-- **The answers of a registry.** Whenever its calls are made one after the other, whatever
the cluster lists and whichever discoveries fail: every answer agrees with the listings, and
two listings on behalf of one kind lie apart, if the first one lacked it. -/
theorem run_answers (ttl : Nat) {visits : List Visit} (hturn : InTurn visits) :
    (∀ before v after, visits = before ++ v :: after →
      Answers ttl ((starting ttl).run before) v) ∧
    ((starting ttl).run visits).intakes.Pairwise (Intake.Spaced ttl) := by
  refine ⟨?_, ?_⟩
  · rintro before v after rfl
    obtain ⟨hbefore, hrest, hcross⟩ := List.pairwise_append.mp hturn.apart
    have hforward := hturn.forward
    obtain ⟨later, hlearned, hlater⟩ := (Learned.starting ttl).run
      ⟨fun u hu => hforward u (List.mem_append_left _ hu), hbefore⟩ fun u _ => Nat.zero_le _
    refine hlearned.answers (hlater v.asked (Nat.zero_le _) fun u hu => ?_) (hforward v (by simp))
    exact hcross u hu v List.mem_cons_self
  · obtain ⟨later, hlearned, -⟩ := (Learned.starting ttl).run hturn fun u _ => Nat.zero_le _
    exact hlearned.spaced

/-- A kind that comes and goes. -/
def widget : GroupVersionKind :=
  ⟨"example.com", "v1", "Widget"⟩

/-- A cluster that lists it twice. -/
def serving : Cluster :=
  (Cluster.empty.serve ⟨widget, "widgets", true⟩).serve ⟨widget, "gadgets", true⟩

/-- It is searched for in vain, and then found. -/
def arrival : List Visit :=
  [⟨some widget, .empty, 0, 10⟩, ⟨none, serving, 20, 30⟩]

/-- It is known, although the cluster does not serve it any more. -/
def known : Visit :=
  ⟨some widget, .empty, 40, 40⟩

/-- It is lost, is still remembered as missing when it is there again, and is searched for in vain
once more after a discovery that failed. -/
def departure : List Visit :=
  [⟨none, .empty, 50, 60⟩, ⟨some widget, serving, 70, 70⟩,
    ⟨some widget, serving.failDiscovery ["refused"], 5010, 5020⟩, ⟨some widget, .empty, 5030, 5040⟩]

theorem run_answers_widget :
    InTurn (arrival ++ known :: departure) ∧
      (known.outcome ((starting 5000).run arrival).registry).result =
        .ok (some ⟨widget, "gadgets", true⟩) ∧
      ((starting 5000).run (arrival ++ known :: departure)).intakes.map
          (fun a => (a.request, a.began, a.done)) =
        [(some widget, 0, 10), (none, 20, 30), (none, 50, 60), (some widget, 5030, 5040)] ∧
      ((starting 5000).run (arrival ++ known :: departure)).intakes.Pairwise
        (Intake.Spaced 5000) := by
  have hturn : InTurn (arrival ++ known :: departure) := ⟨by decide, by decide⟩
  obtain ⟨hanswers, hapart⟩ := run_answers 5000 hturn
  have hlast : LastEntry serving.resources widget ⟨widget, "gadgets", true⟩ :=
    ⟨[⟨widget, "widgets", true⟩], [], rfl, rfl, fun _ hx => absurd hx List.not_mem_nil⟩
  exact ⟨hturn, ((hanswers arrival known departure rfl).found widget _ rfl).mpr ⟨_, rfl, hlast⟩,
    rfl, hapart⟩

end Ledger

end KindCache
