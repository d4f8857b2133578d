import Mathlib.Order.Bounds.Defs
import KindCache.Retry

/-!
# What a retried operation takes

The number of calls, of announced tries and of pauses are counted apart, each where it happens.
They fit together: between two calls there is one announcement and one pause, and none after the
last call.

* `Final` — an outcome after which there is no other try, however many are left;
* `runFrom_takes` — the loop stops at the first final outcome, or when its budget is used up;
* `run_budget` — hence the number of calls, and with it the result and the time.
-/

namespace KindCache.Retry

variable {α ε : Type}

/-- An outcome after which there is no other try: a success, or a failure that will not pass. -/
def Final (mayPass : ε → Bool) : Except ε α → Prop
  | .ok _ => True
  | .error e => mayPass e = false

/-- There is another try unless the outcome is final or the tries are used up. A number of
zero tries counts as one, as the first try is made before anything is asked. -/
theorem again_iff {attempts tries : Nat} {mayPass : ε → Bool} {outcome : Except ε α} :
    again attempts tries mayPass outcome = true ↔
      ¬ Final mayPass outcome ∧ tries < max attempts 1 := by
  cases outcome with
  | ok a => exact iff_of_false Bool.false_ne_true fun h => h.1 trivial
  | error e => simp [again, Final]

/-- A course whose result is that of the try number `n` after the try number `i`. Each call but
the last one is followed by one announcement and one pause. -/
structure Takes (op : Nat → Except ε α) (i n : Nat) (r : Retried ε α) : Prop where
  result : r.result = op (i + n)
  calls : r.calls = n + 1
  retries : r.retries = n
  pauses : r.pauses = n

/-- **The loop stops at the first final outcome, or when its budget is used up.** No outcome
before the last one is final, and the last one is, unless the budget is used up. The
induction is on the budget, and what is called, announced and waited for in one round is
counted where it happens. -/
theorem runFrom_takes (op : Nat → Except ε α) (mayPass : ε → Bool) {attempts budget i : Nat}
    (h : i + budget + 1 = max attempts 1) :
    ∃ n ≤ budget, Takes op i n (runFrom attempts op mayPass budget i) ∧
      (∀ j < n, ¬ Final mayPass (op (i + j))) ∧
      (n < budget → Final mayPass (op (i + n))) := by
  induction budget generalizing i with
  | zero =>
    refine ⟨0, Nat.le_refl 0, ⟨rfl, rfl, rfl, rfl⟩, fun j hj => ?_, fun hlt => ?_⟩
    · exact absurd hj (Nat.not_lt_zero j)
    · exact absurd hlt (Nat.lt_irrefl 0)
  | succ budget ih =>
    have hless : i + 1 < max attempts 1 := by omega
    by_cases hagain : again attempts (i + 1) mayPass (op i) = true
    · -- one try more than the rest of the course
      obtain ⟨n, hn, htakes, hopen, hlast⟩ := ih (i := i + 1) (by omega)
      have hshift : ∀ j, i + 1 + j = i + (j + 1) := fun j => by omega
      simp only [hshift] at hopen hlast
      refine ⟨n + 1, Nat.succ_le_succ hn, ?_, fun j hj => ?_, fun hlt => ?_⟩
      · rw [runFrom, if_pos hagain]
        exact ⟨htakes.result.trans (congrArg op (hshift n)), congrArg (· + 1) htakes.calls,
          congrArg (· + 1) htakes.retries, congrArg (· + 1) htakes.pauses⟩
      · cases j with
        | zero => exact (again_iff.mp hagain).1
        | succ j => exact hopen j (Nat.lt_of_succ_lt_succ hj)
      · exact hlast (Nat.lt_of_succ_lt_succ hlt)
    · have hfinal : Final mayPass (op i) :=
        Classical.not_not.mp fun hopen => hagain (again_iff.mpr ⟨hopen, hless⟩)
      refine ⟨0, Nat.zero_le _, ?_, fun j hj => absurd hj (Nat.not_lt_zero j), fun _ => hfinal⟩
      rw [runFrom, if_neg hagain]
      exact ⟨rfl, rfl, rfl, rfl⟩

/-- An operation is called up to its first final outcome, but not more often than it may be,
and at least once. The result is that of the last call. As many tries are announced as
follow the first one, and the time is that of one pause in front of each of them. -/
theorem run_budget (attempts : Nat) (op : Nat → Except ε α) (mayPass : ε → Bool) :
    (∀ k, IsLeast {i | Final mayPass (op i)} k →
      (run attempts op mayPass).calls = min (k + 1) (max attempts 1)) ∧
    ((∀ i, ¬ Final mayPass (op i)) → (run attempts op mayPass).calls = max attempts 1) ∧
    1 ≤ (run attempts op mayPass).calls ∧
    (run attempts op mayPass).result = op ((run attempts op mayPass).calls - 1) ∧
    (run attempts op mayPass).retries = (run attempts op mayPass).calls - 1 ∧
    ∀ delay, (run attempts op mayPass).waited delay =
      ((run attempts op mayPass).calls - 1) * delay := by
  have hbudget : 0 + (attempts - 1) + 1 = max attempts 1 := by omega
  obtain ⟨n, hn, htakes, hopen, hlast⟩ := runFrom_takes op mayPass hbudget
  change Takes op 0 n (run attempts op mayPass) at htakes
  simp only [Nat.zero_add] at hopen hlast
  have hcalls := htakes.calls
  have hindex : (run attempts op mayPass).calls - 1 = n := by rw [hcalls, Nat.add_sub_cancel]
  refine ⟨fun k hk => ?_, fun hnone => ?_, ?_, ?_, ?_, fun delay => ?_⟩
  · -- nothing before the last call is final, so the first final outcome is not before it
    have hge : n ≤ k := Nat.le_of_not_lt fun hlt => hopen k hlt hk.1
    have hle : n < attempts - 1 → k ≤ n := fun hlt => hk.2 (hlast hlt)
    omega
  · have hused : ¬ n < attempts - 1 := fun hlt => hnone n (hlast hlt)
    omega
  · omega
  · rw [hindex, htakes.result, Nat.zero_add]
  · rw [hindex, htakes.retries]
  · rw [hindex, Retried.waited, htakes.pauses]

/-- Failures with texts, of which some may pass. -/
def hiccups : Nat → Except (Bool × String) String
  | 0 | 1 => .error (true, "busy")
  | 2 => .error (false, "gone")
  | _ => .ok "late"

theorem run_budget_hiccups :
    IsLeast {i | Final Prod.fst (hiccups i)} 2 ∧
      (run 2 hiccups Prod.fst).calls = 2 ∧ (run 2 hiccups Prod.fst).waited 1000 = 1000 ∧
      (run 9 hiccups Prod.fst).calls = 3 ∧ (run 9 hiccups Prod.fst).result = hiccups 2 ∧
      (run 0 (fun _ => hiccups 0) Prod.fst).calls = 1 ∧
      (run 0 (fun _ => hiccups 0) Prod.fst).retries = 0 := by
  have hfirst : IsLeast {i | Final Prod.fst (hiccups i)} 2 := by
    refine ⟨rfl, fun i hi => ?_⟩
    match i, hi with
    | 0, hi | 1, hi => exact Bool.noConfusion (hi : true = false)
    | i + 2, _ => exact Nat.le_add_left 2 i
  obtain ⟨hcut, -, -, -, -, hwaited⟩ := run_budget 2 hiccups Prod.fst
  obtain ⟨hall, -, -, hresult, -, -⟩ := run_budget 9 hiccups Prod.fst
  obtain ⟨-, hnever, -, -, hretries, -⟩ := run_budget 0 (fun _ => hiccups 0) Prod.fst
  have htwo := hcut 2 hfirst
  have hthree := hall 2 hfirst
  have hone := hnever fun _ h => Bool.noConfusion (h : true = false)
  refine ⟨hfirst, htwo, ?_, hthree, ?_, hone, ?_⟩
  · rw [hwaited, htwo]
    rfl
  · rw [hresult, hthree]
    rfl
  · rw [hretries, hone]
    rfl

end KindCache.Retry
