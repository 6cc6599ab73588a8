import GeodesicDescent.Stopping
import Mathlib.Tactic.ByContra
import Mathlib.Tactic.SplitIfs

/-!
# What a reason to stop shows

* `ne_lineSearchFailed`: the rule never finds that a search failed;
* **`lt_of_reason?_eq_none`**, `exists_of_reason?_eq_maxIterations`: how the number of iterations
  compares with the one that is allowed;
* `evaluations_lt_of_reason?_eq_none`: the same for the number of evaluations;
* `not_lt_of_reason?_eq_none`: how the gradient norm compares with its tolerance.
-/

namespace GeodesicDescent.StoppingRule

variable {K : Type} [Scalar K] {c : StoppingRule K} {s : Status K}

theorem ne_lineSearchFailed {reason : Reason} (h : c.reason? s = some reason) :
    reason ≠ .lineSearchFailed := by
  rintro rfl
  unfold reason? at h
  split_ifs at h <;> simp at h

/-- **A run that goes on has made fewer iterations than it may.** -/
theorem lt_of_reason?_eq_none {limit : Nat} (h : c.reason? s = none)
    (hlimit : c.maxIterations = some limit) : s.iteration < limit := by
  unfold reason? at h
  split_ifs at h with _ _ _ _ hreached
  rw [hlimit, Option.any_some, decide_eq_true_iff] at hreached
  exact Nat.lt_of_not_le hreached

theorem evaluations_lt_of_reason?_eq_none {limit : Nat} (h : c.reason? s = none)
    (hlimit : c.maxFunctionEvaluations = some limit) : s.functionEvaluations < limit := by
  unfold reason? at h
  split_ifs at h with _ _ _ _ _ hreached
  rw [hlimit, Option.any_some, decide_eq_true_iff] at hreached
  exact Nat.lt_of_not_le hreached

theorem not_lt_of_reason?_eq_none {tolerance : K} (h : c.reason? s = none)
    (htolerance : c.gradientTolerance = some tolerance) : ¬ s.gradientNorm < tolerance := by
  unfold reason? at h
  split_ifs at h with _ hreached
  rw [htolerance, Option.any_some, decide_eq_true_iff] at hreached
  exact hreached

theorem exists_of_reason?_eq_maxIterations (h : c.reason? s = some .maxIterations) :
    ∃ limit, c.maxIterations = some limit ∧ limit ≤ s.iteration := by
  have hreached : c.maxIterations.any (· ≤ s.iteration) = true := by
    by_contra hnot
    unfold reason? at h
    rw [if_neg hnot] at h
    split_ifs at h <;> simp at h
  cases hlimit : c.maxIterations with
  | none =>
    rw [hlimit] at hreached
    exact nomatch hreached
  | some limit =>
    rw [hlimit, Option.any_some, decide_eq_true_iff] at hreached
    exact ⟨limit, rfl, hreached⟩

end GeodesicDescent.StoppingRule
