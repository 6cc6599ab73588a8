import GeodesicDescent.Proofs.Run.Independence

/-!
# Adding a constant to the objective

In exact arithmetic a run compares values with each other only, and so does the criterion as long
as it has no target. The constant shows in the reported values and nowhere else.

* `Objective.shifted`: the objective plus a constant, with the same gradients;
* `Renaming.shift`: a constant added to values, which no comparison shows;
* **`Setup.shift_invariant`**: a run on the shifted objective ends as the other, with shifted
  values.
-/

namespace GeodesicDescent

variable {K σ : Type}

/-- The objective plus a constant. What does not depend on the value stays as it is. -/
def Objective.shifted [Scalar K] (f : Objective K σ) (k : K) : Objective K σ :=
  { f with
    eval point := (· + k) <$> f.eval point
    evalWithGradient point := Prod.map (· + k) id <$> f.evalWithGradient point }

variable [Field K] [LinearOrder K] [IsStrictOrderedRing K] [Elementary K] [Tolerances K]

/-- A constant added to values. -/
def Renaming.shift (k : K) : Renaming K where
  toFun v := v + k
  isFinite_eq _ := rfl
  le_iff _ _ := add_le_add_iff_right k
  le_add_iff v w c := by
    rw [add_right_comm w k c]
    exact add_le_add_iff_right k
  add_lt_iff v w c := by
    rw [add_right_comm w k c]
    exact add_lt_add_iff_right k
  abs_sub_eq v w := congrArg Scalar.abs (add_sub_add_right_eq_sub v w k)

theorem Objective.renamed_shifted (f : Objective K σ) (k : K) :
    f.Renamed (.shift k) (f.shifted k) where
  eval_eq _ := rfl
  evalWithGradient_eq _ := rfl
  offersHessian_eq := rfl

namespace Setup

/-- **A constant added to the objective is added to the values of a run, and changes no more.** -/
theorem shift_invariant (M : Manifold K) (config : SolverOptions K)
    (htarget : config.criterion.targetValue = none) (htime : config.criterion.maxTime = none)
    (objective : Objective K σ) (k : K) (clock clock' : Nat → Nat) (start : ConjugateGradient K)
    (state : σ) (x₀ : Vec K) :
    ((M.conjugateGradients config (objective.shifted k) clock').run start state x₀).1 =
      ((M.conjugateGradients config objective clock).run start state x₀).1.map fun r =>
        { r with value := r.value + k, history := r.history.map (· + k) } := by
  have hcriterion : config.criterion.Blind (.shift k) clock clock' := by
    constructor
    · intro goal h
      rw [htarget] at h
      exact nomatch h
    · intro limit h
      rw [htime] at h
      exact nomatch h
  have hu : (M.conjugateGradients config objective clock).Parallel (.shift k)
      ConjugateGradient.Alike (objective.shifted k) clock' :=
    ⟨objective.renamed_shifted k, ConjugateGradient.rule_blind _ M, hcriterion⟩
  exact (run_follows hu ⟨rfl, .inr rfl⟩ state x₀).1

/-- The descent into a bowl, for at most two iterations. -/
def briefDescent : Setup ℚ Unit (ConjugateGradient ℚ) :=
  { bowlDescent with config := { criterion := { maxIterations := some 2 } } }

theorem shift_invariant_bowl :
    ∃ r, (briefDescent.run bowlStart () [1, 1]).1 = .ok r ∧ r.iterations = 2 ∧
      ((briefDescent.facing (briefDescent.objective.shifted 5) id).run bowlStart () [1, 1]).1 =
        .ok { r with value := r.value + 5, history := r.history.map (· + 5) } := by
  obtain ⟨r, after, hrun, htwo⟩ := Stateful.exists_of_yields
    (x := briefDescent.run bowlStart () [1, 1]) (P := fun r => r.iterations = 2) (by decide +kernel)
  have hbowl : (briefDescent.run bowlStart () [1, 1]).1 = .ok r := congrArg Prod.fst hrun
  have hshift := shift_invariant briefDescent.manifold briefDescent.config rfl rfl
    briefDescent.objective 5 briefDescent.clock id bowlStart () [1, 1]
  exact ⟨r, hbowl, htwo, hshift.trans (congrArg (Except.map _) hbowl)⟩

end Setup

end GeodesicDescent
