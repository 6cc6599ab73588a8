import GeodesicDescent.LineSearch.Workspace

/-!
# Backtracking

The steps tried are the first step and what remains after shortening by a fixed factor; the first
of them with a decrease of at least the predicted share is taken.

* `Backtracking.search`: the search;
* `Backtracking.trySteps`: a step and the shorter ones after it.
-/

namespace GeodesicDescent.Backtracking

variable {K σ : Type} [Scalar K]

/-- No step passed the test. -/
def failed (tried : Nat) (step value : K) : Fault (SolverError K) :=
  .refused (.lineSearchFailed "Armijo condition not satisfied" tried step value)

/-- Tries a step and shorter ones, at most `budget` of them, after `tried` others. -/
def trySteps (p : Problem K σ) (params : SearchParams K) (point : Vec K) (value slope : K)
    (direction : Vec K) : (budget tried : Nat) → (step : K) → Searching K σ (Accepted K)
  | 0, tried, step => throw (failed tried step value)
  | budget + 1, tried, step => do
    let trial ← p.trialPoint point direction step
    let trialValue ← .ofEval (p.objective.eval trial)
    if trialValue ≤ value + params.c1 * step * slope then
      let (newValue, newGradient) ← p.evaluate trial
      return {
        step
        point := trial
        value := newValue
        gradient := newGradient
        functionEvaluations := tried + 2
        gradientEvaluations := 1 }
    else
      let shorter := step * params.rho
      if shorter < params.minStep then throw (failed (tried + 1) shorter value)
      else trySteps p params point value slope direction budget (tried + 1) shorter

/-- The first acceptable step along a direction. -/
def search (p : Problem K σ) (params : SearchParams K) (point : Vec K) (value : K)
    (gradient direction : Vec K) : Searching K σ (Accepted K) := do
  let slope ← p.downhillSlope point gradient direction
  trySteps p params point value slope direction params.maxIterations 0 params.firstStep

end GeodesicDescent.Backtracking
