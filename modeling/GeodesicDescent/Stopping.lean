import GeodesicDescent.Vec

/-!
# When to stop

* `Reason`: why a run ended;
* `StoppingRule`, `Status`: the limits of a run and where it stands;
* `StoppingRule.reason?`: the first reason to stop, if there is one;
* `Result`: what a run found.
-/

namespace GeodesicDescent

variable {K : Type}

/-- Why a run ended. -/
inductive Reason
  | converged
  | targetReached
  | functionTolerance
  | maxIterations
  | maxTime
  | maxFunctionEvaluations
  | lineSearchFailed
  | numericalError
  deriving DecidableEq, Repr

namespace Reason

def name : Reason → String
  | converged => "Converged"
  | targetReached => "TargetReached"
  | functionTolerance => "FunctionTolerance"
  | maxIterations => "MaxIterations"
  | maxTime => "MaxTime"
  | maxFunctionEvaluations => "MaxFunctionEvaluations"
  | lineSearchFailed => "LineSearchFailed"
  | numericalError => "NumericalError"

/-- Whether the run reached what it was after. -/
def isSuccess : Reason → Bool
  | converged | targetReached => true
  | _ => false

end Reason

/-- The limits of a run; an absent one never stops it. -/
structure StoppingRule (K : Type) [Scalar K] where
  maxIterations : Option Nat := some 1000
  /-- The longest time, in nanoseconds. -/
  maxTime : Option Nat := none
  maxFunctionEvaluations : Option Nat := none
  gradientTolerance : Option K := some 1e-6
  functionTolerance : Option K := none
  targetValue : Option K := none

/-- Where a run stands. -/
structure Status (K : Type) where
  iteration : Nat := 0
  value : K
  previousValue : Option K := none
  gradientNorm : K
  functionEvaluations : Nat := 0
  /-- The time since the start, in nanoseconds. -/
  elapsed : Nat := 0

/-- The first reason to stop: numbers before tolerances, tolerances before limits. -/
def StoppingRule.reason? [Scalar K] (c : StoppingRule K) (s : Status K) : Option Reason :=
  if Scalar.isFinite s.value = false ∨ Scalar.isFinite s.gradientNorm = false then
    some .numericalError
  else if c.gradientTolerance.any (s.gradientNorm < ·) then some .converged
  else if c.targetValue.any (s.value ≤ ·) then some .targetReached
  else if c.functionTolerance.any fun tolerance =>
      s.previousValue.any fun previous => Scalar.abs (previous - s.value) < tolerance then
    some .functionTolerance
  else if c.maxIterations.any (· ≤ s.iteration) then some .maxIterations
  else if c.maxFunctionEvaluations.any (· ≤ s.functionEvaluations) then
    some .maxFunctionEvaluations
  else if c.maxTime.any (· ≤ s.elapsed) then some .maxTime
  else none

/-- What a run found, and what it took. -/
structure Result (K : Type) where
  point : Vec K
  value : K
  gradientNorm : Option K := none
  iterations : Nat
  functionEvaluations : Nat := 0
  gradientEvaluations : Nat := 0
  reason : Reason
  /-- The values at the start and after each iteration. -/
  history : Array K := #[]

/-- Whether the run reached what it was after. -/
def Result.converged (r : Result K) : Bool := r.reason.isSuccess

end GeodesicDescent
