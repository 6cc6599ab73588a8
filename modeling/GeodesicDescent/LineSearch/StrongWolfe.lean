import GeodesicDescent.LineSearch.Workspace

/-!
# The strong Wolfe search

A step is taken where the value has decreased by the predicted share and at most a share of the
slope is left. Steps are doubled until one is taken, or until two of them bracket one that can be;
the bracket is then halved.

* `StrongWolfe.search`: the search;
* `StrongWolfe.double`, `StrongWolfe.doubling`: one doubled step, and all of them;
* `StrongWolfe.halve`, `StrongWolfe.halving`: one halving of a bracket, and all of them.
-/

namespace GeodesicDescent.StrongWolfe

variable {K σ : Type} [Scalar K]

/-- A step that was evaluated. -/
structure Trial (K : Type) where
  step : K
  point : Vec K
  value : K
  gradient : Vec K

/-- Two steps between which an acceptable one lies: `low` with the value it leads to, and the
other end. -/
structure Bracket (K : Type) where
  low : K
  lowValue : K
  high : K

/-- Where a search starts and which way it goes. -/
structure Ray (K : Type) where
  point : Vec K
  value : K
  slope : K
  direction : Vec K

variable (p : Problem K σ) (params : SearchParams K) (ray : Ray K)

/-- Value and gradient after a step; counts as a trial. -/
def tryStep (step : K) : Searching K σ (Trial K) := do
  let point ← p.trialPoint ray.point ray.direction step
  let (value, gradient) ← p.evaluate point
  modify fun w => { w with trials := w.trials + 1 }
  return { step, point, value, gradient }

/-- The slope along the curve at a trial. -/
def slopeAt (trial : Trial K) : Searching K σ K := do
  let displacement := Vec.scale ray.direction trial.step
  let moved ← .ofCached
    (p.manifold.differential ray.point displacement trial.point ray.direction true)
  .ofChecked (p.manifold.inner trial.point trial.gradient moved)

/-- The trial as the step taken, with the number of trials it took. -/
def take (trial : Trial K) : Searching K σ (Accepted K) := do
  let w ← get
  return {
    step := trial.step
    point := trial.point
    value := trial.value
    gradient := trial.gradient
    functionEvaluations := w.trials
    gradientEvaluations := w.trials }

/-- Fails with the number of trials made. -/
def fail {α : Type} (reason : String) (lastStep : K) : Searching K σ α := do
  let w ← get
  throw (.refused (.lineSearchFailed reason w.trials lastStep ray.value))

/-- Whether a value exceeds what the predicted share of the decrease leaves. -/
def insufficient (step value : K) : Prop := ray.value + params.c1 * step * ray.slope < value

instance insufficient.decidable (step value : K) :
    Decidable (insufficient params ray step value) :=
  inferInstanceAs (Decidable (_ < _))

/-- Whether at most the permitted share of the slope is left. -/
def flatEnough (slope : K) : Prop := Scalar.abs slope ≤ -params.c2 * ray.slope

instance flatEnough.decidable (slope : K) : Decidable (flatEnough params ray slope) :=
  inferInstanceAs (Decidable (_ ≤ _))

/-! ## Halving a bracket -/

/-- What trying the middle of a bracket leads to. -/
inductive Halved (K : Type)
  | accepted (trial : Trial K)
  | half (bracket : Bracket K)

/-- Tries the middle of a bracket. -/
def halve (b : Bracket K) : Searching K σ (Halved K) := do
  let step := (b.low + b.high) / 2.0
  let trial ← tryStep p ray step
  if insufficient params ray step trial.value ∨ b.lowValue ≤ trial.value then
    return .half { b with high := step }
  else
    let slope ← slopeAt p ray trial
    if flatEnough params ray slope then return .accepted trial
    else
      let high := if 0 ≤ slope * (b.high - b.low) then b.low else b.high
      return .half { low := step, lowValue := trial.value, high }

/-- Halves a bracket until a step is taken, at most `budget` times and as long as it is not
shorter than the least step. -/
def halving : (budget : Nat) → Bracket K → Searching K σ (Accepted K)
  | 0, b => fail ray "strong Wolfe zoom did not converge" b.low
  | budget + 1, b => do
    if Scalar.abs (b.high - b.low) < params.minStep then
      fail ray "strong Wolfe zoom did not converge" b.low
    else
      match ← halve p params ray b with
      | .accepted trial => take trial
      | .half b => halving budget b

/-! ## Doubling a step -/

/-- What trying a step leads to while none is bracketed. -/
inductive Doubled (K : Type)
  | accepted (trial : Trial K)
  | bracketed (bracket : Bracket K)
  | longer (trial : Trial K)

/-- The longest step that may be tried was taken. -/
def reachedMaximum (step : K) : Event K where
  level := .debug
  message := "strong Wolfe reached the maximum step"
  fields := [("step", .real step)]

/-- Tries a step after the step `previous`, whose value is known; `first` where none was tried
before. -/
def double (first : Bool) (previous previousValue step : K) : Searching K σ (Doubled K) := do
  let trial ← tryStep p ray step
  if insufficient params ray step trial.value ∨ (first = false ∧ previousValue ≤ trial.value) then
    return .bracketed { low := previous, lowValue := previousValue, high := step }
  else
    let slope ← slopeAt p ray trial
    if flatEnough params ray slope then return .accepted trial
    else if 0 ≤ slope then
      return .bracketed { low := step, lowValue := trial.value, high := previous }
    else if params.maxStep ≤ step then
      Searching.report (reachedMaximum step)
      return .accepted trial
    else return .longer trial

/-- Doubles a step until one is taken or bracketed, at most `budget` times. -/
def doubling : (budget : Nat) → (first : Bool) → (previous previousValue step : K) →
    Searching K σ (Accepted K)
  | 0, _, _, _, step => fail ray "strong Wolfe bracketing did not converge" step
  | budget + 1, first, previous, previousValue, step => do
    match ← double p params ray first previous previousValue step with
    | .accepted trial => take trial
    | .bracketed b => halving p params ray params.maxIterations b
    | .longer trial =>
      doubling budget false trial.step trial.value (Scalar.min (step * 2.0) params.maxStep)

omit ray in
/-- A step along a direction with sufficient decrease and a flat enough slope. -/
def search (point : Vec K) (value : K) (gradient direction : Vec K) :
    Searching K σ (Accepted K) := do
  let slope ← p.downhillSlope point gradient direction
  modify fun w => { w with trials := 0 }
  doubling p params { point, value, slope, direction } params.maxIterations true 0 value
    params.firstStep

end GeodesicDescent.StrongWolfe
