import GeodesicDescent.LineSearch.Params
import GeodesicDescent.Objective

/-!
# What a search works on

A search evaluates an objective along a curve of a manifold. It leaves marks on the geometry cache
and on the objective's state, counts its trials and reports events; all of that stays also where
it fails.

* `Problem`: the objective on its manifold, with the derivatives that are made use of;
* `Workspace`: cache, state of the objective, tally of trials and events;
* `Searching`: computations over a workspace;
* `Problem.evaluate`: value and gradient on the manifold;
* `Problem.downhillSlope`: the slope along a direction, refused unless it leads downhill.
-/

namespace GeodesicDescent

variable {K σ α : Type}

/-- What the steps of a search read and leave behind. -/
structure Workspace (K σ : Type) where
  cache : Cache K := {}
  objective : σ
  /-- The evaluations of the current search for both value and slope. -/
  trials : Nat := 0
  trace : Array (Event K) := #[]

/-- Computations over a workspace. -/
abbrev Searching (K σ α : Type) := ExceptT (Fault (SolverError K)) (StateM (Workspace K σ)) α

namespace Searching

/-- A computation without state, its refusal seen as one of the geometry. -/
def ofChecked (m : Checked α) : Searching K σ α := fun w =>
  (m.mapError (Fault.map .geometry), w)

/-- A computation over the cache. -/
def ofCached (m : Cached K α) : Searching K σ α := fun w =>
  let (result, cache) := m w.cache
  (result.mapError (Fault.map .geometry), { w with cache })

/-- A computation of the objective. -/
def ofEval (m : Eval σ α) : Searching K σ α := fun w =>
  let (result, objective) := m w.objective
  (result.mapError (Fault.map .geometry), { w with objective })

def report (e : Event K) : Searching K σ Unit := modify fun w => { w with trace := w.trace.push e }

def reportAll (es : List (Event K)) : Searching K σ Unit := es.forM report

end Searching

/-- An objective on a manifold, with the derivatives that are made use of. -/
structure Problem (K σ : Type) [Scalar K] where
  objective : Objective K σ
  manifold : Manifold K
  usage : Usage

/-- An accepted step: where it leads, value and gradient there, and what finding it took. -/
structure Accepted (K : Type) where
  step : K
  point : Vec K
  value : K
  gradient : Vec K
  functionEvaluations : Nat
  gradientEvaluations : Nat

namespace Problem

variable [Scalar K] (p : Problem K σ)

/-- The value and the gradient on the manifold at a point. -/
def evaluate (point : Vec K) : Searching K σ (K × Vec K) := do
  let (value, ambient) ← .ofEval (p.objective.evalWithGradient point)
  let gradient ← .ofCached (p.manifold.convertGradient point ambient p.usage)
  return (value, gradient)

/-- The point that a step along a direction leads to. -/
def trialPoint (point direction : Vec K) (step : K) : Searching K σ (Vec K) :=
  .ofChecked (p.manifold.retract point (Vec.scale direction step))

/-- The slope along a direction, which must lead downhill. -/
def downhillSlope (point gradient direction : Vec K) : Searching K σ K := do
  let slope ← .ofChecked (p.manifold.inner point gradient direction)
  if 0 ≤ slope then throw (.refused .invalidDirection)
  return slope

end Problem

end GeodesicDescent
