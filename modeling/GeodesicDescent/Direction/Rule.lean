import GeodesicDescent.LineSearch.Workspace
import GeodesicDescent.Solver.Options

/-!
# Direction rules

A direction rule chooses where the next search goes and learns from the step that it led to. It
sees where the run stands, and writes the direction, the geometry cache and its own state.

* `Iterate`: the current point of a run and the next one, with values and gradients;
* `Heading`: what a rule writes;
* `DirectionRule`: the rule;
* `steepestDescent`: the rule that always goes against the gradient.
-/

namespace GeodesicDescent

variable {K ρ α : Type}

/-- Where a run stands: the current point and the one after the step taken. -/
structure Iterate (K : Type) where
  point : Vec K
  nextPoint : Vec K
  gradient : Vec K
  nextGradient : Vec K
  /-- The step taken times the direction it was taken along. -/
  displacement : Vec K
  value : K
  nextValue : K
  /-- The number of steps taken. -/
  iteration : Nat := 0
  step : K
  lineSearch : SearchKind

/-- The next point becomes the current one, and the current point and gradient the next. -/
def Iterate.shift (it : Iterate K) : Iterate K :=
  { it with
    point := it.nextPoint
    nextPoint := it.point
    gradient := it.nextGradient
    nextGradient := it.gradient
    value := it.nextValue }

/-- The start of a run, with no step taken. -/
def Iterate.start [Scalar K] (point : Vec K) (value : K) (gradient : Vec K)
    (lineSearch : SearchKind) : Iterate K where
  point
  nextPoint := point
  gradient
  nextGradient := gradient
  displacement := Vec.zeros point.length
  value
  nextValue := value
  step := 0
  lineSearch

/-- What a direction rule writes: the direction, the cache and its own state. -/
structure Heading (K ρ : Type) where
  direction : Vec K
  cache : Cache K := {}
  rule : ρ

/-- Computations of a direction rule, whose marks stay also where they fail. -/
abbrev Steering (K ρ α : Type) := ExceptT (Fault (SolverError K)) (StateM (Heading K ρ)) α

namespace Steering

/-- A computation without state, its refusal seen as one of the geometry. -/
def ofChecked (m : Checked α) : Steering K ρ α := fun h =>
  (m.mapError (Fault.map .geometry), h)

/-- A computation over the cache. -/
def ofCached (m : Cached K α) : Steering K ρ α := fun h =>
  let (result, cache) := m h.cache
  (result.mapError (Fault.map .geometry), { h with cache })

end Steering

/-- A rule for the direction of the next search, with a state of type `ρ`. -/
structure DirectionRule (K ρ : Type) [Scalar K] where
  name : String
  usage : Usage
  /-- Refuses a state that the rule cannot start from; else what a run reports of it. -/
  announce : ρ → Except (SolverError K) (List (Event K)) := fun _ => .ok []
  /-- Turns the direction kept from the last step into the direction of the next search. -/
  steer : Manifold K → Iterate K → Steering K ρ Unit
  /-- Prepares the direction after a step. -/
  learn : Manifold K → Iterate K → Steering K ρ Unit
  /-- What a run reports of the rule after an iteration. -/
  report : ρ → Iterate K → List (Event K) := fun _ _ => []

/-- The rule that goes against the gradient. It may ask for second derivatives, which it does not
use itself. -/
def steepestDescent [Scalar K] (hessian : Bool) : DirectionRule K Unit where
  name := "SteepestDescent"
  usage := { Usage.firstOrder with hessian }
  steer _ it := modify fun h => { h with direction := Vec.neg it.gradient }
  learn _ _ := return

end GeodesicDescent
