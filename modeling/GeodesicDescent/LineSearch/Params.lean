import GeodesicDescent.Fault
import GeodesicDescent.Scalar

/-!
# Parameters of a line search

* `SearchParams`: the steps that a search may try and the tests that a step must pass;
* `SearchParams.strongWolfe`, `SearchParams.backtracking`: the usual choices;
* `SearchParams.validate`: refuses a choice that some comparison rules out;
* `SearchParams.checked`: the parameters that a search is made with.
-/

namespace GeodesicDescent

variable {K : Type} [Scalar K]

/-- The steps that a search may try and the tests that a step must pass. -/
structure SearchParams (K : Type) [Scalar K] where
  initialStep : K := 1
  maxStep : K := 10.0
  minStep : K := 1e-10
  /-- How many steps are tried. -/
  maxIterations : Nat := 50
  /-- The share of the predicted decrease that a step must reach. -/
  c1 : K := 1e-4
  /-- The share of the initial slope that may be left. -/
  c2 : K := 0.9
  /-- The factor by which a refused step is shortened. -/
  rho : K := 0.5

namespace SearchParams

/-- The usual choice for a search that tests both decrease and slope. -/
def strongWolfe : SearchParams K := { c2 := 0.1 }

/-- The usual choice for a search that tests decrease alone. -/
def backtracking : SearchParams K := { c1 := 0.5, maxIterations := 20 }

/-- Refuses the first bound that a comparison shows to be violated. A comparison with a value that
is not a number shows nothing. -/
def validate (p : SearchParams K) : Except GeometryError Unit :=
  let invalid reason := throw (.invalidParameter reason)
  if p.initialStep ≤ 0 then invalid "Initial step size must be positive"
  else if p.minStep ≤ 0 then invalid "Minimum step size must be positive"
  else if p.maxStep ≤ p.minStep then
    invalid "Maximum step size must be greater than minimum step size"
  else if p.c1 ≤ 0 ∨ 1 ≤ p.c1 then invalid "Armijo constant c1 must be in (0, 1)"
  else if p.c2 ≤ p.c1 ∨ 1 ≤ p.c2 then invalid "Wolfe constant c2 must satisfy c1 < c2 < 1"
  else if p.rho ≤ 0 ∨ 1 ≤ p.rho then invalid "Backtracking factor rho must be in (0, 1)"
  else if p.maxIterations = 0 then invalid "Maximum iterations must be at least 1"
  else .ok ()

/-- The parameters that a search is made with, unless they are refused. -/
def checked (p : SearchParams K) : Except GeometryError (SearchParams K) := do
  p.validate
  return p

/-- The first step that a search tries. -/
def firstStep (p : SearchParams K) : K := Scalar.min p.initialStep p.maxStep

end SearchParams

end GeodesicDescent
