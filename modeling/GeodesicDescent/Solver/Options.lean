import GeodesicDescent.Double
import GeodesicDescent.LineSearch.Params
import GeodesicDescent.Stopping

/-!
# Options of a solver

Parameters of a solver and of its direction rule may be given as doubles under the names of the
parameters.

* `Settings`: the given names with their doubles, in the order of reading;
* `readCount`, `readPositive`: a double as a natural number, and as a positive finite one;
* `SearchKind`: which line search is used;
* `SolverOptions`: the search, its parameters and the stopping criterion;
* `SolverOptions.searchParams`: the parameters that the search is run with;
* `SolverOptions.applySettings`: reads named settings one after the other.
-/

namespace GeodesicDescent

variable {K : Type}

/-! ## Settings by name -/

/-- Doubles under the names of parameters. -/
abbrev Settings := List (String × Float)

/-- The largest count of 64 bits, which stands for no limit. -/
def maxCount : Nat := UInt64.size - 1

/-- A double as a count; a larger one counts as the largest. -/
def readCount (parameter : String) (value : Float) : Except (SolverError K) Nat :=
  match Double.natural? value with
  | some n => .ok (min n maxCount)
  | none => .error (.invalidConfiguration "expected a non-negative integer" parameter
      (Double.text value))

/-- A double that is positive and finite. -/
def readPositive (parameter : String) (value : Float) : Except (SolverError K) Float :=
  if value.isFinite = true ∧ 0.0 < value then .ok value
  else .error (.invalidConfiguration "expected a positive number" parameter (Double.text value))

/-! ## Options -/

/-- Which line search is used. -/
inductive SearchKind
  | armijo
  | strongWolfe
  deriving DecidableEq, Repr

namespace SearchKind

def code : SearchKind → Nat
  | armijo => 0
  | strongWolfe => 1

def name : SearchKind → String
  | armijo => "ARMIJO"
  | strongWolfe => "STRONGWOLFE"

/-- The kind with a code. -/
def ofCode (value : Float) : Except (SolverError K) SearchKind := do
  match ← readCount "LineSearch_LS" value with
  | 0 => return armijo
  | 1 => return strongWolfe
  | _ => throw (.invalidConfiguration "unknown line search" "LineSearch_LS" (Double.text value))

end SearchKind

/-- How a solver searches and when it stops. -/
structure SolverOptions (K : Type) [Scalar K] where
  lineSearch : SearchKind := .strongWolfe
  initialStep : K := 1
  /-- Parameters of the search that replace the usual ones. -/
  explicitParams : Option (SearchParams K) := none
  criterion : StoppingRule K := {}

namespace SolverOptions

variable [Scalar K]

/-- The parameters that the search is run with: the explicit ones, else the usual ones for the
kind of search with the configured first step. -/
def searchParams (c : SolverOptions K) : SearchParams K :=
  match c.explicitParams with
  | some params => params
  | none =>
    let usual : SearchParams K := match c.lineSearch with
      | .armijo => .backtracking
      | .strongWolfe => .strongWolfe
    { usual with initialStep := c.initialStep }

variable [OfDouble K]

/-- Reads one setting; unknown names are passed over. -/
def applySetting (c : SolverOptions K) (name : String) (value : Float) :
    Except (SolverError K) (SolverOptions K) :=
  match name with
  | "Max_Iteration" => do
    let n ← readCount name value
    return { c with criterion.maxIterations := some n }
  | "Tolerance" => do
    let tolerance ← readPositive name value
    return { c with criterion.gradientTolerance := some (ofDouble tolerance) }
  | "LineSearch_LS" => do
    let kind ← SearchKind.ofCode value
    return { c with lineSearch := kind }
  | "Initstepsize" => do
    let step ← readPositive name value
    return { c with initialStep := ofDouble step }
  | _ => return c

/-- Reads settings in their order. The first that is refused ends the reading; what was read
before it stays. -/
def applySettings : Settings → ExceptT (SolverError K) (StateM (SolverOptions K)) Unit
  | [] => return
  | (name, value) :: rest => do
    let c ← (← get).applySetting name value
    set c
    applySettings rest

end SolverOptions

end GeodesicDescent
