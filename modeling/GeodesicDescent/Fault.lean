/-!
# Errors and faults

What can go wrong, as causes with one wording each.

* `GeometryError`: what an operation of a manifold, an objective or a matrix refuses;
* `SolverError`: what a search, a direction rule or a configuration refuses;
* `Fault`: a refusal, or a computation that has no result at all;
* `Checked`: a result or a fault of the geometry.
-/

namespace GeodesicDescent

/-- Why a geometric operation refuses its arguments. -/
inductive GeometryError
  | invalidPoint (reason : String)
  | invalidTangent (reason : String)
  | dimensionMismatch (expected actual : String)
  | invalidParameter (reason : String)
  | numerical (reason : String)
  | notImplemented (feature : String)
  | unsupportedConfiguration (reason : String)
  | preconditionViolated (reason : String)
  deriving DecidableEq, Repr

namespace GeometryError

/-- The text that reports the error. -/
def message : GeometryError → String
  | invalidPoint reason => "Point is not on the manifold: " ++ reason
  | invalidTangent reason => "Vector is not in the tangent space: " ++ reason
  | dimensionMismatch expected actual =>
    "Dimension mismatch: expected " ++ expected ++ ", got " ++ actual
  | invalidParameter reason => "Invalid parameter: " ++ reason
  | numerical reason => "Numerical instability detected: " ++ reason
  | notImplemented feature => "Feature not implemented: " ++ feature
  | unsupportedConfiguration reason => "Unsupported manifold configuration: " ++ reason
  | preconditionViolated reason => "Precondition violated: " ++ reason

/-- Two lengths that should agree and do not. -/
def lengths (expected actual : Nat) : GeometryError :=
  dimensionMismatch (toString expected) (toString actual)

/-- Whether the error reports a capability that a manifold or an objective does not offer. -/
def isNotImplemented : GeometryError → Bool
  | notImplemented _ => true
  | _ => false

end GeometryError

/-- Why an optimisation stops without a result. -/
inductive SolverError (K : Type)
  /-- No step passed the search's test. -/
  | lineSearchFailed (reason : String) (evaluations : Nat) (lastStep initialValue : K)
  | maxIterationsReached (limit : Nat) (value gradientNorm tolerance : K)
  | invalidConfiguration (reason parameter value : String)
  | geometry (error : GeometryError)
  /-- The direction does not lead downhill. -/
  | invalidDirection
  deriving DecidableEq, Repr

/-- The text that reports the error. -/
def SolverError.message {K : Type} : SolverError K → String
  | lineSearchFailed reason _ _ _ => "Line search failed: " ++ reason
  | maxIterationsReached limit _ _ _ =>
    "Maximum iterations (" ++ toString limit ++ ") reached without convergence"
  | invalidConfiguration reason _ _ => "Invalid optimizer configuration: " ++ reason
  | geometry error => "Manifold operation failed: " ++ error.message
  | invalidDirection => "Invalid search direction: not a descent direction"

/-- A computation that ends without a value. -/
inductive Fault (ε : Type)
  /-- The computation was refused, for a reason that callers may handle. -/
  | refused (error : ε)
  /-- An entrywise operation met different lengths, or an entry outside a vector was read. -/
  | shapeClash
  /-- A counter left the range of 64 bits. -/
  | countOverflow
  deriving DecidableEq, Repr

/-- The same fault, its reason seen by an outer layer. -/
def Fault.map {ε ε' : Type} (f : ε → ε') : Fault ε → Fault ε'
  | refused error => refused (f error)
  | shapeClash => shapeClash
  | countOverflow => countOverflow

/-- A result, or a fault of the geometry. -/
abbrev Checked (α : Type) := Except (Fault GeometryError) α

/-- The result of an operation that may refuse but does not fault otherwise. -/
def Checked.ofExcept {α : Type} : Except GeometryError α → Checked α := Except.mapError .refused

/-- The refusal of a geometric operation. -/
def refuse {α : Type} (error : GeometryError) : Checked α := .error (.refused error)

end GeodesicDescent
