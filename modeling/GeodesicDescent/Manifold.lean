import GeodesicDescent.Cache
import GeodesicDescent.Matrix

/-!
# Manifolds

The set that an objective is minimised over, by the operations that a search needs. Points,
tangent vectors and their images are vectors of one ambient space. What a manifold does not offer,
it refuses by name.

* `Event`: what a run reports on its way;
* `listing`: the text that shows parameters to a reader;
* `Usage`: which derivatives of the objective a search makes use of;
* `Manifold`: the operations, those that need not exist with a default;
* `Manifold.norm`, `conjugateOperator`, `projectExtrinsic`, `projectIntrinsic`: what follows
  from them.
-/

namespace GeodesicDescent

/-! ## Events and listings -/

/-- How much attention an event asks for. -/
inductive Level
  | debug
  | info
  | warn
  | error
  deriving DecidableEq, Repr

/-- The value of a field of an event. -/
inductive FieldValue (K : Type)
  | count (n : Nat)
  | flag (b : Bool)
  | text (s : String)
  | real (x : K)
  deriving DecidableEq, Repr

/-- One report: its level, its message and its fields by name. It is built where it arises, by a
function named for what it reports. -/
structure Event (K : Type) where
  level : Level
  message : String
  fields : List (String × FieldValue K)
  deriving DecidableEq, Repr

/-- A parameter's line: the name padded on the right to fourteen characters, the value on the left
to fifteen. -/
def Listing.line (name value : String) : String :=
  name ++ String.ofList (List.replicate (14 - name.length) ' ') ++ ": " ++
    String.ofList (List.replicate (15 - value.length) ' ') ++ value

/-- A title and a line per parameter. -/
def listing (title : String) (parameters : List (String × String)) : String :=
  "\n".intercalate (title :: parameters.map fun (name, value) => Listing.line name value)

/-! ## Manifolds -/

/-- Which derivatives of the objective are made use of. -/
structure Usage where
  gradient : Bool := false
  hessian : Bool := false
  deriving DecidableEq, Repr

/-- A search that needs gradients and no more. -/
def Usage.firstOrder : Usage := { gradient := true }

/-- The operations of a manifold in its ambient space. -/
structure Manifold (K : Type) [Scalar K] where
  name : String
  dimension : Nat
  ambientDimension : Nat
  /-- Whether a vector is a point of the manifold, up to a tolerance. -/
  containsPoint : (point : Vec K) → (tolerance : K) → Bool
  /-- Whether a vector is tangent at a point, up to a tolerance. -/
  containsTangent : (point vector : Vec K) → (tolerance : K) → Bool
  /-- The point of the manifold that a vector is brought to. -/
  projectPoint : (vector : Vec K) → Checked (Vec K)
  inner : (point u v : Vec K) → Checked K
  /-- The tangent part of a vector at a point. -/
  projectTangent : (point vector : Vec K) → Checked (Vec K)
  /-- The point reached from a point along a tangent vector. -/
  retract : (point tangent : Vec K) → Checked (Vec K)
  /-- The tangent vector `ξ` carried from `x` to the point `y` that `η` leads to. -/
  transport : (x η y ξ : Vec K) → Cached K (Vec K)
  /-- The tangent vector `ξ` carried back from `y` to `x`. -/
  inverseTransport : (x η y ξ : Vec K) → Cached K (Vec K) := fun _ _ _ _ =>
    .refuse (.notImplemented s!"inverse vector transport on {name}")
  /-- The derivative of the retraction at `η` applied to `ξ`; where both have one direction, the
  transport. -/
  differential : (x η y ξ : Vec K) → (sameDirection : Bool) → Cached K (Vec K) :=
    fun x η y ξ sameDirection =>
      if sameDirection then transport x η y ξ
      else .refuse (.notImplemented s!"differentiated retraction on {name}")
  /-- The operator composed with the inverse transport on the columns of a block. -/
  operatorInverseTransport : (x η y : Vec K) → (h : Matrix K) → (start stop : Nat) →
      Cached K (Matrix K) := fun _ _ _ _ _ _ =>
    .refuse (.notImplemented s!"operator inverse transport on {name}")
  /-- The transport composed with the operator on the rows of a block. -/
  operatorTransport : (x η y : Vec K) → (h : Matrix K) → (start stop : Nat) →
      Cached K (Matrix K) := fun _ _ _ _ _ _ =>
    .refuse (.notImplemented s!"operator transport on {name}")
  /-- The vector whose dot products are the inner products with `η`. -/
  flat : (x η : Vec K) → Checked (Vec K) := fun _ _ =>
    refuse (.notImplemented s!"flat of a tangent vector on {name}")
  /-- The gradient on the manifold from the ambient gradient, which is kept where second
  derivatives are made use of. -/
  convertGradient : (x gradient : Vec K) → Usage → Cached K (Vec K) := fun x gradient usage => do
    if usage.hessian then modify (·.keepGradient x gradient)
    projectTangent x gradient
  /-- The Hessian on the manifold applied to `η`, from the ambient Hessian applied to it. -/
  convertHessian : (x η product : Vec K) → Cached K (Vec K) := fun _ _ _ =>
    .refuse (.notImplemented s!"Hessian-vector conversion on {name}")
  /-- The adjoint of the differentiated retraction. -/
  cotangent : (x η y ξ : Vec K) → Checked (Vec K) := fun _ _ _ _ =>
    refuse (.notImplemented s!"cotangent vector on {name}")
  toIntrinsic : (x η : Vec K) → Checked (Vec K) := fun _ _ =>
    refuse (.notImplemented s!"intrinsic representation on {name}")
  toExtrinsic : (x coordinates : Vec K) → Checked (Vec K) := fun _ _ =>
    refuse (.notImplemented s!"extrinsic representation on {name}")
  /-- A random point, from independent normal draws, as many as the ambient dimension. -/
  randomPoint : (draws : Vec K) → Vec K
  /-- A random tangent vector at a point, from independent normal draws. -/
  randomTangent : (point draws : Vec K) → Checked (Vec K)
  /-- Named properties, in text. -/
  summary : List (String × String) :=
    [("name", name), ("dimension", toString dimension),
      ("ambient_dimension", toString ambientDimension)]
  /-- What a run reports of the manifold before it starts. -/
  parameters : Event K := {
    level := .info
    message := "manifold parameters"
    fields := [("manifold", .text name), ("dimension", .count dimension),
      ("ambient_dimension", .count ambientDimension)] }

namespace Manifold

variable {K : Type} [Scalar K] (M : Manifold K)

/-- The length of a tangent vector. -/
def norm (point vector : Vec K) : Checked K := Scalar.sqrt <$> M.inner point vector vector

/-- The operator carried from the tangent space at `x` to the one at `y`. -/
def conjugateOperator (x η y : Vec K) (h : Matrix K) : Cached K (Matrix K) := do
  let right ← M.operatorInverseTransport x η y h 0 M.ambientDimension
  M.operatorTransport x η y right 0 M.ambientDimension

/-- The tangent part of a vector given in the ambient space. -/
def projectExtrinsic (x vector : Vec K) : Checked (Vec K) := M.projectTangent x vector

/-- The tangent part of a vector given in intrinsic coordinates, which is the vector itself. -/
def projectIntrinsic (_ : Manifold K) (_x vector : Vec K) : Checked (Vec K) := .ok vector

end Manifold

end GeodesicDescent
