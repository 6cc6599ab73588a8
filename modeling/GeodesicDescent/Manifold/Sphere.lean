import GeodesicDescent.Manifold.SphereConfig

/-!
# The unit sphere of sampled functions

A function on the unit interval is given by its values at equally spaced samples, and the inner
product of two functions is the trapezoid rule for the integral of their product: the end samples
count half. The functions of unit norm form a sphere. A tangent vector leads along a great circle,
and the reflection that swaps `x` and `-y` carries tangent vectors at `x` to tangent vectors at
`y`.

* `Sphere.inner`, `Sphere.flat`: the inner product, and the vector that gives it as a dot product;
* `Sphere.normalize`, `Sphere.retract`: the way back to the sphere, and along a great circle;
* `Sphere.reflection`, `Sphere.transport`, `Sphere.inverseTransport`: the reflection and what it
  does to tangent vectors; `Sphere.differential` also keeps scale factors;
* `Sphere.operatorInverseTransport`, `Sphere.operatorTransport`: the same for operators, as
  rank-one updates;
* `Sphere.convertHessian`: the Hessian on the sphere;
* `Sphere.manifold`: the sphere as a manifold.
-/

namespace GeodesicDescent.Sphere

variable {K : Type} [Scalar K] (s : Sphere)

/-- Refuses a vector that has not one entry per sample. -/
def requireLength (v : Vec K) : Checked Unit :=
  if v.length = s.samples then .ok () else refuse (.lengths s.samples v.length)

/-- The distance between neighbouring samples. -/
def spacing : K := 1 / ((s.samples - 1 : Nat) : K)

/-- The trapezoid rule for the integral of a product: the full sum less half of both ends. -/
def inner (u v : Vec K) : Checked K := do
  s.requireLength u
  let total ← Checked.ofExcept (Vec.dot? u v)
  let last := s.samples - 1
  let ends := ((← Vec.entry u 0) * (← Vec.entry v 0) +
    (← Vec.entry u last) * (← Vec.entry v last)) * 0.5
  return (total - ends) * s.spacing

/-- The vector whose dot products are the inner products with `v`. -/
def flat (v : Vec K) : Checked (Vec K) := do
  let w ← Vec.modifyEntry (Vec.scale v s.spacing) 0 (· * 0.5)
  Vec.modifyEntry w (s.samples - 1) (· * 0.5)

/-! ## Points -/

/-- The point that stands in where a vector is too short to have a direction: all weight on the
first sample. -/
def spike : Vec K :=
  (Vec.zeros s.samples).set 0 (Scalar.sqrt ((2 * (s.samples - 1) : Nat) : K))

/-- The point in the direction of a vector. -/
def normalize (v : Vec K) : Checked (Vec K) := do
  let norm := Scalar.sqrt (← s.inner v v)
  return if Scalar.epsilon < norm then Vec.divide v norm else s.spike

def containsPoint (point : Vec K) (tolerance : K) : Bool :=
  match s.inner point point with
  | .ok squared => Scalar.abs (squared - 1) < tolerance
  | .error _ => false

def containsTangent (point vector : Vec K) (tolerance : K) : Bool :=
  match s.inner point vector with
  | .ok along => Scalar.abs along < tolerance
  | .error _ => false

/-- The part of a vector that is orthogonal to a point. -/
def projectTangent (point vector : Vec K) : Checked (Vec K) := do
  s.requireLength point
  s.requireLength vector
  let along ← s.inner point vector
  Vec.sub vector (Vec.scale point along)

/-- The point at the end of a great arc, brought back to unit norm, so that rounding does not
accumulate over many steps. -/
def retract (point tangent : Vec K) : Checked (Vec K) := do
  s.requireLength point
  s.requireLength tangent
  let r := Scalar.sqrt (← s.inner tangent tangent)
  let c := Scalar.cos r
  let moved ←
    if r < Scalar.epsilon then pure (Vec.scale point c)
    else Vec.add (Vec.scale point c) (Vec.scale tangent (Scalar.sin r / r))
  s.normalize moved

/-! ## Transport -/

/-- The direction of the reflection that swaps `x` and `-y`, divided by its squared norm. -/
def reflection (x y : Vec K) : Checked (Vec K) := do
  let sum ← Vec.add x y
  let squared ← s.inner sum sum
  if squared ≤ Scalar.epsilon then
    refuse (.numerical "transport between antipodal points is undefined")
  else return Vec.divide sum squared

/-- The reflection of two points, through the cache. -/
def cachedReflection (x y : Vec K) : Cached K (Vec K) := Cached.reflection x y (s.reflection x y)

def transport (x y ξ : Vec K) : Cached K (Vec K) := do
  s.requireLength x
  s.requireLength y
  s.requireLength ξ
  let d ← s.cachedReflection x y
  let coefficient := (← s.inner ξ y) * 2.0
  Vec.sub ξ (Vec.scale d coefficient)

def inverseTransport (x y ξ : Vec K) : Cached K (Vec K) := do
  s.requireLength x
  s.requireLength y
  s.requireLength ξ
  let d ← s.cachedReflection x y
  let coefficient := (← s.inner ξ x) * 2.0
  Vec.sub ξ (Vec.scale d coefficient)

/-- The scale factors of a differentiated retraction along `η` that carries `ξ` to `image`. -/
def scaling (η ξ image : Vec K) : Checked (KnownScaling K) := do
  let ηη ← s.inner η η
  let ξξ ← s.inner ξ ξ
  let imageSquared ← s.inner image image
  let ratio := Scalar.sqrt (ηη / ξξ)
  let factor := Scalar.sqrt (ηη / imageSquared) / ratio
  return {
    displacement := η
    factors := (factor, ηη, imageSquared * ratio * ratio)
    transported := if s.config.keepTransported then some (Vec.scale image (factor * ratio))
      else none }

/-- The derivative of the retraction at `η` applied to a vector of its direction. -/
def differential (x η y ξ : Vec K) (sameDirection : Bool) : Cached K (Vec K) := do
  if sameDirection then
    let image ← s.transport x y ξ
    if s.config.keepTransported || s.config.keepFactors then
      let entry ← s.scaling η ξ image
      modify (·.keepScaling entry)
    return image
  else
    .refuse (.notImplemented "differentiated retraction on L2Sphere for xi not parallel to eta")

/-! ## Operators -/

/-- Refuses a block that leaves an operator's dimension or has not one entry per sample. -/
def requireBlock (h : Matrix K) (start stop extent : Nat) : Checked Unit :=
  if stop < start ∨ extent < stop then
    refuse (.invalidParameter
      s!"block {start}..{stop} outside an operator dimension of {extent}")
  else if stop - start ≠ s.samples then
    refuse (.dimensionMismatch s!"block of length {s.samples}"
      s!"block of length {stop - start} in a {h.rows}x{h.width} operator")
  else .ok ()

/-- The operator composed with the inverse transport on a block of its columns. -/
def operatorInverseTransport (x y : Vec K) (h : Matrix K) (start stop : Nat) :
    Cached K (Matrix K) := do
  s.requireLength x
  s.requireLength y
  s.requireBlock h start stop h.width
  let d ← s.cachedReflection x y
  let xFlat ← s.flat x
  let block : Block := ⟨0, h.rows, start, stop - start⟩
  let part ← h.block block
  let image ← Checked.ofExcept (Matrix.accumulate false 1 part d 0 (Vec.zeros h.rows))
  Checked.ofExcept (Matrix.rankOne (-2.0) image xFlat h block)

/-- The transport composed with the operator on a block of its rows. -/
def operatorTransport (x y : Vec K) (h : Matrix K) (start stop : Nat) : Cached K (Matrix K) := do
  s.requireLength x
  s.requireLength y
  s.requireBlock h start stop h.rows
  let d ← s.cachedReflection x y
  let yFlat ← s.flat y
  let block : Block := ⟨start, stop - start, 0, h.width⟩
  let part ← h.block block
  let image ← Checked.ofExcept (Matrix.accumulate true 1 part yFlat 0 (Vec.zeros h.width))
  Checked.ofExcept (Matrix.rankOne (-2.0) d image h block)

/-! ## Derivatives and the manifold -/

def obtainFlat (η : Vec K) : Checked (Vec K) := do
  s.requireLength η
  s.flat η

/-- The Hessian on the sphere applied to `η`: the tangent part of the ambient product, corrected
by the ambient gradient kept for `x`. -/
def convertHessian (x η product : Vec K) : Cached K (Vec K) := do
  s.requireLength η
  s.requireLength product
  match (← get).gradientFor? x with
  | none => .refuse (.preconditionViolated
      "the Euclidean gradient at this point must be converted before its Hessian")
  | some gradient =>
    let cubes := x.map fun t => t * t * t
    let cubesSquared ← s.inner cubes cubes
    let along ← s.inner gradient cubes
    let scaled ← Vec.hadamard (← Vec.hadamard x x) η
    let factor := 3.0 * along / cubesSquared
    let corrected ← Vec.sub product (Vec.scale scaled factor)
    s.projectTangent x corrected

def randomPoint (draws : Vec K) : Vec K :=
  match s.normalize draws with
  | .ok point => point
  | .error _ => s.spike

/-- Named properties of the sphere, in text. -/
def summary : List (String × String) :=
  let c := s.config
  [("name", "L2Sphere"), ("n", toString c.samples), ("dimension", toString (c.samples - 1)),
    ("metric", c.metric.name), ("retraction", c.retraction.name),
    ("vector_transport", c.transport.name), ("has_hhr", toString c.keepTransported),
    ("upd_beta_alone", toString c.keepFactors), ("has_lock_con", toString c.locking),
    ("intrinsic", toString c.intrinsic)]

/-- What a run reports of the sphere before it starts. -/
def parameters : Event K :=
  let c := s.config
  { level := .info
    message := "manifold parameters"
    fields := [("manifold", .text "L2Sphere"), ("n", .count c.samples),
      ("metric", .text c.metric.name), ("retraction", .text c.retraction.name),
      ("vector_transport", .text c.transport.name), ("has_hhr", .flag c.keepTransported),
      ("upd_beta_alone", .flag c.keepFactors), ("has_lock_con", .flag c.locking)] }

/-- The listing of the sphere's parameters. -/
def display : String :=
  let c := s.config
  listing "L2Sphere PARAMETERS:" [("n", toString c.samples), ("metric", c.metric.name),
    ("retraction", c.retraction.name), ("VecTran", c.transport.name)]

/-- The sphere as a manifold. -/
def manifold : Manifold K where
  name := "L2Sphere"
  dimension := s.samples - 1
  ambientDimension := s.samples
  containsPoint := s.containsPoint
  containsTangent := s.containsTangent
  projectPoint := s.normalize
  inner _ := s.inner
  projectTangent := s.projectTangent
  retract := s.retract
  transport x _ := s.transport x
  inverseTransport x _ := s.inverseTransport x
  differential := s.differential
  operatorInverseTransport x _ := s.operatorInverseTransport x
  operatorTransport x _ := s.operatorTransport x
  flat _ := s.obtainFlat
  convertHessian := s.convertHessian
  randomPoint := s.randomPoint
  randomTangent := s.projectTangent
  summary := s.summary
  parameters := s.parameters

end GeodesicDescent.Sphere
