import GeodesicDescent.Manifold

/-!
# The choice of a sphere

A sphere of sampled functions is asked for by its number of samples, its kinds of geometry and
its flags. Only some choices exist.

* `MetricChoice`, `RetractionChoice`, `TransportChoice`: the kinds of geometry;
* `SphereConfig`: what is asked for;
* `SphereConfig.validate`: why a choice does not exist, if it does not;
* `Sphere`: a choice that exists, and `Sphere.ofConfig?`, which makes one.
-/

namespace GeodesicDescent

/-- The inner products that can be asked for. -/
inductive MetricChoice
  | euclidean
  | trapezoid
  deriving DecidableEq, Repr

/-- The ways from a tangent space to the manifold that can be asked for. -/
inductive RetractionChoice
  | exponential
  | normalized
  deriving DecidableEq, Repr

/-- The ways from one tangent space to another that can be asked for. -/
inductive TransportChoice
  | parallel
  | projection
  | isometricHouseholder
  deriving DecidableEq, Repr

def MetricChoice.name : MetricChoice → String
  | euclidean => "EUCLIDEAN"
  | trapezoid => "TRAPEZOID"

def RetractionChoice.name : RetractionChoice → String
  | exponential => "EXP"
  | normalized => "NORMALIZED"

def TransportChoice.name : TransportChoice → String
  | parallel => "PARALLEL"
  | projection => "PROJECTION"
  | isometricHouseholder => "ISOBYHHR"

/-- The geometry that is asked for. -/
structure SphereConfig where
  /-- The number of samples of a function. -/
  samples : Nat
  metric : MetricChoice := .trapezoid
  retraction : RetractionChoice := .exponential
  transport : TransportChoice := .isometricHouseholder
  /-- Whether a differentiated retraction also keeps the transported displacement. -/
  keepTransported : Bool := false
  /-- Whether a differentiated retraction keeps its scale factors. -/
  keepFactors : Bool := false
  /-- Whether the transport is announced to lock to the differentiated retraction. -/
  locking : Bool := false
  intrinsic : Bool := false
  deriving DecidableEq, Repr

/-- Whether the choice exists; else which part of it does not, the first of several. -/
def SphereConfig.validate (c : SphereConfig) : Except GeometryError Unit :=
  let unsupported reason := throw (.unsupportedConfiguration reason)
  if c.samples < 2 then unsupported s!"L2Sphere needs at least 2 samples, got {c.samples}"
  else if c.metric ≠ .trapezoid then
    unsupported s!"metric {c.metric.name} is not available on L2Sphere"
  else if c.retraction ≠ .exponential then
    unsupported s!"retraction {c.retraction.name} is not available on L2Sphere"
  else if c.transport ≠ .isometricHouseholder then
    unsupported s!"vector transport {c.transport.name} is not available on L2Sphere"
  else if c.intrinsic then unsupported "L2Sphere only supports the extrinsic representation"
  else .ok ()

/-- A sphere that exists. -/
structure Sphere where
  config : SphereConfig
  supported : config.validate = .ok ()

namespace Sphere

/-- The sphere of a choice, if it exists. -/
def ofConfig? (c : SphereConfig) : Except GeometryError Sphere :=
  match h : c.validate with
  | .ok () => .ok ⟨c, h⟩
  | .error e => .error e

/-- The number of samples of a function. -/
def samples (s : Sphere) : Nat := s.config.samples

theorem two_le_samples (s : Sphere) : 2 ≤ s.samples := by
  have h := s.supported
  unfold SphereConfig.validate at h
  by_cases hn : s.config.samples < 2
  · simp [hn, throw, throwThe, MonadExceptOf.throw] at h
  · exact Nat.le_of_not_lt hn

end Sphere

end GeodesicDescent
