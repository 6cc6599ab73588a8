import GeodesicDescent.Manifold

/-!
# Flat spaces

Coordinate spaces, where moving is adding and transport does nothing.

* `Flat.manifold`: the space of all vectors of one length;
* `HalfSpace.manifold`: the same geometry, with only those points whose first coordinate exceeds
  a bound. It offers no operator transport and no flat vectors.
-/

namespace GeodesicDescent

variable {K : Type} [Scalar K]

/-- The coordinate space of a dimension. -/
structure Flat where
  dimension : Nat
  deriving DecidableEq, Repr

namespace Flat

variable (s : Flat)

/-- Refuses a vector that is not of the space's dimension. -/
def requireLength (v : Vec K) : Checked Unit :=
  if v.length = s.dimension then .ok () else refuse (.lengths s.dimension v.length)

def contains (v : Vec K) : Bool := v.length == s.dimension

/-- A vector of the space itself. -/
def project (v : Vec K) : Checked (Vec K) := do
  s.requireLength v
  return v

def inner (u v : Vec K) : Checked K := do
  s.requireLength u
  s.requireLength v
  Vec.dot u v

def retract (point tangent : Vec K) : Checked (Vec K) := do
  s.requireLength tangent
  Vec.add point tangent

def randomTangent (point draws : Vec K) : Checked (Vec K) := do
  s.requireLength point
  return draws

/-- The coordinate space as a manifold. -/
def manifold : Manifold K where
  name := "TestEuclidean"
  dimension := s.dimension
  ambientDimension := s.dimension
  containsPoint point _ := s.contains point
  containsTangent _ vector _ := s.contains vector
  projectPoint := s.project
  inner _ := s.inner
  projectTangent _ := s.project
  retract := s.retract
  transport _ _ _ ξ := return ξ
  inverseTransport _ _ _ ξ := return ξ
  operatorInverseTransport _ _ _ h _ _ := return h
  operatorTransport _ _ _ h _ _ := return h
  flat _ η := return η
  randomPoint draws := draws
  randomTangent := s.randomTangent

end Flat

/-- The points of a coordinate space whose first coordinate exceeds a bound. -/
structure HalfSpace (K : Type) where
  dimension : Nat
  bound : K

namespace HalfSpace

variable (s : HalfSpace K)

/-- The coordinate space around the half space. -/
def flat : Flat := ⟨s.dimension⟩

/-- The half space as a manifold. -/
def manifold : Manifold K where
  name := "HalfSpace"
  dimension := s.dimension
  ambientDimension := s.dimension
  containsPoint point _ := point.head?.any (s.bound < ·)
  containsTangent _ vector _ := s.flat.contains vector
  projectPoint := s.flat.project
  inner _ := s.flat.inner
  projectTangent _ := s.flat.project
  retract := s.flat.retract
  transport _ _ _ ξ := return ξ
  randomPoint draws := draws
  randomTangent := s.flat.randomTangent

end HalfSpace

end GeodesicDescent
