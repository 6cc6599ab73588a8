import GeodesicDescent.Double

/-!
# Scalars

The arithmetic in which everything is computed. A scalar type offers operations and constants
but promises no laws, so that one definition of an algorithm serves rounded and exact arithmetic.

* `Scalar`: the operations, the comparisons and the tolerances of a scalar type;
* `Scalar.min`: the smaller of two scalars, or the one that is a number;
* `OfDouble`: conversion of a double, for parameters that arrive as doubles;
* instances for double and single precision.
-/

namespace GeodesicDescent

/-- The arithmetic of a scalar type: operations and constants, without laws. -/
class Scalar (K : Type) extends Add K, Sub K, Mul K, Div K, Neg K, Zero K, One K, NatCast K,
    OfScientific K, LT K, LE K, BEq K where
  decLt : DecidableLT K
  decLe : DecidableLE K
  sqrt : K → K
  sin : K → K
  cos : K → K
  abs : K → K
  isFinite : K → Bool
  /-- The distance from one to the next larger scalar. -/
  epsilon : K
  /-- The gradient norm below which a point usually counts as stationary. -/
  gradientTolerance : K
  /-- The defect that a point of a manifold may show. -/
  pointTolerance : K
  /-- The inner product with its base point that a tangent vector may show. -/
  tangentTolerance : K

/-- Conversion of a double to the nearest scalar. -/
class OfDouble (K : Type) where
  ofDouble : Float → K

export OfDouble (ofDouble)

variable {K : Type} [Scalar K]

instance (priority := low) Scalar.decidableLT : DecidableLT K := Scalar.decLt

instance (priority := low) Scalar.decidableLE : DecidableLE K := Scalar.decLe

/-- The smaller of two scalars; where one is not a number, the other. -/
def Scalar.min (a b : K) : K :=
  if a ≤ b then a else if b ≤ a then b else if a == a then a else b

/-! ## Double and single precision -/

instance : Scalar Float where
  zero := 0.0
  one := 1.0
  natCast := Float.ofNat
  decLt := inferInstance
  decLe := inferInstance
  sqrt := Float.sqrt
  sin := Float.sin
  cos := Float.cos
  abs := Float.abs
  isFinite := Float.isFinite
  epsilon := 2.220446049250313e-16
  gradientTolerance := 1e-8
  pointTolerance := 1e-10
  tangentTolerance := 1e-10

instance : Scalar Float32 where
  zero := 0.0
  one := 1.0
  natCast := Float32.ofNat
  decLt := inferInstance
  decLe := inferInstance
  sqrt := Float32.sqrt
  sin := Float32.sin
  cos := Float32.cos
  abs := Float32.abs
  isFinite := Float32.isFinite
  epsilon := 1.1920929e-7
  gradientTolerance := 1e-5
  pointTolerance := 1e-5
  tangentTolerance := 1e-5

instance : OfDouble Float where
  ofDouble x := x

instance : OfDouble Float32 where
  ofDouble := Double.toSingle

end GeodesicDescent
