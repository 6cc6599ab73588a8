import Mathlib.Algebra.Order.Field.Basic
import Mathlib.Analysis.SpecialFunctions.Trigonometric.Basic
import Mathlib.Data.Rat.Sqrt
import Mathlib.Tactic.NormNum.OfScientific
import GeodesicDescent.Scalar

/-!
# Exact scalars

An ordered field is a scalar type as soon as it has roots, angles and tolerances, which need not
obey any law. Its operations are those of the field, so that what is proved about a field applies
to every algorithm.

* `Elementary`, `Tolerances`: what a scalar type has beyond its field;
* **`Scalar.ofField`**: the scalar type of an ordered field;
* `ExactEquality`: scalars that compare as equal only where they are the same;
* real numbers, with any tolerances, and rational numbers, in which small runs can be evaluated.
-/

namespace GeodesicDescent

/-- Roots and angles. -/
class Elementary (K : Type) where
  sqrt : K → K
  sin : K → K
  cos : K → K

/-- The tolerances of a scalar type, all positive, its precision below one. -/
class Tolerances (K : Type) [Zero K] [One K] [LT K] where
  epsilon : K
  gradientTolerance : K
  pointTolerance : K
  tangentTolerance : K
  epsilon_pos : 0 < epsilon
  epsilon_lt_one : epsilon < 1
  gradientTolerance_pos : 0 < gradientTolerance
  pointTolerance_pos : 0 < pointTolerance
  tangentTolerance_pos : 0 < tangentTolerance

/-- Scalars that compare as equal only where they are the same scalar. -/
class ExactEquality (K : Type) [BEq K] : Prop where
  eq_of_beq : ∀ {a b : K}, (a == b) = true → a = b

variable {K : Type}

theorem eq_of_beq_vec [BEq K] [ExactEquality K] :
    ∀ {u v : List K}, (u == v) = true → u = v
  | [], [], _ => rfl
  | [], _ :: _, h => nomatch h
  | _ :: _, [], h => nomatch h
  | a :: u, b :: v, h => by
    rw [List.cons_beq_cons, Bool.and_eq_true] at h
    rw [ExactEquality.eq_of_beq h.1, eq_of_beq_vec h.2]

/-! ## Ordered fields -/

section Field

variable [Field K] [LinearOrder K]

/-- **An ordered field with roots, angles and tolerances is a scalar type.** -/
instance (priority := low) Scalar.ofField [Elementary K] [Tolerances K] : Scalar K where
  decLt := inferInstance
  decLe := inferInstance
  sqrt := Elementary.sqrt
  sin := Elementary.sin
  cos := Elementary.cos
  abs x := |x|
  isFinite _ := true
  epsilon := Tolerances.epsilon
  gradientTolerance := Tolerances.gradientTolerance
  pointTolerance := Tolerances.pointTolerance
  tangentTolerance := Tolerances.tangentTolerance

instance ExactEquality.ofField [Elementary K] [Tolerances K] : ExactEquality K where
  eq_of_beq h := by simpa using h

@[simp] theorem scalar_isFinite [Elementary K] [Tolerances K] (a : K) :
    Scalar.isFinite a = true := rfl

theorem scientific_two [IsStrictOrderedRing K] : (2.0 : K) = 2 := by norm_num

theorem scientific_half [IsStrictOrderedRing K] : (0.5 : K) = 1 / 2 := by norm_num

theorem scalar_min_eq [Elementary K] [Tolerances K] (a b : K) : Scalar.min a b = min a b := by
  unfold Scalar.min
  split_ifs with h h' h''
  · exact (min_eq_left h).symm
  · exact (min_eq_right h').symm
  all_goals exact absurd (le_total a b) (by simp [h, h'])

end Field

/-! ## Real and rational numbers -/

noncomputable instance Elementary.real : Elementary ℝ := ⟨Real.sqrt, Real.sin, Real.cos⟩

/-- Rational numbers have exact roots of squares, and the angles of zero. -/
instance Elementary.rat : Elementary ℚ := ⟨Rat.sqrt, id, fun _ => 1⟩

/-- The tolerances of double precision, the precision rounded. -/
@[reducible]
def Tolerances.double (K : Type) [Field K] [LinearOrder K] [IsStrictOrderedRing K] :
    Tolerances K where
  epsilon := 1 / 10 ^ 16
  gradientTolerance := 1 / 10 ^ 8
  pointTolerance := 1 / 10 ^ 10
  tangentTolerance := 1 / 10 ^ 10
  epsilon_pos := by positivity
  epsilon_lt_one := by norm_num
  gradientTolerance_pos := by positivity
  pointTolerance_pos := by positivity
  tangentTolerance_pos := by positivity

instance Tolerances.rat : Tolerances ℚ := .double ℚ

noncomputable instance Tolerances.real : Tolerances ℝ := .double ℝ

end GeodesicDescent
