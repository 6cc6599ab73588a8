import GeodesicDescent.Manifold.Flat
import GeodesicDescent.Proofs.Direction.ConjugateGradient
import GeodesicDescent.Proofs.Floating

/-!
# The descent safeguard

Before a search the conjugate gradient rule looks at the slope of the direction that it kept and
falls back to the gradient where that slope is not below minus the precision. A slope that is not a
number is not compared with anything, so that its direction is kept.

* **`ConjugateGradient.steer_descends`**: the search goes against the gradient, or along a
  direction whose slope is below zero exactly if it is a number;
* `ConjugateGradient.steer_keeps_no_number`: a direction that is prepared after a step, has a slope
  that is not a number, and is kept.
-/

namespace GeodesicDescent.ConjugateGradient

open Stateful

variable {K : Type} [Scalar K] {M : Manifold K} {it : Iterate K}
variable {h h' : Heading K (ConjugateGradient K)}

/-- **Before a search the rule falls back to the gradient, or the slope of its direction is below
zero exactly if it is a number.** -/
theorem steer_descends [FloatingPrecision K] {a : Unit} (hs : steer M it h = (.ok a, h')) :
    h'.direction = Vec.neg it.gradient ∨ ∃ slope,
      M.inner it.point h'.direction it.gradient = .ok slope ∧ (slope < 0 ↔ IsNumber slope) := by
  obtain ⟨slope, hslope, rfl⟩ := steer_eq_ok.1 hs
  by_cases hrestart : h.rule.restarts it.iteration slope = true
  · exact .inl (if_pos hrestart)
  · have hgoes := Bool.of_not_eq_true hrestart
    rw [restarts, Bool.or_eq_false_iff, decide_eq_false_iff_not] at hgoes
    refine .inr ⟨slope, ?_, lt_zero_iff_isNumber hgoes.2⟩
    dsimp only
    rw [if_neg hrestart]
    exact hslope

/-! ## A direction to nowhere -/

/-- A step on the line from zero, of length one, after which the gradient is what it was. -/
def levelStep : Iterate Float where
  point := [0]
  nextPoint := [-1]
  gradient := [1]
  nextGradient := [1]
  displacement := [-1]
  value := 0
  nextValue := -1
  iteration := 1
  step := 1
  lineSearch := .armijo

/-- The heading of that step, against the gradient, with the formula of Hestenes and Stiefel. -/
def levelHeading : Heading Float (ConjugateGradient Float) where
  direction := [-1]
  rule := .new { method := .hestenesStiefel }

theorem steer_descends_level : ∃ h', steer (Flat.manifold ⟨1⟩) levelStep levelHeading =
    (.ok (), h') ∧ (h'.direction = Vec.neg levelStep.gradient ∨ ∃ slope,
      (Flat.manifold ⟨1⟩ : Manifold Float).inner levelStep.point h'.direction levelStep.gradient =
        .ok slope ∧ (slope < 0 ↔ IsNumber slope)) := by
  obtain ⟨a, h', steered, -⟩ := exists_of_yields
    (x := steer (Flat.manifold ⟨1⟩) levelStep levelHeading) (P := fun _ => True)
    (by decide +kernel)
  exact ⟨h', steered, steer_descends steered⟩

/-- The heading after that step. -/
def levelLearnt : Heading Float (ConjugateGradient Float) :=
  (learn (Flat.manifold ⟨1⟩) levelStep levelHeading).2

/-- The heading of the search that follows. -/
def levelSteered : Heading Float (ConjugateGradient Float) :=
  (steer (Flat.manifold ⟨1⟩) levelStep.shift levelLearnt).2

/-- **A direction whose slope is not a number is kept**: the formula divides zero by zero. -/
theorem steer_keeps_no_number :
    learn (Flat.manifold ⟨1⟩) levelStep levelHeading = (.ok (), levelLearnt) ∧
      steer (Flat.manifold ⟨1⟩) levelStep.shift levelLearnt = (.ok (), levelSteered) ∧
      levelStep.shift.gradient = [1] ∧
      (Flat.manifold ⟨1⟩ : Manifold Float).inner levelStep.shift.point levelStep.shift.gradient
        levelStep.shift.gradient = .ok 1 ∧
      levelSteered.direction ≠ Vec.neg levelStep.shift.gradient ∧
      ∃ slope, (Flat.manifold ⟨1⟩ : Manifold Float).inner levelStep.shift.point
        levelSteered.direction levelStep.shift.gradient = .ok slope ∧
        ¬ IsNumber slope ∧ ¬ slope < 0 := by
  have learnt : (learn (Flat.manifold ⟨1⟩) levelStep levelHeading).1 = .ok () :=
    eq_ok_of_yields (by decide +kernel)
  have steered : (steer (Flat.manifold ⟨1⟩) levelStep.shift levelLearnt).1 = .ok () :=
    eq_ok_of_yields (by decide +kernel)
  refine ⟨Prod.ext learnt rfl, Prod.ext steered rfl, rfl, ?_, by decide +kernel, ?_⟩
  · exact eq_ok_of_yields (by decide +kernel)
  · exact exists_ok_of_yields (by decide +kernel)

end GeodesicDescent.ConjugateGradient
