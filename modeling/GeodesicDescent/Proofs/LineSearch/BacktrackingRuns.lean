import GeodesicDescent.LineSearch.Backtracking
import GeodesicDescent.Proofs.LineSearch.Workspace
import Mathlib.Logic.Relation

/-!
# Runs of the backtracking search

* `Tests`: the value at a step;
* `Shortens`, `Takes`: a step that is shortened, and one that is taken;
* **`search_eq_ok`**: a search that succeeds shortens its first step to one that it takes.
-/

namespace GeodesicDescent.Backtracking

open Stateful Problem Relation

variable {K σ : Type} [Scalar K] {p : Problem K σ} {params : SearchParams K}
variable {point direction : Vec K} {value slope : K}

/-- The step leads to the point `x`, at which the objective gives the value `v`. -/
def Tests (p : Problem K σ) (point direction : Vec K) (step : K) (w : Workspace K σ) (x : Vec K)
    (v : K) (w' : Workspace K σ) : Prop :=
  p.manifold.retract point (Vec.scale direction step) = .ok x ∧
    ∃ o, p.objective.eval x w.objective = (.ok v, o) ∧ w' = { w with objective := o }

/-- The decrease at a step is not enough, and the shorter step is not shorter than the least. -/
inductive Shortens (p : Problem K σ) (params : SearchParams K) (point : Vec K) (value slope : K)
    (direction : Vec K) : K × Workspace K σ → K × Workspace K σ → Prop
  | shorter {step w x v w'} (tested : Tests p point direction step w x v w')
      (high : ¬ v ≤ value + params.c1 * step * slope)
      (long : ¬ step * params.rho < params.minStep) :
      Shortens p params point value slope direction (step, w) (step * params.rho, w')

/-- The decrease at a step is enough, and value and gradient are evaluated there. -/
inductive Takes (p : Problem K σ) (params : SearchParams K) (point : Vec K) (value slope : K)
    (direction : Vec K) : K × Workspace K σ → Accepted K → Workspace K σ → Prop
  | low {step w v w₁ a w'} (tested : Tests p point direction step w a.point v w₁)
      (low : v ≤ value + params.c1 * step * slope)
      (evaluated : p.evaluate a.point w₁ = (.ok (a.value, a.gradient), w'))
      (step_eq : a.step = step) :
      Takes p params point value slope direction (step, w) a w'

theorem trySteps_eq_ok {budget tried : Nat} {step : K} {w w' : Workspace K σ} {a : Accepted K}
    (h : trySteps p params point value slope direction budget tried step w = (.ok a, w')) :
    ∃ q, ReflTransGen (Shortens p params point value slope direction) (step, w) q ∧
      Takes p params point value slope direction q a w' := by
  induction budget generalizing tried step w with
  | zero => exact nomatch h
  | succ budget ih =>
    rw [trySteps] at h
    simp only [bind_eq_ok, trialPoint_eq_ok, Searching.ofEval_eq_ok] at h
    obtain ⟨x, _, ⟨hx, rfl⟩, v, w₁, ho, h⟩ := h
    have tested := (⟨hx, ho⟩ : Tests p point direction step _ x v w₁)
    by_cases low : v ≤ value + params.c1 * step * slope
    · rw [if_pos low] at h
      obtain ⟨⟨newValue, newGradient⟩, w₂, evaluated, h⟩ := bind_eq_ok.1 h
      cases h
      exact ⟨_, .refl, .low tested low evaluated rfl⟩
    rw [if_neg low] at h
    by_cases short : step * params.rho < params.minStep
    · rw [if_pos short] at h
      exact nomatch h
    · rw [if_neg short] at h
      obtain ⟨q, hq, ht⟩ := ih h
      exact ⟨q, .head (.shorter tested low short) hq, ht⟩

/-- **A search that succeeds shortens its first step to one that it takes.** -/
theorem search_eq_ok {gradient : Vec K} {w w' : Workspace K σ} {a : Accepted K}
    (h : search p params point value gradient direction w = (.ok a, w')) :
    ∃ slope, p.manifold.inner point gradient direction = .ok slope ∧ ¬ 0 ≤ slope ∧
      ∃ q, ReflTransGen (Shortens p params point value slope direction) (params.firstStep, w) q ∧
        Takes p params point value slope direction q a w' := by
  obtain ⟨slope, _, hslope, htry⟩ := bind_eq_ok.1 h
  obtain ⟨hinner, hdown, rfl⟩ := downhillSlope_eq_ok.1 hslope
  exact ⟨slope, hinner, hdown, trySteps_eq_ok htry⟩

end GeodesicDescent.Backtracking
