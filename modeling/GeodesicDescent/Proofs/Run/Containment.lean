import GeodesicDescent.Proofs.Run.Coherence
import GeodesicDescent.Proofs.Run.Directions
import GeodesicDescent.Proofs.Sphere.Transparency

/-!
# Where the point of a result lies

A step is tested for leaving the manifold before it is taken, but the start of a run is not. A run
returns a point outside only if it returns the point that it was given.

* **`Setup.Visits.contained`**: a visited point is the start, or it was reached by a step and lies
  on the manifold;
* **`Setup.run_contained`**: so does the point of a result;
* `Setup.run_returns_outsider`: a start outside is returned as a result.
-/

namespace GeodesicDescent

open Stateful

variable {K σ ρ : Type} [Scalar K] {u : Setup K σ ρ}

/-- The point is the start of the run, or steps have led to it and it lies on the manifold. -/
def RunState.Contained (u : Setup K σ ρ) (x₀ : Vec K) (s : RunState K σ ρ) : Prop :=
  s.iterate.iteration = 0 ∧ s.iterate.point = x₀ ∨ 0 < s.iterate.iteration ∧
    u.manifold.containsPoint s.iterate.point Scalar.pointTolerance = true

theorem Running.Steps.contained {s s' t : RunState K σ ρ} {norm : K} {a : Accepted K}
    {work : Workspace K σ} {h : Heading K ρ} (hs : Steps u s norm t a work h s') (x₀ : Vec K) :
    s'.Contained u x₀ := by
  refine .inr ⟨?_, ?_⟩
  · rw [hs.state_eq]
    exact Nat.succ_pos _
  · rw [hs.state_eq]
    exact hs.stays

namespace Setup

variable {start : ρ} {state : σ} {x₀ : Vec K} {s : RunState K σ ρ}

/-- **Every point that a run visits is the start or lies on the manifold.** -/
theorem Visits.contained (h : u.Visits start state x₀ s) : s.Contained u x₀ := by
  cases h with
  | first begun =>
    obtain ⟨_, _, _, _, -, -, rfl⟩ := begin_eq_ok begun
    exact .inl ⟨rfl, rfl⟩
  | next _ moved =>
    obtain ⟨norm, t, a, work, h, steps⟩ := Running.steps_of_iterate moved
    exact steps.contained x₀

/-- **The point of a result lies on the manifold if the start does or a step was taken.** Otherwise
it is the start. -/
theorem run_contained {result : Result K} {after : Aftermath K σ ρ}
    (h : u.run start state x₀ = (.ok result, after)) :
    (u.manifold.containsPoint x₀ Scalar.pointTolerance = true ∨ 0 < result.iterations →
      u.manifold.containsPoint result.point Scalar.pointTolerance = true) ∧
    (result.iterations = 0 → result.point = x₀) := by
  obtain ⟨s, s', reason, norm, visited, ends, hresult⟩ := run_eq_ok h
  rw [ends.concluded_eq] at hresult
  subst hresult
  obtain ⟨hzero, hpoint⟩ | ⟨hpos, hinside⟩ := visited.contained
  · refine ⟨?_, fun _ => hpoint⟩
    rintro (hstart | hpos)
    · exact (congrArg (u.manifold.containsPoint · Scalar.pointTolerance) hpoint).trans hstart
    · exact absurd hzero hpos.ne'
  · exact ⟨fun _ => hinside, fun hzero => absurd hzero hpos.ne'⟩

/-- Steepest descent on the positive rational numbers, towards one. -/
def inward : Setup ℚ Unit Unit where
  config := { lineSearch := .armijo }
  rule := steepestDescent false
  objective := (⟨⟨1, [[1]], by decide⟩, [-1], 0⟩ : Quadratic ℚ).objective
  manifold := HalfSpace.manifold ⟨1, 0⟩
  clock _ := 0

/-- A step leads from a start outside to a point inside. -/
theorem run_contained_inward : inward.manifold.containsPoint [-1] Scalar.pointTolerance = false ∧
    ∃ result after, inward.run () () [-1] = (.ok result, after) ∧
      inward.manifold.containsPoint result.point Scalar.pointTolerance = true := by
  obtain ⟨result, after, hrun, hsteps⟩ := exists_of_yields
    (x := inward.run () () [-1]) (P := fun r => 0 < r.iterations) (by decide +kernel)
  exact ⟨by decide, result, after, hrun, (run_contained hrun).1 (.inr hsteps)⟩

/-- Conjugate gradients on the smallest sphere, for a constant. -/
def levelSegment : Setup Float Unit (ConjugateGradient Float) :=
  (Sphere.manifold .segment).conjugateGradients {}
    (⟨⟨2, [[0, 0], [0, 0]], by decide⟩, [0, 0], 0⟩ : Quadratic Float).objective fun _ => 0

/-- **A run returns a start outside the manifold**: at a stationary point no step is taken. -/
theorem run_returns_outsider :
    ∃ result after, levelSegment.run (.new {}) () [3, 3] = (.ok result, after) ∧
      result.reason = .converged ∧
      levelSegment.manifold.containsPoint result.point Scalar.pointTolerance = false :=
  exists_of_yields
    (P := fun r : Result Float => r.reason = .converged ∧
      levelSegment.manifold.containsPoint r.point Scalar.pointTolerance = false)
    (by decide +kernel)

end Setup

end GeodesicDescent
