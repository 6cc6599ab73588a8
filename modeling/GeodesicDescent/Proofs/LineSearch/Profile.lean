import GeodesicDescent.Manifold.Flat
import GeodesicDescent.Proofs.LineSearch.Curvature
import GeodesicDescent.Proofs.Run.Coherence
import GeodesicDescent.Proofs.Sphere.Transparency

/-!
# The profile of an objective along a curve

A search looks at the objective along the curve that a retraction draws. Where neither the
objective nor the geometry shows what was asked before, there is one value and one slope after each
step, whenever the search looks.

* `Problem.Pure`: an objective and a manifold that do not show what was asked before;
* `Problem.pure_flat`, `Problem.pure_sphere`: flat spaces, and spheres on faithful caches;
* `StrongWolfe.valueAfter`, `StrongWolfe.slopeAfter`: the value and the slope after a step;
* **`valueAfter_eq_ok`**, **`slopeAfter_eq_ok`**: that every trial shows them.
-/

namespace GeodesicDescent

open Stateful

variable {K σ : Type} [Scalar K]

/-! ## Pure problems -/

/-- What the objective and the geometry answer does not depend on the past, as long as the cache
has `Q`, which it keeps. -/
structure Problem.Pure (p : Problem K σ) (Q : Cache K → Prop) : Prop where
  objective : p.objective.Steady
  manifold : p.manifold.Steady
  differential : ∀ x η y ξ c c', Q c → Q c' →
    (p.manifold.differential x η y ξ true c).1 = (p.manifold.differential x η y ξ true c').1
  keeps_convertGradient : ∀ x g, Keeps Q (p.manifold.convertGradient x g p.usage)
  keeps_differential : ∀ x η y ξ, Keeps Q (p.manifold.differential x η y ξ true)

namespace Problem

variable {f : Objective K σ} {usage : Usage}

theorem pure_flat (s : Flat) (hf : f.Steady) :
    (⟨f, s.manifold, usage⟩ : Problem K σ).Pure fun _ => True where
  objective := hf
  manifold := s.manifold_steady
  differential _ _ _ _ _ _ _ _ := rfl
  keeps_convertGradient _ _ _ _ := trivial
  keeps_differential _ _ _ _ _ _ := trivial

theorem pure_sphere [ExactEquality K] (s : Sphere) (hf : f.Steady) :
    (⟨f, s.manifold, usage⟩ : Problem K σ).Pure Cache.Faithful where
  objective := hf
  manifold := s.manifold_steady
  differential _ η _ ξ c c' hc hc' := (Sphere.transparent_differential η ξ true c hc).1.trans
    (Sphere.transparent_differential η ξ true c' hc').1.symm
  keeps_convertGradient _ g c hc := (Sphere.transparent_convertGradient g usage c hc).2
  keeps_differential _ η _ ξ c hc := (Sphere.transparent_differential η ξ true c hc).2

theorem Pure.partsKeep {p : Problem K σ} {Q : Cache K → Prop} (hp : p.Pure Q) :
    p.PartsKeep fun w => Q w.cache :=
  partsKeep_of_cache hp.keeps_convertGradient hp.keeps_differential

end Problem

/-! ## The profile -/

namespace StrongWolfe

variable {p : Problem K σ} {ray : Ray K} {w₀ : Workspace K σ} {Q : Cache K → Prop}
variable {step d : K} {t : Trial K} {w w' w'' : Workspace K σ}

theorem tryStep_steady (hp : p.Pure Q) (tried : tryStep p ray step w = (.ok t, w'))
    (w₀ : Workspace K σ) : ∃ w₁, tryStep p ray step w₀ = (.ok t, w₁) := by
  obtain ⟨w₁, w₂, reached, evaluated, rfl, -⟩ := tryStep_eq_ok.1 tried
  obtain ⟨joined, rfl⟩ := Problem.trialPoint_eq_ok.1 reached
  have hsame := Problem.evaluate_steady hp.objective hp.manifold evaluated w₀
  rcases hagain : p.evaluate t.point w₀ with ⟨r, w₃⟩
  rw [hagain] at hsame
  obtain rfl : r = .ok (t.value, t.gradient) := hsame
  exact ⟨_, tryStep_eq_ok.2 ⟨w₀, w₃, Problem.trialPoint_eq_ok.2 ⟨joined, rfl⟩, hagain, rfl, rfl⟩⟩

theorem slopeAt_steady (hp : p.Pure Q) (hw : Q w.cache) (hw₀ : Q w₀.cache)
    (slope : slopeAt p ray t w = (.ok d, w')) : ∃ w₁, slopeAt p ray t w₀ = (.ok d, w₁) := by
  obtain ⟨moved, c, hmoved, hd, -⟩ := slopeAt_eq_ok.1 slope
  have hsame := hp.differential ray.point (Vec.scale ray.direction t.step) t.point ray.direction
    w₀.cache w.cache hw₀ hw
  rcases hagain : p.manifold.differential ray.point (Vec.scale ray.direction t.step) t.point
    ray.direction true w₀.cache with ⟨r, c₁⟩
  rw [hagain, hmoved] at hsame
  obtain rfl : r = .ok moved := hsame
  exact ⟨_, slopeAt_eq_ok.2 ⟨moved, c₁, hagain, hd, rfl⟩⟩

section

variable [DecidableEq K]

/-- The value of the objective after a step along a ray; after no step the one that the search
starts with. -/
def valueAfter (p : Problem K σ) (ray : Ray K) (w₀ : Workspace K σ) (step : K) :
    Except (Fault (SolverError K)) K :=
  if step = 0 then .ok ray.value else (tryStep p ray step w₀).1.map Trial.value

/-- The slope of the objective after a step along a ray, as the search computes it; after no step
the one that the search starts with. -/
def slopeAfter (p : Problem K σ) (ray : Ray K) (w₀ : Workspace K σ) (step : K) :
    Except (Fault (SolverError K)) K :=
  if step = 0 then .ok ray.slope else ((tryStep p ray step >>= slopeAt p ray) w₀).1

theorem valueAfter_zero : valueAfter p ray w₀ 0 = .ok ray.value := if_pos rfl

theorem slopeAfter_zero : slopeAfter p ray w₀ 0 = .ok ray.slope := if_pos rfl

/-- Where the search starts with the value at its start, no step is no exception. -/
theorem valueAfter_eq_map (h : (tryStep p ray 0 w₀).1.map Trial.value = .ok ray.value) :
    valueAfter p ray w₀ step = (tryStep p ray step w₀).1.map Trial.value := by
  unfold valueAfter
  split_ifs with hstep
  · rw [hstep, h]
  · rfl

/-- **Every trial shows the value after its step**, whatever was tried before. -/
theorem valueAfter_eq_ok (hp : p.Pure Q) (hstep : step ≠ 0)
    (tried : tryStep p ray step w = (.ok t, w')) : valueAfter p ray w₀ step = .ok t.value := by
  obtain ⟨w₁, again⟩ := tryStep_steady hp tried w₀
  rw [valueAfter, if_neg hstep, again]
  rfl

/-- **Every trial shows the slope after its step**, whatever was tried before. -/
theorem slopeAfter_eq_ok (hp : p.Pure Q) (hw₀ : Q w₀.cache) (hw : Q w.cache) (hstep : step ≠ 0)
    (tried : tryStep p ray step w = (.ok t, w')) (slope : slopeAt p ray t w' = (.ok d, w'')) :
    slopeAfter p ray w₀ step = .ok d := by
  obtain ⟨w₁, again⟩ := tryStep_steady hp tried w₀
  have hkeeps := keeps_tryStep hp.partsKeep.evaluate hp.partsKeep.trials ray step
  obtain ⟨w₂, slope'⟩ := slopeAt_steady hp (hkeeps.of_eq hw tried) (hkeeps.of_eq hw₀ again) slope
  rw [slopeAfter, if_neg hstep, bind_eq_ok.2 ⟨t, w₁, again, slope'⟩]

end

end StrongWolfe

end GeodesicDescent
