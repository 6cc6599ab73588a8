import Mathlib.Tactic.Linarith
import GeodesicDescent.Proofs.LineSearch.Descent
import GeodesicDescent.Proofs.LineSearch.FirstStep
import GeodesicDescent.Proofs.LineSearch.Profile

/-!
# What a strong Wolfe search accepts

Over an ordered field, and on a problem that does not show what was asked before, an accepted step
is described by what can be asked of the problem afterwards: where the step leads, value and
gradient there, and the slope. Only the longest step of all may leave a slope that is not flat, and
then it leads downhill.

* `Position.Within`: no step is longer than the longest;
* `Moves.within`, `Succeeds.step_le`: a trial that leads on keeps this, so that the step taken is
  not longer either;
* **`search_accepts`**: the step taken, its point, value and gradient, and the slope.
-/

namespace GeodesicDescent.StrongWolfe

open Stateful Relation

variable {K σ : Type} [Field K] [LinearOrder K] [Elementary K] [Tolerances K]
variable {p : Problem K σ} {params : SearchParams K} {ray : Ray K}

/-! ## The longest step -/

/-- Neither the step that is tried nor the one before it is longer than the longest, and neither end
of a bracket is. -/
def Position.Within (params : SearchParams K) : Position K → Prop
  | .doubling _ previous _ step => previous ≤ params.maxStep ∧ step ≤ params.maxStep
  | .halving b => b.low ≤ params.maxStep ∧ b.high ≤ params.maxStep

theorem Position.within_start (hv : params.Valid) (value : K) :
    (Position.doubling true 0 value params.firstStep).Within params := by
  refine ⟨hv.maxStep_pos.le, ?_⟩
  rw [params.firstStep_eq]
  exact min_le_right _ _

variable [IsStrictOrderedRing K] {q q' : Position K × Workspace K σ}

theorem Position.Within.step_le {position : Position K} (h : position.Within params) :
    position.step ≤ params.maxStep := by
  cases position with
  | doubling first previous previousValue step => exact h.2
  | halving b =>
    obtain ⟨hlow, hhigh⟩ := h
    show b.middle ≤ params.maxStep
    rw [b.middle_eq]
    linarith

theorem Moves.within (hq : q.1.Within params) (h : Moves p params ray q q') :
    q'.1.Within params := by
  have hstep := hq.step_le
  cases h with
  | longer h =>
    cases h with
    | onwards tried =>
      rw [Position.Within, tryStep_step tried, scalar_min_eq]
      exact ⟨hstep, min_le_right _ _⟩
  | bracketed h =>
    cases h with
    | high => exact hq
    | uphill => exact ⟨hq.2, hq.1⟩
  | half wide h =>
    cases h with
    | high => exact ⟨hq.1, hstep⟩
    | steep =>
      refine ⟨hstep, ?_⟩
      dsimp only
      split_ifs
      · exact hq.1
      · exact hq.2

theorem within_of_moves (h : ReflTransGen (Moves p params ray) q q') (hq : q.1.Within params) :
    q'.1.Within params := by
  induction h with
  | refl => exact hq
  | tail _ hmove ih => exact hmove.within ih

theorem Succeeds.step_le {a : Accepted K} {w' : Workspace K σ} (hq : q.1.Within params)
    (h : Succeeds p params ray q a w') : a.step ≤ params.maxStep := by
  obtain ⟨q', t, hmoves, htakes, rfl⟩ := h
  show t.step ≤ params.maxStep
  rw [htakes.tried.1]
  exact (within_of_moves hmoves hq).step_le

/-! ## A whole search -/

/-- **What a strong Wolfe search accepts**: a slope that is flat enough, or the longest step. -/
theorem search_accepts {Q : Cache K → Prop} {point gradient direction : Vec K} {value : K}
    {w w' : Workspace K σ} {a : Accepted K} (hv : params.validate = .ok ()) (hp : p.Pure Q)
    (hw : Q w.cache) (h : search p params point value gradient direction w = (.ok a, w')) :
    p.manifold.retract point (Vec.scale direction a.step) = .ok a.point ∧
      (∀ w₁, (p.evaluate a.point w₁).1 = .ok (a.value, a.gradient)) ∧
      ∃ slope moved d, p.manifold.inner point gradient direction = .ok slope ∧ slope < 0 ∧
        (∀ c, Q c → (p.manifold.differential point (Vec.scale direction a.step) a.point direction
          true c).1 = .ok moved) ∧
        p.manifold.inner a.point a.gradient moved = .ok d ∧
        (|d| ≤ params.c2 * |slope| ∨ a.step = params.maxStep ∧ d < 0) := by
  have hvalid := SearchParams.valid_of_validate hv
  have hkind : SearchKind.strongWolfe.search p params point value gradient direction w =
      (.ok a, w') := h
  obtain ⟨reached, _, _, evaluated⟩ := SearchKind.search_reaches hkind
  obtain ⟨slope, d, hslope, hdown, ⟨moved, c, c', hc, hmoved, hd⟩, hwhy⟩ :=
    search_curvature hp.partsKeep hw h
  refine ⟨reached, Problem.evaluate_steady hp.objective hp.manifold evaluated, slope, moved, d,
    hslope, not_le.1 hdown, fun c₁ hc₁ => ?_, hd, ?_⟩
  · rw [hp.differential _ _ _ _ c₁ c hc₁ hc, hmoved]
  · obtain ⟨flat, -⟩ | ⟨-, downhill, longest, -⟩ := hwhy
    · left
      rw [abs_of_neg (not_le.1 hdown), mul_neg, ← neg_mul]
      exact flat
    · right
      obtain ⟨_, -, -, hfound⟩ := search_eq_ok h
      have hle := hfound.step_le (Position.within_start hvalid value)
      exact ⟨le_antisymm hle longest, not_le.1 downhill⟩

/-- From one towards the bottom of the bowl the search takes a step that is nearly flat, far below
the longest. -/
theorem search_accepts_lineBowl : ∃ a w' slope d,
    search Backtracking.lineBowl .strongWolfe [1] (1 / 2) [1] [-3] { objective := () } =
        (.ok a, w') ∧ a.step = 5 / 16 ∧
      Backtracking.lineBowl.manifold.inner [1] [1] [-3] = .ok slope ∧
      |d| ≤ SearchParams.strongWolfe.c2 * |slope| := by
  have hvalid : (SearchParams.strongWolfe : SearchParams ℚ).validate = .ok () :=
    eq_ok_of_yields (by decide +kernel)
  have hpure : Backtracking.lineBowl.Pure fun _ => True :=
    Problem.pure_flat ⟨1⟩ (Quadratic.simple 1).objective_steady
  obtain ⟨a, w', hfound, hstep⟩ := exists_of_yields
    (x := search Backtracking.lineBowl .strongWolfe [1] (1 / 2) [1] [-3] { objective := () })
    (P := fun a => a.step = 5 / 16) (by decide +kernel)
  obtain ⟨-, -, slope, moved, d, hslope, -, -, -, hflat⟩ :=
    search_accepts hvalid hpure trivial hfound
  have hshort : ¬ a.step = SearchParams.strongWolfe.maxStep := by
    rw [hstep]
    decide +kernel
  exact ⟨a, w', slope, d, hfound, hstep, hslope, hflat.resolve_right fun h => hshort h.1⟩

end GeodesicDescent.StrongWolfe
