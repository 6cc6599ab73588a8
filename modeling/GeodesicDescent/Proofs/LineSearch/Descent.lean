import GeodesicDescent.Proofs.Exact
import GeodesicDescent.Proofs.LineSearch.Decrease

/-!
# Descent along one search

Over an ordered field, where every scalar is a number, a search whose parameters are valid goes
forward and downhill.

* `SearchParams.Valid`: what the checks of the parameters show;
* `StrongWolfe.Position.Forward`: every step tried is positive, though one end of a bracket may be
  the start;
* **`SearchKind.search_descends`**: the step is positive, and the value falls by at least its share
  of the predicted decrease.
-/

namespace GeodesicDescent

open Relation

variable {K σ : Type} [Field K] [LinearOrder K] [Elementary K] [Tolerances K]
variable {p : Problem K σ} {params : SearchParams K}

/-! ## Valid parameters -/

/-- What the checks of the parameters of a search show. -/
structure SearchParams.Valid (params : SearchParams K) : Prop where
  initialStep_pos : 0 < params.initialStep
  minStep_pos : 0 < params.minStep
  minStep_lt : params.minStep < params.maxStep
  c1_pos : 0 < params.c1
  c1_lt_c2 : params.c1 < params.c2
  c2_lt_one : params.c2 < 1
  rho_pos : 0 < params.rho
  rho_lt_one : params.rho < 1
  maxIterations_pos : 0 < params.maxIterations

theorem SearchParams.valid_of_validate (h : params.validate = .ok ()) : params.Valid := by
  unfold validate at h
  split_ifs at h with h₁ h₂ h₃ h₄ h₅ h₆ h₇
  simp only [not_or, not_le] at h₁ h₂ h₃ h₄ h₅ h₆
  exact ⟨h₁, h₂, h₃, h₄.1, h₅.1, h₅.2, h₆.1, h₆.2, Nat.pos_of_ne_zero h₇⟩

theorem SearchParams.firstStep_eq (params : SearchParams K) :
    params.firstStep = min params.initialStep params.maxStep := scalar_min_eq _ _

namespace SearchParams.Valid

variable (h : params.Valid)
include h

theorem maxStep_pos : 0 < params.maxStep := h.minStep_pos.trans h.minStep_lt

theorem firstStep_pos : 0 < params.firstStep := by
  rw [firstStep_eq]
  exact lt_min h.initialStep_pos h.maxStep_pos

end SearchParams.Valid

variable [IsStrictOrderedRing K]

/-! ## Positive steps -/

namespace StrongWolfe

variable {ray : Ray K} {q q' : Position K × Workspace K σ} {t : Trial K} {w' : Workspace K σ}

/-- The step tried is positive, the one before it or both ends of the bracket not negative. -/
def Position.Forward : Position K → Prop
  | .doubling _ previous _ step => 0 ≤ previous ∧ 0 < step
  | .halving b => 0 ≤ b.low ∧ 0 ≤ b.high

theorem Bracket.middle_eq (b : Bracket K) : b.middle = (b.low + b.high) / 2 := by
  rw [Bracket.middle, scientific_two]

theorem Bracket.middle_pos {b : Bracket K} (hv : params.Valid) (hlow : 0 ≤ b.low)
    (hhigh : 0 ≤ b.high) (wide : ¬ Scalar.abs (b.high - b.low) < params.minStep) :
    0 < b.middle := by
  have hne : b.high - b.low ≠ 0 := by
    intro h
    refine wide ?_
    show |b.high - b.low| < params.minStep
    rw [h, abs_zero]
    exact hv.minStep_pos
  have hsum : 0 < b.low + b.high := by
    rcases hlow.lt_or_eq with h | h
    · exact add_pos_of_pos_of_nonneg h hhigh
    · rw [← h, sub_zero] at hne
      exact add_pos_of_nonneg_of_pos hlow (lt_of_le_of_ne hhigh hne.symm)
  rw [b.middle_eq]
  exact half_pos hsum

theorem Moves.forward (hv : params.Valid) (h : Moves p params ray q q') (hq : q.1.Forward) :
    q'.1.Forward := by
  cases h with
  | longer h =>
    cases h with
    | onwards tried =>
      rw [Position.Forward, tryStep_step tried, scalar_min_eq, scientific_two]
      exact ⟨hq.2.le, lt_min (mul_pos hq.2 two_pos) hv.maxStep_pos⟩
  | bracketed h =>
    cases h with
    | high => exact ⟨hq.1, hq.2.le⟩
    | uphill => exact ⟨hq.2.le, hq.1⟩
  | half wide h =>
    have hmiddle := (Bracket.middle_pos hv hq.1 hq.2 wide).le
    cases h with
    | high => exact ⟨hq.1, hmiddle⟩
    | steep =>
      refine ⟨hmiddle, ?_⟩
      dsimp only
      split_ifs
      · exact hq.1
      · exact hq.2

theorem Takes.step_pos (hv : params.Valid) (h : Takes p params ray q t w') (hq : q.1.Forward) :
    0 < t.step := by
  rw [h.tried.1]
  cases h with
  | doubled => exact hq.2
  | halved wide => exact Bracket.middle_pos hv hq.1 hq.2 wide

theorem forward_of_moves (hv : params.Valid) (h : ReflTransGen (Moves p params ray) q q')
    (hq : q.1.Forward) : q'.1.Forward := by
  induction h with
  | refl => exact hq
  | tail _ hmove ih => exact hmove.forward hv ih

theorem Succeeds.step_pos {a : Accepted K} (hv : params.Valid)
    (h : Succeeds p params ray q a w') (hq : q.1.Forward) : 0 < a.step := by
  obtain ⟨q', t, hmoves, htakes, rfl⟩ := h
  exact htakes.step_pos hv (forward_of_moves hv hmoves hq)

end StrongWolfe

namespace Backtracking

variable {point direction : Vec K} {value slope : K} {q q' : K × Workspace K σ}

theorem pos_of_shortens (hv : params.Valid)
    (h : ReflTransGen (Shortens p params point value slope direction) q q') (hq : 0 < q.1) :
    0 < q'.1 := by
  induction h with
  | refl => exact hq
  | tail _ hshorten ih =>
    cases hshorten
    exact mul_pos ih hv.rho_pos

omit [IsStrictOrderedRing K] in
theorem Takes.step_pos {a : Accepted K} {w' : Workspace K σ}
    (h : Takes p params point value slope direction q a w') (hq : 0 < q.1) : 0 < a.step := by
  obtain ⟨-, -, -, rfl⟩ := h
  exact hq

end Backtracking

/-! ## Descent -/

/-- **A search goes forward and downhill.** -/
theorem SearchKind.search_descends {kind : SearchKind} {φ : Vec K → K}
    {point gradient direction : Vec K} {value : K} {w w' : Workspace K σ} {a : Accepted K}
    (hf : p.objective.HasValues φ) (hv : params.Valid)
    (h : kind.search p params point value gradient direction w = (.ok a, w')) :
    0 < a.step ∧ ∃ slope, p.manifold.inner point gradient direction = .ok slope ∧
      a.value = φ a.point ∧ a.value ≤ value + params.c1 * a.step * slope ∧
      value + params.c1 * a.step * slope < value := by
  have falls {slope : K} (hdown : ¬ 0 ≤ slope) (hstep : 0 < a.step) :
      value + params.c1 * a.step * slope < value :=
    add_lt_of_neg_right value (mul_neg_of_pos_of_neg (mul_pos hv.c1_pos hstep) (not_le.1 hdown))
  have hvalue := search_value_eq hf h
  cases kind with
  | armijo =>
    obtain ⟨slope, hslope, hdown, q, hshorten, htake⟩ := Backtracking.search_eq_ok h
    have hstep := htake.step_pos (Backtracking.pos_of_shortens hv hshorten hv.firstStep_pos)
    exact ⟨hstep, slope, hslope, hvalue, htake.low_enough hf, falls hdown hstep⟩
  | strongWolfe =>
    obtain ⟨slope, hslope, hdown, hfound⟩ := StrongWolfe.search_eq_ok h
    have hstep := hfound.step_pos hv ⟨le_refl 0, hv.firstStep_pos⟩
    exact ⟨hstep, slope, hslope, hvalue, not_lt.1 hfound.not_insufficient, falls hdown hstep⟩

end GeodesicDescent
