import GeodesicDescent.Manifold.Flat
import GeodesicDescent.Proofs.Floating
import GeodesicDescent.Proofs.LineSearch.BacktrackingRuns
import GeodesicDescent.Proofs.LineSearch.WolfeRuns
import GeodesicDescent.Solver.Run

/-!
# Sufficient decrease

A step that a search takes has passed its test of the decrease. Backtracking asks for a value that
is low enough, the strong Wolfe search only for one that is not too high: on numbers these are the
same test, but a value that is not a number passes the second.

* `Backtracking.Takes.low_enough`, `StrongWolfe.Succeeds.not_insufficient`: the test that each
  search makes;
* `SearchKind.search_reaches`: where an accepted step leads, and what was evaluated there;
* **`SearchKind.search_low_enough`**: on accepted steps the value is low enough exactly if it and
  its bound are numbers, and always after backtracking;
* `SearchKind.wolfe_accepts_no_number`: a step whose value is not a number is accepted.
-/

namespace GeodesicDescent

open Stateful Relation

variable {K σ : Type} [Scalar K] {p : Problem K σ} {params : SearchParams K}
variable {point gradient direction : Vec K} {value : K} {w w' : Workspace K σ} {a : Accepted K}

/-- The test of the decrease: the value after a step reaches a share of the predicted decrease. -/
def SearchParams.LowEnough (params : SearchParams K) (value slope step newValue : K) : Prop :=
  newValue ≤ value + params.c1 * step * slope

instance SearchParams.LowEnough.decidable (params : SearchParams K)
    (value slope step newValue : K) :
    Decidable (params.LowEnough value slope step newValue) :=
  inferInstanceAs (Decidable (_ ≤ _))

namespace Backtracking

variable {φ : Vec K → K} {slope : K} {q : K × Workspace K σ}

/-- The value that is tested is the one that is returned, though it is evaluated twice. -/
theorem Takes.low_enough (hf : p.objective.HasValues φ)
    (h : Takes p params point value slope direction q a w') :
    params.LowEnough value slope a.step a.value := by
  obtain ⟨⟨-, o, tested, -⟩, low, evaluated, rfl⟩ := h
  have same : a.value = φ a.point := Problem.evaluate_value hf evaluated
  rw [hf.eval tested, ← same] at low
  exact low

end Backtracking

namespace StrongWolfe

variable {ray : Ray K} {q : Position K × Workspace K σ}

theorem Succeeds.not_insufficient (h : Succeeds p params ray q a w') :
    ¬ insufficient params ray a.step a.value := by
  obtain ⟨q', t, -, taken, rfl⟩ := h
  exact taken.tried.2.2

end StrongWolfe

/-! ## Both searches -/

/-- **An accepted step is where value and gradient were evaluated last.** -/
theorem SearchKind.search_reaches {kind : SearchKind}
    (h : kind.search p params point value gradient direction w = (.ok a, w')) :
    p.manifold.retract point (Vec.scale direction a.step) = .ok a.point ∧
      ∃ w₁ w₂, p.evaluate a.point w₁ = (.ok (a.value, a.gradient), w₂) := by
  cases kind with
  | armijo =>
    obtain ⟨slope, -, -, q, -, taken⟩ := Backtracking.search_eq_ok h
    obtain ⟨⟨reached, -⟩, -, evaluated, rfl⟩ := taken
    exact ⟨reached, _, _, evaluated⟩
  | strongWolfe =>
    obtain ⟨slope, -, -, q, t, -, taken, rfl⟩ := StrongWolfe.search_eq_ok h
    obtain ⟨-, ⟨w₁, tried⟩, -⟩ := taken.tried
    obtain ⟨_, _, reached, evaluated, -⟩ := StrongWolfe.tryStep_eq_ok.1 tried
    exact ⟨(Problem.trialPoint_eq_ok.1 reached).1, _, _, evaluated⟩

theorem SearchKind.search_value_eq {kind : SearchKind} {φ : Vec K → K}
    (hf : p.objective.HasValues φ)
    (h : kind.search p params point value gradient direction w = (.ok a, w')) :
    a.value = φ a.point := by
  obtain ⟨-, _, _, evaluated⟩ := search_reaches h
  exact Problem.evaluate_value hf evaluated

/-- **The value after a strong Wolfe step is low enough exactly if it and its bound are numbers**;
after backtracking it always is. -/
theorem SearchKind.search_low_enough [FloatingOrder K] {kind : SearchKind} {φ : Vec K → K}
    (hf : p.objective.HasValues φ)
    (h : kind.search p params point value gradient direction w = (.ok a, w')) :
    ∃ slope, p.manifold.inner point gradient direction = .ok slope ∧
      (params.LowEnough value slope a.step a.value ↔ kind = .armijo ∨
        IsNumber a.value ∧ IsNumber (value + params.c1 * a.step * slope)) := by
  cases kind with
  | armijo =>
    obtain ⟨slope, hslope, -, q, -, taken⟩ := Backtracking.search_eq_ok h
    exact ⟨slope, hslope, iff_of_true (taken.low_enough hf) (.inl rfl)⟩
  | strongWolfe =>
    obtain ⟨slope, hslope, -, found⟩ := StrongWolfe.search_eq_ok h
    refine ⟨slope, hslope, ?_⟩
    rw [SearchParams.LowEnough, FloatingOrder.le_iff]
    constructor
    · rintro ⟨hvalue, hbound, -⟩
      exact .inr ⟨hvalue, hbound⟩
    · rintro (h | ⟨hvalue, hbound⟩)
      · exact nomatch h
      · exact ⟨hvalue, hbound, found.not_insufficient⟩

/-! ## A step to nowhere -/

/-- The function `5·10²⁹⁹x² - 10³⁰⁵x`, whose terms overflow at `10⁵`. -/
def steepBowl : Quadratic Float := ⟨⟨1, [[1e300]], by decide⟩, [-1e305], 0⟩

/-- The steep bowl on the line. -/
def steepBowlProblem : Problem Float Unit :=
  { objective := steepBowl.objective, manifold := Flat.manifold ⟨1⟩, usage := .firstOrder }

/-- A first step, a longest step, and one trial. -/
def oneTrial (first longest : Float) : SearchParams Float :=
  { initialStep := first, maxStep := longest, maxIterations := 1, c2 := 0.1 }

/-- The strong Wolfe search from zero. -/
def steepBowlSearch (params : SearchParams Float) : Searching Float Unit (Accepted Float) :=
  SearchKind.strongWolfe.search steepBowlProblem params [0] 0 [-1e305] [1]

theorem SearchKind.search_low_enough_steepBowl :
    ∃ a w', steepBowlSearch (oneTrial 1 1) { objective := () } = (.ok a, w') ∧
      ∃ slope, steepBowlProblem.manifold.inner [0] [-1e305] [1] = .ok slope ∧
        ((oneTrial 1 1).LowEnough 0 slope a.step a.value ↔ SearchKind.strongWolfe = .armijo ∨
          IsNumber a.value ∧ IsNumber (0 + (oneTrial 1 1).c1 * a.step * slope)) := by
  obtain ⟨a, w', found, -⟩ := exists_of_yields
    (x := steepBowlSearch (oneTrial 1 1) { objective := () })
    (P := fun a => (oneTrial 1 1).LowEnough 0 (-1e305) a.step a.value) (by decide +kernel)
  exact ⟨a, w', found, SearchKind.search_low_enough steepBowl.objective_hasValues found⟩

/-- **The strong Wolfe search accepts a value that is not a number**, the difference of two
infinities. -/
theorem SearchKind.wolfe_accepts_no_number :
    steepBowlProblem.objective.HasValues steepBowl.valueAt ∧
      (oneTrial 1e5 1e6).validate = .ok () ∧
      steepBowlProblem.manifold.inner [0] [-1e305] [1] = .ok (-1e305) ∧
      ∃ a w', steepBowlSearch (oneTrial 1e5 1e6) { objective := () } = (.ok a, w') ∧
        ¬ IsNumber a.value ∧ ¬ (oneTrial 1e5 1e6).LowEnough 0 (-1e305) a.step a.value := by
  refine ⟨steepBowl.objective_hasValues, ?_, ?_, ?_⟩
  · exact eq_ok_of_yields (by decide +kernel)
  · exact eq_ok_of_yields (by decide +kernel)
  · exact exists_of_yields (by decide +kernel)

end GeodesicDescent
