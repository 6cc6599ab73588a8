import GeodesicDescent.LineSearch.Params
import GeodesicDescent.Proofs.Floating
import GeodesicDescent.Proofs.Stateful

/-!
# What the checks of the parameters show

The checks of the parameters of a search refuse whatever a comparison shows to be out of range.
Among numbers this leaves what is in range. With a parameter that is not a number no comparison
holds, so that the checks let it pass.

* `SearchParams.InRange`, `SearchParams.Numbers`: the ranges of the parameters, and that each of
  them is a number;
* `validate_of_inRange`, `inRange_of_validate`: what is in range passes, and numbers that pass are
  in range;
* **`checked_inRange`**: the parameters in range are the numbers that pass, whichever search is made
  with them;
* `checked_admits_no_number`: parameters that pass and are not in range.
-/

namespace GeodesicDescent.SearchParams

open Stateful

variable {K : Type} [Scalar K]

/-- The ranges of the parameters, by comparisons that hold. -/
structure InRange (params : SearchParams K) : Prop where
  initialStep_pos : 0 < params.initialStep
  minStep_pos : 0 < params.minStep
  minStep_lt : params.minStep < params.maxStep
  c1_pos : 0 < params.c1
  c1_lt_c2 : params.c1 < params.c2
  c2_lt_one : params.c2 < 1
  rho_pos : 0 < params.rho
  rho_lt_one : params.rho < 1
  one_le_maxIterations : 1 ≤ params.maxIterations

/-- Every parameter is a number. -/
structure Numbers (params : SearchParams K) : Prop where
  initialStep : IsNumber params.initialStep
  maxStep : IsNumber params.maxStep
  minStep : IsNumber params.minStep
  c1 : IsNumber params.c1
  c2 : IsNumber params.c2
  rho : IsNumber params.rho

theorem checked_eq_ok {params built : SearchParams K} :
    params.checked = .ok built ↔ params.validate = .ok () ∧ built = params := by
  rw [checked, checked_bind_eq_ok]
  constructor
  · rintro ⟨_, hv, h⟩
    cases h
    exact ⟨hv, rfl⟩
  · rintro ⟨hv, rfl⟩
    exact ⟨(), hv, rfl⟩

theorem maxIterations_pos {params : SearchParams K} (h : params.validate = .ok ()) :
    0 < params.maxIterations := by
  unfold validate at h
  split_ifs at h with _ _ _ _ _ _ hzero
  exact Nat.pos_of_ne_zero hzero

variable [FloatingComparison K] {params : SearchParams K}

theorem InRange.numbers (h : params.InRange) : params.Numbers where
  initialStep := (FloatingComparison.isNumber_of_lt h.initialStep_pos).2
  maxStep := (FloatingComparison.isNumber_of_lt h.minStep_lt).2
  minStep := (FloatingComparison.isNumber_of_lt h.minStep_lt).1
  c1 := (FloatingComparison.isNumber_of_lt h.c1_lt_c2).1
  c2 := (FloatingComparison.isNumber_of_lt h.c1_lt_c2).2
  rho := (FloatingComparison.isNumber_of_lt h.rho_lt_one).1

theorem validate_of_inRange (h : params.InRange) : params.validate = .ok () := by
  have below {a b : K} (hlt : a < b) : ¬ b ≤ a := (lt_iff_isNumber.1 hlt).2.2
  have hc1 : params.c1 < 1 := FloatingComparison.lt_trans h.c1_lt_c2 h.c2_lt_one
  unfold validate
  rw [if_neg (below h.initialStep_pos), if_neg (below h.minStep_pos), if_neg (below h.minStep_lt),
    if_neg (not_or.2 ⟨below h.c1_pos, below hc1⟩),
    if_neg (not_or.2 ⟨below h.c1_lt_c2, below h.c2_lt_one⟩),
    if_neg (not_or.2 ⟨below h.rho_pos, below h.rho_lt_one⟩),
    if_neg (Nat.one_le_iff_ne_zero.1 h.one_le_maxIterations)]

theorem inRange_of_validate (hv : params.validate = .ok ()) (hn : params.Numbers) :
    params.InRange := by
  have hlt : (0 : K) < 1 := FloatingComparison.zero_lt_one
  obtain ⟨hzero, hone⟩ := FloatingComparison.isNumber_of_lt hlt
  unfold validate at hv
  split_ifs at hv with h₁ h₂ h₃ h₄ h₅ h₆ h₇
  rw [not_or] at h₄ h₅ h₆
  exact {
    initialStep_pos := lt_iff_isNumber.2 ⟨hzero, hn.initialStep, h₁⟩
    minStep_pos := lt_iff_isNumber.2 ⟨hzero, hn.minStep, h₂⟩
    minStep_lt := lt_iff_isNumber.2 ⟨hn.minStep, hn.maxStep, h₃⟩
    c1_pos := lt_iff_isNumber.2 ⟨hzero, hn.c1, h₄.1⟩
    c1_lt_c2 := lt_iff_isNumber.2 ⟨hn.c1, hn.c2, h₅.1⟩
    c2_lt_one := lt_iff_isNumber.2 ⟨hn.c2, hone, h₅.2⟩
    rho_pos := lt_iff_isNumber.2 ⟨hzero, hn.rho, h₆.1⟩
    rho_lt_one := lt_iff_isNumber.2 ⟨hn.rho, hone, h₆.2⟩
    one_le_maxIterations := Nat.one_le_iff_ne_zero.2 h₇ }

/-- **The parameters in range are the numbers that pass the checks**, and these are the ones that a
search is made with. -/
theorem checked_inRange (params : SearchParams K) :
    (params.InRange ↔ params.validate = .ok () ∧ params.Numbers) ∧
      ∀ built, params.checked = .ok built ↔ params.validate = .ok () ∧ built = params :=
  ⟨⟨fun h => ⟨validate_of_inRange h, h.numbers⟩, fun h => inRange_of_validate h.1 h.2⟩,
    fun _ => checked_eq_ok⟩

/-- The usual parameters without a longest step, and with a first step of any length. -/
def boundless : SearchParams Float :=
  { strongWolfe with initialStep := 1.0 / 0.0, maxStep := 1.0 / 0.0 }

theorem checked_inRange_boundless : boundless.InRange ∧ boundless.checked = .ok boundless := by
  have hv : boundless.validate = .ok () := eq_ok_of_yields (by decide +kernel)
  have hn : boundless.Numbers := by constructor <;> decide +kernel
  obtain ⟨hrange, hbuilt⟩ := checked_inRange boundless
  exact ⟨hrange.2 ⟨hv, hn⟩, (hbuilt boundless).2 ⟨hv, rfl⟩⟩

/-- The usual parameters, with no number as the share of the decrease that a step must reach. -/
def shareless : SearchParams Float := { strongWolfe with c1 := 0.0 / 0.0 }

/-- **Parameters that are not numbers pass the checks**, though they are in no range. -/
theorem checked_admits_no_number :
    shareless.validate = .ok () ∧ shareless.checked = .ok shareless ∧
      ¬ 0 < shareless.c1 ∧ ¬ shareless.c1 < shareless.c2 ∧ ¬ shareless.InRange := by
  have hv : shareless.validate = .ok () := eq_ok_of_yields (by decide +kernel)
  have hpos : ¬ 0 < shareless.c1 := by decide +kernel
  exact ⟨hv, checked_eq_ok.2 ⟨hv, rfl⟩, hpos, by decide +kernel, fun h => hpos h.c1_pos⟩

end GeodesicDescent.SearchParams
