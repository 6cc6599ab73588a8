import GeodesicDescent.Proofs.Direction.Downhill

/-!
# The recurrence of the directions

Whatever the manifold, the rule prepares the carried direction times its weight, less the gradient
at the next point. This also holds where the weight is reset to zero and the rule keeps the change
of the gradient in place of the carried direction. Three formulas say more: one keeps its weight
within the ratio of the squared gradients, one does not let it fall below zero after a strong Wolfe
search, and one makes the new direction conjugate to the last.

* `CGMethod.denominator`: what a formula divides by;
* `CGMethod.abs_weight_frPr_le`, `CGMethod.weight_polakRibiereMod_nonneg`,
  `CGMethod.weight_hestenesStiefel_mul`: the three formulas;
* `Finds.conjugate`: the direction of Hestenes and Stiefel;
* **`learn_recurs`**: what is prepared on any manifold.
-/

namespace GeodesicDescent

open Stateful

variable {K : Type} [Field K] [LinearOrder K]

namespace CGMethod

variable {p : Products K} {lineSearch : SearchKind}

/-- What the formula of a method divides by. -/
def denominator (p : Products K) : CGMethod → K
  | fletcherReeves | polakRibiereMod | frPr => p.before
  | hestenesStiefel | daiYuan | hagerZhang => p.across

theorem weight_polakRibiereMod_nonneg (h : lineSearch = .strongWolfe) :
    0 ≤ polakRibiereMod.weight lineSearch p := by
  by_cases hreset : lineSearch = .strongWolfe ∧ p.along / p.before ≤ 0
  · exact (weight_of_resets ⟨rfl, hreset⟩).ge
  · rw [weight, if_neg hreset]
    exact (not_le.1 fun hle => hreset ⟨h, hle⟩).le

theorem weight_hestenesStiefel_mul (h : p.across ≠ 0) :
    hestenesStiefel.weight lineSearch p * p.across = p.along := div_mul_cancel₀ _ h

theorem abs_weight_frPr_le [IsStrictOrderedRing K] (hbefore : 0 ≤ p.before)
    (hafter : 0 ≤ p.after) : |frPr.weight lineSearch p| ≤ p.after / p.before :=
  calc |frPr.weight lineSearch p| ≤ |p.after / p.before| := ConjugateGradient.abs_clamp_le _ _
    _ = p.after / p.before := abs_of_nonneg (div_nonneg hafter hbefore)

end CGMethod

variable [IsStrictOrderedRing K] [Elementary K] [Tolerances K]

theorem Sphere.exists_carried {s : Sphere} {x y : Vec K} (h : s.Apart x y) : ∃ T : Vec K → Vec K,
    ∀ v, v.length = s.samples → (T v).length = s.samples ∧ Answers (s.transport x y v) (T v) := by
  obtain ⟨axis, haxis, hreflects⟩ := h.reflects
  have hcarried (v : Vec K) : ∃ image : Vec K, v.length = s.samples →
      image.length = s.samples ∧ Answers (s.transport x y v) image := by
    by_cases hv : v.length = s.samples
    · obtain ⟨image, hanswer, hcombines⟩ := Sphere.answers_transport haxis hreflects hv
      exact ⟨image, fun _ => ⟨hcombines.length_left.trans hv, hanswer⟩⟩
    · exact ⟨[], fun h => absurd h hv⟩
  choose T hT using hcarried
  exact ⟨T, hT⟩

namespace ConjugateGradient

variable {M : Manifold K} {it : Iterate K} {h : Heading K (ConjugateGradient K)}
variable {d zeta image next : Vec K} {P : Cache K → Prop} {n : Nat}
variable {form nextForm : Vec K → Vec K → K} {before : K}

omit [IsStrictOrderedRing K] in
/-- **The direction of Hestenes and Stiefel is conjugate to the last.** -/
theorem Finds.conjugate (hf : Finds M it d P n form before zeta image)
    (hne : (products form before it zeta image).across ≠ 0)
    (hd : Vec.Combines (CGMethod.hestenesStiefel.weight it.lineSearch
      (products form before it zeta image)) zeta (-1) it.nextGradient next) :
    M.inner it.nextPoint next (gradientChangeFrom it image) = .ok 0 := by
  set p := products form before it zeta image
  have hacross : form zeta (gradientChangeFrom it image) = p.across := rfl
  have halong : form it.nextGradient (gradientChangeFrom it image) = p.along :=
    hf.hasForm.comm _ _
  rw [hf.hasForm.inner_eq (hd.length_left.trans hf.length_zeta) hf.length_change,
    hf.hasForm.combines hd, hacross, halong, CGMethod.weight_hestenesStiefel_mul hne]
  ring_nf

/-- **What is prepared on any manifold** with forms at both points, by any transport. -/
theorem learn_recurs {T : Vec K → Vec K} (hx : M.HasForm it.point n form)
    (hy : M.HasForm it.nextPoint n nextForm)
    (hT : ∀ v, v.length = n → (T v).length = n ∧
      Gives P (M.transport it.point it.displacement it.nextPoint v) (T v))
    (hc : P h.cache) (hgoes : h.rule.config.restartsAt it.iteration = false)
    (hdirection : h.direction.length = n) (hgradient : it.gradient.length = n)
    (hnext : it.nextGradient.length = n)
    (hne : h.rule.config.method.denominator (products nextForm (form it.gradient it.gradient) it
      (T h.direction) (T it.gradient)) ≠ 0) :
    ∃ h' change, learn M it h = (.ok (), h') ∧
      Vec.sub it.nextGradient (T it.gradient) = .ok change ∧
      Vec.axpy h'.rule.sigma (T h.direction) (-1) it.nextGradient = .ok h'.direction ∧
      (h'.rule.zeta = T h.direction ∨ h'.rule.sigma = 0 ∧ h'.rule.zeta = change) ∧
      (h.rule.config.method = .polakRibiereMod → it.lineSearch = .strongWolfe →
        0 ≤ h'.rule.sigma ∧ (nextForm change it.nextGradient ≤ 0 →
          h'.rule.sigma = 0 ∧ h'.rule.zeta = change)) ∧
      (h.rule.config.method = .frPr → |h'.rule.sigma| ≤
        nextForm it.nextGradient it.nextGradient / form it.gradient it.gradient) ∧
      (h.rule.config.method = .hestenesStiefel →
        M.inner it.nextPoint h'.direction change = .ok 0) := by
  have hf : Finds M it h.direction P n nextForm (form it.gradient it.gradient) (T h.direction)
      (T it.gradient) := {
    hasForm := hy
    before_eq := hx.inner_eq hgradient hgradient
    direction_carried := (hT _ hdirection).2
    gradient_carried := (hT _ hgradient).2
    length_direction := hdirection
    length_gradient := hnext
    length_zeta := (hT _ hdirection).1
    length_image := (hT _ hgradient).1 }
  set p := products nextForm (form it.gradient it.gradient) it (T h.direction) (T it.gradient)
  have hbefore : 0 ≤ p.before := hx.self_nonneg _
  have hafter : 0 ≤ p.after := hy.self_nonneg _
  obtain ⟨h', hlearn, hsigma, hd, hkept⟩ := hf.learn_keeping hc hgoes
  obtain ⟨d, haxpy, hd'⟩ := Vec.exists_axpy h'.rule.sigma (-1)
    (hf.length_zeta.trans hf.length_gradient.symm)
  refine ⟨h', gradientChangeFrom it (T it.gradient), hlearn, hf.change_eq, ?_, ?_,
    fun hmethod hwolfe => ⟨?_, fun hdown => ?_⟩, fun hmethod => ?_, fun hmethod => ?_⟩
  · rw [haxpy, hd'.unique hd]
  · obtain ⟨-, hzeta⟩ | ⟨hreset, hzeta⟩ := hkept
    · exact .inl hzeta
    · exact .inr ⟨hsigma.trans (CGMethod.weight_of_resets hreset), hzeta⟩
  · rw [hsigma, hmethod]
    exact CGMethod.weight_polakRibiereMod_nonneg hwolfe
  · have hreset : h.rule.config.method.Resets it.lineSearch p :=
      ⟨hmethod, hwolfe, div_nonpos_of_nonpos_of_nonneg hdown hbefore⟩
    obtain ⟨hgoes, -⟩ | ⟨-, hzeta⟩ := hkept
    · exact absurd hreset hgoes
    · exact ⟨hsigma.trans (CGMethod.weight_of_resets hreset), hzeta⟩
  · rw [hsigma, hmethod]
    exact CGMethod.abs_weight_frPr_le hbefore hafter
  · rw [hsigma, hmethod] at hd
    rw [hmethod] at hne
    exact hf.conjugate hne hd

/-! ## A step with a reset -/

/-- The quarter turn, after which the gradient has turned against its change. -/
def returnStep : Iterate ℚ := { turnStep with nextGradient := [-1 / 2, -1 / 2] }

/-- The direction arrives as `(1, 1)`, and the gradient changes by `(1/2, 1/2)`. -/
theorem learn_recurs_return : ∃ carried change : Vec ℚ, carried = [1, 1] ∧ change = [1 / 2, 1 / 2] ∧
    ∀ method, ∃ h', learn Sphere.segment.manifold returnStep (turnHeading method) = (.ok (), h') ∧
      Vec.axpy h'.rule.sigma carried (-1) returnStep.nextGradient = .ok h'.direction ∧
      (method = .polakRibiereMod → h'.rule.sigma = 0 ∧ h'.rule.zeta = change) ∧
      (method = .frPr → |h'.rule.sigma| ≤ 1 / 4) ∧
      (method = .hestenesStiefel → Sphere.segment.inner h'.direction change = .ok 0) := by
  let S : Space := .sphere .segment
  have apart : Sphere.segment.Apart returnStep.point returnStep.nextPoint :=
    ⟨[2, 0], 2, eq_ok_of_yields (by decide +kernel), eq_ok_of_yields (by decide +kernel),
      by decide +kernel⟩
  obtain ⟨T, hT⟩ := Sphere.exists_carried apart
  have hdirection : T [-1, 1] = [1, 1] := (hT _ rfl).2.eq_of_yields (by decide +kernel)
  have hgradient : T [1, -1] = [-1, -1] := (hT _ rfl).2.eq_of_yields (by decide +kernel)
  refine ⟨[1, 1], [1 / 2, 1 / 2], rfl, rfl, fun method => ?_⟩
  have hne : method.denominator (products S.form (S.form returnStep.gradient returnStep.gradient)
      returnStep (T (turnHeading method).direction) (T returnStep.gradient)) ≠ 0 := by
    rw [show T (turnHeading method).direction = [1, 1] from hdirection,
      show T returnStep.gradient = [-1, -1] from hgradient]
    cases method <;> decide +kernel
  obtain ⟨h', change, hlearn, hchange, hd, -, hreset, hbound, hconjugate⟩ :=
    learn_recurs (h := turnHeading method) (S.hasForm _) (S.hasForm _) hT Cache.faithful_empty
      (by cases method <;> decide +kernel) rfl rfl rfl hne
  obtain rfl : change = [1 / 2, 1 / 2] := by
    rw [show T returnStep.gradient = [-1, -1] from hgradient] at hchange
    exact Except.ok.inj (hchange.symm.trans (eq_ok_of_yields (by decide +kernel)))
  refine ⟨h', hlearn, hdirection ▸ hd, fun hmethod => ?_, fun hmethod => ?_, hconjugate⟩
  · exact (hreset hmethod rfl).2 (by decide +kernel)
  · exact (hbound hmethod).trans (by decide +kernel)

end ConjugateGradient

end GeodesicDescent
