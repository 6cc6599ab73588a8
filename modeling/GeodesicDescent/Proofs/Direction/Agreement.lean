import GeodesicDescent.Proofs.Direction.Carrying

/-!
# The formulas agree after an exact search

A search that is exact leaves nothing of the slope: the carried direction is orthogonal to the next
gradient. Where the carried gradient is orthogonal to it too, as on a quadratic, all six formulas
give the ratio of the squared gradients, and neither a reset nor a bound comes into play.

* `CGMethod.weight_eq_ratio`: the six formulas, at inner products of this kind;
* `Finds.exact_products`: the inner products after an exact search;
* **`learn_agrees`**: every method and either search prepare one direction.
-/

namespace GeodesicDescent

open Stateful

variable {K : Type} [Field K] [LinearOrder K] [IsStrictOrderedRing K]

/-- **The six formulas give the ratio of the squared gradients.** -/
theorem CGMethod.weight_eq_ratio {p : Products K} (lineSearch : SearchKind) (method : CGMethod)
    (hleft : p.left = 0) (halong : p.along = p.after) (hacross : p.across = p.before)
    (hbefore : 0 < p.before) (hafter : 0 < p.after) :
    method.weight lineSearch p = p.after / p.before := by
  have hratio : 0 < p.after / p.before := div_pos hafter hbefore
  cases method with
  | fletcherReeves => rfl
  | polakRibiereMod =>
    rw [weight, halong]
    exact if_neg fun h => not_le.2 hratio h.2
  | hestenesStiefel => simp [weight, halong, hacross]
  | frPr =>
    -- the ratio lies within its own bounds
    rw [weight, halong, if_neg, if_neg (lt_irrefl _)]
    exact not_lt.2 ((neg_neg_of_pos hratio).trans hratio).le
  | daiYuan => simp [weight, hacross]
  | hagerZhang => simp [weight, hleft, halong, hacross]

variable [Elementary K] [Tolerances K]

namespace ConjugateGradient

section

variable {M : Manifold K} {it : Iterate K} {d zeta image : Vec K} {P : Cache K → Prop} {n : Nat}
variable {form : Vec K → Vec K → K} {before : K}

omit [IsStrictOrderedRing K] in
theorem Finds.withLineSearch (hf : Finds M it d P n form before zeta image)
    (lineSearch : SearchKind) : Finds M { it with lineSearch } d P n form before zeta image where
  hasForm := hf.hasForm
  before_eq := hf.before_eq
  direction_carried := hf.direction_carried
  gradient_carried := hf.gradient_carried
  length_direction := hf.length_direction
  length_gradient := hf.length_gradient
  length_zeta := hf.length_zeta
  length_image := hf.length_image

omit [IsStrictOrderedRing K] in
/-- The inner products after an exact search, with the direction against the gradient. -/
theorem Finds.exact_products (hf : Finds M it d P n form before zeta image)
    (hzeta : form zeta it.nextGradient = 0) (himage : form image it.nextGradient = 0)
    (hslope : form zeta image = -before) : let p := products form before it zeta image
    p.left = 0 ∧ p.along = p.after ∧ p.across = p.before := by
  refine ⟨hzeta, ?_, ?_⟩
  · rw [hf.along_eq, himage, sub_zero]
  · rw [hf.across_eq, hslope, sub_neg_eq_add]
    show form zeta it.nextGradient + before = before
    rw [hzeta, zero_add]

end

variable {S : Space} {it : Iterate K} {h : Heading K (ConjugateGradient K)}

/-- **After an exact search every method prepares one direction, whatever search it was.** -/
theorem learn_agrees {before after : K} (hc : h.cache.Faithful) (hs : S.Supports it h.direction)
    (hgoes : h.rule.config.restartsAt it.iteration = false)
    (hgradient : ∃ t ∈ it.gradient, t ≠ 0) (hnext : ∃ t ∈ it.nextGradient, t ≠ 0)
    (hbefore : S.manifold.inner it.point it.gradient it.gradient = .ok before)
    (hafter : S.manifold.inner it.nextPoint it.nextGradient it.nextGradient = .ok after)
    (hslope : S.manifold.inner it.point h.direction it.gradient = .ok (-before)) :
    ∃ zeta image,
      Answers (S.manifold.transport it.point it.displacement it.nextPoint h.direction) zeta ∧
      Answers (S.manifold.transport it.point it.displacement it.nextPoint it.gradient) image ∧
      (S.manifold.inner it.nextPoint zeta it.nextGradient = .ok 0 →
        S.manifold.inner it.nextPoint image it.nextGradient = .ok 0 →
        ∃ d, ∀ method lineSearch, ∃ h', learn S.manifold { it with lineSearch }
            { h with rule.config.method := method } = (.ok (), h') ∧
          h'.rule.sigma = after / before ∧ h'.direction = d) := by
  obtain ⟨zeta, image, hf, hisometric⟩ := hs.finds
  obtain ⟨hlength, -, rfl⟩ := Space.inner_eq_ok.1 hbefore
  obtain ⟨hnlength, -, rfl⟩ := Space.inner_eq_ok.1 hafter
  rw [(Space.inner_eq_ok.1 hslope).2.2] at hisometric
  refine ⟨zeta, image, hf.direction_carried, hf.gradient_carried, fun hzeta himage => ?_⟩
  obtain ⟨hleft, halong, hacross⟩ := hf.exact_products (Space.inner_eq_ok.1 hzeta).2.2
    (Space.inner_eq_ok.1 himage).2.2 hisometric
  let ratio := S.form it.nextGradient it.nextGradient / S.form it.gradient it.gradient
  obtain ⟨d, -, hd⟩ := Vec.exists_axpy ratio (-1) (hf.length_zeta.trans hf.length_gradient.symm)
  refine ⟨d, fun method lineSearch => ?_⟩
  obtain ⟨h', hlearn, hsigma, hcombines⟩ := Finds.learn
    (h := { h with rule.config.method := method }) (hf.withLineSearch lineSearch) hc hgoes
  have hratio : h'.rule.sigma = ratio := hsigma.trans
    (CGMethod.weight_eq_ratio lineSearch method hleft halong hacross
      (Space.form_self_pos hlength hgradient) (Space.form_self_pos hnlength hnext))
  rw [hratio] at hcombines
  exact ⟨h', hlearn, hratio, hcombines.unique hd⟩

/-! ## An exact step -/

/-- The sphere of functions with four samples. -/
def fourSamples : Sphere := ⟨{ samples := 4 }, rfl⟩

/-- A step that is exact: both vectors are tangent at either point, and stay what they are. -/
def exactStep : Iterate ℚ where
  point := [1, 1, 1, 1]
  nextPoint := [1, -1, -1, 1]
  gradient := [1, 0, 0, -1]
  nextGradient := [2, 1, 1, 2]
  displacement := [-1, 1, -1, 1]
  value := 1
  nextValue := 0
  iteration := 1
  step := 1
  lineSearch := .armijo

/-- The heading of that step. -/
def exactHeading : Heading ℚ (ConjugateGradient ℚ) where
  direction := [-1, 1, -1, 1]
  rule := .new {}

/-- The squared gradients are `1/3` and `2`. -/
theorem learn_agrees_fourSamples : ∃ d, ∀ method lineSearch, ∃ h',
    learn fourSamples.manifold { exactStep with lineSearch }
        { exactHeading with rule.config.method := method } = (.ok (), h') ∧
      h'.rule.sigma = 2 / (1 / 3) ∧ h'.direction = d := by
  have hs : Space.Supports (.sphere fourSamples) exactStep exactHeading.direction :=
    .sphere (eq_ok_of_yields (by decide +kernel)) (eq_ok_of_yields (by decide +kernel))
      ⟨[2, 0, 0, 2], 4 / 3, eq_ok_of_yields (by decide +kernel),
        eq_ok_of_yields (by decide +kernel), by decide +kernel⟩
      (eq_ok_of_yields (by decide +kernel)) (eq_ok_of_yields (by decide +kernel))
      (eq_ok_of_yields (by decide +kernel))
  have hbefore : (Space.sphere fourSamples).manifold.inner exactStep.point exactStep.gradient
      exactStep.gradient = .ok (1 / 3) := eq_ok_of_yields (by decide +kernel)
  have hafter : (Space.sphere fourSamples).manifold.inner exactStep.nextPoint
      exactStep.nextGradient exactStep.nextGradient = .ok 2 := eq_ok_of_yields (by decide +kernel)
  obtain ⟨zeta, image, hzeta, himage, hagrees⟩ := learn_agrees Cache.faithful_empty hs
    (by decide +kernel) (by decide +kernel) (by decide +kernel) hbefore hafter
    (eq_ok_of_yields (by decide +kernel))
  obtain rfl : zeta = [-1, 1, -1, 1] := hzeta.eq_of_yields (by decide +kernel)
  obtain rfl : image = [1, 0, 0, -1] := himage.eq_of_yields (by decide +kernel)
  exact hagrees (eq_ok_of_yields (by decide +kernel)) (eq_ok_of_yields (by decide +kernel))

end ConjugateGradient

end GeodesicDescent
