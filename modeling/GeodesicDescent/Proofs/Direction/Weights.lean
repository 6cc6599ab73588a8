import Mathlib.Tactic.LinearCombination
import GeodesicDescent.Proofs.Direction.ConjugateGradient
import GeodesicDescent.Proofs.Spaces

/-!
# The weights of the six methods

Over an ordered field each of the six formulas is a quotient of inner products at a step. Whatever
the method, the rule combines the direction that is carried to the next point, times this weight,
with the gradient there. Where the weight is reset to zero it does not matter which vector it
applies to.

* `Products`, `CGMethod.weight`: the inner products at a step, and the weights made of them;
* `CGMethod.Resets`: whether a weight is reset to zero;
* `ConjugateGradient.Finds`: what the rule finds after a step, when it carries two vectors;
* `Finds.gives_weigh`: each method weighs by its formula, and keeps the vector that it weighs;
* `Finds.learn_keeping`, **`Finds.learn`**: what is kept, and the direction that is prepared;
* `Manifold.HasForm.two_mul_le`: an inner product is bounded by the squares of its vectors.
-/

namespace GeodesicDescent

open Stateful

/-- The inner products that the weights are made of. -/
structure Products (K : Type) where
  /-- The square of the gradient before the step. -/
  before : K
  /-- The square of the gradient after the step. -/
  after : K
  /-- The change of the gradient, along the gradient after the step. -/
  along : K
  /-- The carried direction, along the change of the gradient. -/
  across : K
  /-- The square of the change of the gradient. -/
  change : K
  /-- The carried direction, along the gradient after the step. -/
  left : K

variable {K : Type} [Field K] [LinearOrder K]

/-- The weight by the formula of a method. Only one of them minds how the step was found. -/
def CGMethod.weight (lineSearch : SearchKind) (p : Products K) : CGMethod → K
  | fletcherReeves => p.after / p.before
  | polakRibiereMod =>
    if lineSearch = .strongWolfe ∧ p.along / p.before ≤ 0 then 0 else p.along / p.before
  | hestenesStiefel => p.along / p.across
  | frPr =>
    if p.along / p.before < -(p.after / p.before) then -(p.after / p.before)
    else if p.after / p.before < p.along / p.before then p.after / p.before
    else p.along / p.before
  | daiYuan => p.after / p.across
  | hagerZhang => (p.along - 2.0 * p.change / p.across * p.left) / p.across

/-- Whether a method resets the weight to zero, which only one of them does. -/
def CGMethod.Resets (lineSearch : SearchKind) (p : Products K) (method : CGMethod) : Prop :=
  method = polakRibiereMod ∧ lineSearch = .strongWolfe ∧ p.along / p.before ≤ 0

theorem CGMethod.weight_of_resets {lineSearch : SearchKind} {p : Products K} {method : CGMethod}
    (h : method.Resets lineSearch p) : method.weight lineSearch p = 0 := by
  obtain ⟨rfl, hreset⟩ := h
  exact if_pos hreset

variable [Elementary K] [Tolerances K]

theorem Manifold.HasForm.two_mul_le [IsStrictOrderedRing K] {M : Manifold K} {x u v : Vec K}
    {n : Nat} {form : Vec K → Vec K → K} (h : M.HasForm x n form) (a : K)
    (hlength : u.length = v.length) : 2 * (a * form u v) ≤ a ^ 2 * form u u + form v v := by
  obtain ⟨w, -, hw⟩ := Vec.exists_axpy a (-1) hlength
  have hsquare := h.self_nonneg w
  rw [h.combines hw, h.comm u w, h.comm v w, h.combines hw, h.combines hw, h.comm v u] at hsquare
  linarith

namespace ConjugateGradient

variable {M : Manifold K} {it : Iterate K} {h : Heading K (ConjugateGradient K)}
variable {d zeta image : Vec K} {P : Cache K → Prop} {n : Nat} {form : Vec K → Vec K → K}
variable {before : K} {method : CGMethod}

/-- The change of the gradient, the old one carried to the next point as `image`. -/
def gradientChangeFrom (it : Iterate K) (image : Vec K) : Vec K :=
  it.nextGradient.zipWith (· - ·) image

/-- The inner products at a step, after which the direction was carried as `zeta` and the gradient
as `image`. -/
def products (form : Vec K → Vec K → K) (before : K) (it : Iterate K) (zeta image : Vec K) :
    Products K where
  before := before
  after := form it.nextGradient it.nextGradient
  along := form (gradientChangeFrom it image) it.nextGradient
  across := form zeta (gradientChangeFrom it image)
  change := form (gradientChangeFrom it image) (gradientChangeFrom it image)
  left := form zeta it.nextGradient

/-- What the rule finds after a step. Vectors of length `n` have inner products at the next point,
given by `form`, and through caches with `P` the direction is carried there as `zeta` and the
gradient as `image`. -/
structure Finds (M : Manifold K) (it : Iterate K) (d : Vec K) (P : Cache K → Prop) (n : Nat)
    (form : Vec K → Vec K → K) (before : K) (zeta image : Vec K) : Prop where
  hasForm : M.HasForm it.nextPoint n form
  before_eq : M.inner it.point it.gradient it.gradient = .ok before
  direction_carried : Gives P (M.transport it.point it.displacement it.nextPoint d) zeta
  gradient_carried : Gives P (M.transport it.point it.displacement it.nextPoint it.gradient) image
  length_direction : d.length = n
  length_gradient : it.nextGradient.length = n
  length_zeta : zeta.length = n
  length_image : image.length = n

namespace Finds

variable (hf : Finds M it d P n form before zeta image)

include hf

theorem length_change : (gradientChangeFrom it image).length = n := by
  rw [gradientChangeFrom, List.length_zipWith, hf.length_gradient, hf.length_image, min_self]

theorem change_eq : Vec.sub it.nextGradient image = .ok (gradientChangeFrom it image) :=
  Vec.combine_of_length (hf.length_gradient.trans hf.length_image.symm)

theorem combines_change :
    Vec.Combines 1 it.nextGradient (-1) image (gradientChangeFrom it image) :=
  Vec.combines_sub hf.change_eq

theorem along_eq : (products form before it zeta image).along =
    (products form before it zeta image).after - form image it.nextGradient := by
  show form (gradientChangeFrom it image) it.nextGradient = _
  rw [hf.hasForm.combines hf.combines_change]
  simp only [products]
  ring

theorem across_eq : (products form before it zeta image).across =
    (products form before it zeta image).left - form zeta image := by
  show form zeta (gradientChangeFrom it image) = _
  rw [hf.hasForm.comm, hf.hasForm.combines hf.combines_change, hf.hasForm.comm _ zeta,
    hf.hasForm.comm _ zeta]
  simp only [products]
  ring

variable [IsStrictOrderedRing K]

/-- **Each method weighs by its formula**: the carried direction, or the change of the gradient
where it resets the weight. -/
theorem gives_weigh (method : CGMethod) : ∃ w, Gives P (weigh M it d method) w ∧
    w.sigma = method.weight it.lineSearch (products form before it zeta image) ∧
    (¬ method.Resets it.lineSearch (products form before it zeta image) ∧ w.zeta = zeta ∨
      method.Resets it.lineSearch (products form before it zeta image) ∧
        w.zeta = gradientChangeFrom it image) := by
  have inner {u v : Vec K} (hu : u.length = n) (hv : v.length = n) :
      Gives P (liftM (M.inner it.nextPoint u v) : Cached K K) (form u v) :=
    gives_lift (hf.hasForm.inner_eq hu hv)
  have change : Gives P (liftM (Vec.sub it.nextGradient image) : Cached K (Vec K))
      (gradientChangeFrom it image) := gives_lift hf.change_eq
  have hg := hf.length_gradient
  have hz := hf.length_zeta
  have hy := hf.length_change
  let p := products form before it zeta image
  have kept {method : CGMethod} (hmethod : method ≠ .polakRibiereMod) :
      ¬ method.Resets it.lineSearch p := fun hreset => hmethod hreset.1
  simp only [weigh]
  cases method with
  | fletcherReeves =>
    refine ⟨⟨p.after / before, zeta, none⟩, gives_bind (gives_lift hf.before_eq) ?_, rfl,
      .inl ⟨kept (by simp), rfl⟩⟩
    exact gives_bind (inner hg hg) (gives_bind hf.direction_carried (gives_pure _))
  | polakRibiereMod =>
    by_cases hreset : it.lineSearch = .strongWolfe ∧
      form (gradientChangeFrom it image) it.nextGradient / before ≤ 0
    · refine ⟨⟨0, gradientChangeFrom it image, none⟩, gives_bind (gives_lift hf.before_eq) ?_,
        (if_pos hreset).symm, .inr ⟨⟨rfl, hreset⟩, rfl⟩⟩
      refine gives_bind hf.gradient_carried (gives_bind change (gives_bind (inner hy hg) ?_))
      rw [if_pos hreset]
      exact gives_pure _
    · refine ⟨⟨p.along / before, zeta, none⟩, gives_bind (gives_lift hf.before_eq) ?_,
        (if_neg hreset).symm, .inl ⟨fun h => hreset h.2, rfl⟩⟩
      refine gives_bind hf.gradient_carried (gives_bind change (gives_bind (inner hy hg) ?_))
      rw [if_neg hreset]
      exact gives_bind hf.direction_carried (gives_pure _)
  | hestenesStiefel =>
    refine ⟨⟨p.along / p.across, zeta, some (gradientChangeFrom it image)⟩,
      gives_bind (gives_lift hf.before_eq) ?_, rfl, .inl ⟨kept (by simp), rfl⟩⟩
    refine gives_bind hf.direction_carried (gives_bind hf.gradient_carried (gives_bind change ?_))
    exact gives_bind (inner hy hg) (gives_bind (inner hz hy) (gives_pure _))
  | frPr =>
    refine ⟨⟨CGMethod.frPr.weight it.lineSearch p, zeta, none⟩,
      gives_bind (gives_lift hf.before_eq) ?_, rfl, .inl ⟨kept (by simp), rfl⟩⟩
    refine gives_bind hf.gradient_carried (gives_bind change (gives_bind (inner hy hg) ?_))
    exact gives_bind (inner hg hg) (gives_bind hf.direction_carried (gives_pure _))
  | daiYuan =>
    refine ⟨⟨p.after / p.across, zeta, some (gradientChangeFrom it image)⟩,
      gives_bind (gives_lift hf.before_eq) ?_, rfl, .inl ⟨kept (by simp), rfl⟩⟩
    refine gives_bind hf.direction_carried (gives_bind hf.gradient_carried (gives_bind change ?_))
    exact gives_bind (inner hg hg) (gives_bind (inner hz hy) (gives_pure _))
  | hagerZhang =>
    obtain ⟨shifted, hshifted, hcombines⟩ := Vec.exists_axpy
      (-2.0 * p.change / form (gradientChangeFrom it image) zeta) 1 (hz.trans hy.symm)
    refine ⟨⟨form shifted it.nextGradient / form (gradientChangeFrom it image) zeta, zeta,
      some shifted⟩, gives_bind (gives_lift hf.before_eq) ?_, ?_, .inl ⟨kept (by simp), rfl⟩⟩
    · refine gives_bind hf.direction_carried (gives_bind hf.gradient_carried (gives_bind change ?_))
      refine gives_bind (inner hy hz) (gives_bind (inner hy hy) ?_)
      refine gives_bind (gives_lift hshifted) ?_
      exact gives_bind (inner (hcombines.length_left.trans hz) hg) (gives_pure _)
    · rw [hf.hasForm.combines hcombines, hf.hasForm.comm (gradientChangeFrom it image) zeta]
      simp only [CGMethod.weight, products, scientific_two, p]
      ring

omit [IsStrictOrderedRing K] in
theorem slope_eq {sigma : K} {next : Vec K}
    (hd : Vec.Combines sigma zeta (-1) it.nextGradient next) :
    M.inner it.nextPoint next it.nextGradient =
      .ok (sigma * (products form before it zeta image).left -
        (products form before it zeta image).after) := by
  rw [hf.hasForm.inner_eq (hd.length_left.trans hf.length_zeta) hf.length_gradient,
    hf.hasForm.combines hd, neg_one_mul, ← sub_eq_add_neg]
  rfl

end Finds

variable [IsStrictOrderedRing K]

theorem Finds.learn_keeping (hf : Finds M it h.direction P n form before zeta image)
    (hc : P h.cache) (hgoes : h.rule.config.restartsAt it.iteration = false) :
    ∃ h', ConjugateGradient.learn M it h = (.ok (), h') ∧
      h'.rule.sigma =
        h.rule.config.method.weight it.lineSearch (products form before it zeta image) ∧
      Vec.Combines h'.rule.sigma zeta (-1) it.nextGradient h'.direction ∧
      (¬ h.rule.config.method.Resets it.lineSearch (products form before it zeta image) ∧
          h'.rule.zeta = zeta ∨
        h.rule.config.method.Resets it.lineSearch (products form before it zeta image) ∧
          h'.rule.zeta = gradientChangeFrom it image) := by
  obtain ⟨w, hweigh, hsigma, hkept⟩ := hf.gives_weigh h.rule.config.method
  obtain ⟨c, hw, -⟩ := hweigh.exists_eq hc
  have hlength : w.zeta.length = n := by
    obtain ⟨-, heq⟩ | ⟨-, heq⟩ := hkept
    · rw [heq, hf.length_zeta]
    · rw [heq, hf.length_change]
  obtain ⟨d, haxpy, hd⟩ := Vec.exists_axpy w.sigma (-1)
    (hlength.trans hf.length_gradient.symm)
  have hdirection : h.direction.length = d.length :=
    hf.length_direction.trans (hlength.symm.trans hd.length_left.symm)
  refine ⟨_, learn_of_weigh hgoes hw haxpy hdirection, hsigma, ?_, hkept⟩
  show Vec.Combines w.sigma zeta (-1) it.nextGradient d
  obtain ⟨-, heq⟩ | ⟨hreset, -⟩ := hkept
  · exact heq ▸ hd
  · -- a weight of zero does not tell the vectors apart
    have hzero : w.sigma = 0 := hsigma.trans (CGMethod.weight_of_resets hreset)
    refine ⟨hd.length_left.trans (hlength.trans hf.length_zeta.symm), hd.length_right, fun i => ?_⟩
    rw [hd.entry, hzero, zero_mul, zero_mul]

/-- **After a step without a restart the rule prepares a direction.** -/
theorem Finds.learn (hf : Finds M it h.direction P n form before zeta image) (hc : P h.cache)
    (hgoes : h.rule.config.restartsAt it.iteration = false) :
    ∃ h', ConjugateGradient.learn M it h = (.ok (), h') ∧
      h'.rule.sigma =
        h.rule.config.method.weight it.lineSearch (products form before it zeta image) ∧
      Vec.Combines h'.rule.sigma zeta (-1) it.nextGradient h'.direction := by
  obtain ⟨h', hlearn, hsigma, hd, -⟩ := hf.learn_keeping hc hgoes
  exact ⟨h', hlearn, hsigma, hd⟩

end ConjugateGradient

end GeodesicDescent
