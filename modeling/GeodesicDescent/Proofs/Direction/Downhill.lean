import Mathlib.Tactic.FieldSimp
import GeodesicDescent.Proofs.Direction.Carrying
import GeodesicDescent.Proofs.LineSearch.Curvature

/-!
# Two formulas that lead downhill

The formula of Hager and Zhang leads downhill after any step: what the direction adds to the slope
is completed to a square, and seven eighths of the squared gradient are left. The formula of Dai
and Yuan does so after a step that leaves at most a share of the slope, as the strong Wolfe search
sees to. Tangent vectors keep their inner product on the way, so that the new slope is a positive
multiple of the old one.

* `Finds.slope_hagerZhang_le`, **`learn_hagerZhang_descends`**: after any step;
* `Space.carried_eq_slopeAfter`: what is left of the slope, as the search and the rule see it;
* `CGMethod.daiYuan_signs`, **`learn_daiYuan_descends`**: where at most a share of it is left.
-/

namespace GeodesicDescent

open Stateful

variable {K : Type} [Field K] [LinearOrder K] [IsStrictOrderedRing K]

/-- Where at most a share of the slope is left, the denominator of Dai and Yuan and their weight are
positive. -/
theorem CGMethod.daiYuan_signs {lineSearch : SearchKind} {p : Products K} {slope c2 : K}
    (hacross : p.across = p.left - slope) (hafter : 0 < p.after) (hdown : slope < 0) (hc2 : c2 < 1)
    (hleft : c2 * slope ≤ p.left) : 0 < p.across ∧ 0 < daiYuan.weight lineSearch p ∧
      daiYuan.weight lineSearch p * p.left - p.after = daiYuan.weight lineSearch p * slope := by
  have hshare : slope < c2 * slope := by
    rw [← sub_pos, show c2 * slope - slope = (1 - c2) * -slope by ring]
    exact mul_pos (sub_pos.2 hc2) (neg_pos.2 hdown)
  have hpos : 0 < p.across := by
    rw [hacross]
    linarith
  refine ⟨hpos, div_pos hafter hpos, ?_⟩
  rw [show slope = p.left - p.across by linarith, weight]
  field_simp

variable [Elementary K] [Tolerances K]

theorem Space.carried_eq_slopeAfter {S : Space} {x η y d g zeta : Vec K} {a : Accepted K}
    {left seen : K} (hzeta : Answers (S.manifold.transport x η y d) zeta)
    (hleft : S.manifold.inner y zeta g = .ok left) (hy : a.point = y) (hg : a.gradient = g)
    (h : StrongWolfe.SlopeAfter S.manifold Cache.Faithful x d a seen) : seen = left := by
  obtain ⟨moved, c, c', hc, hmoved, hseen⟩ := h
  subst hy hg
  -- the displacements differ, but no space looks at them
  have hcarried : Answers (S.manifold.transport x (Vec.scale d a.step) a.point d) zeta := by
    cases S <;> exact hzeta
  obtain ⟨_, htransport, -⟩ := Gives.exists_eq hcarried hc
  obtain rfl := S.differential_eq_transport hc hc hmoved htransport
  have hsymm := S.innerProducts.comm hleft
  exact Except.ok.inj (hseen.symm.trans hsymm)

namespace ConjugateGradient

/-- By the formula of Hager and Zhang at most an eighth of the squared gradient is lost. -/
theorem Finds.slope_hagerZhang_le {M : Manifold K} {it : Iterate K} {d zeta image : Vec K}
    {P : Cache K → Prop} {n : Nat} {form : Vec K → Vec K → K} {before : K}
    (hf : Finds M it d P n form before zeta image)
    (hne : (products form before it zeta image).across ≠ 0) :
    CGMethod.hagerZhang.weight it.lineSearch (products form before it zeta image) *
        (products form before it zeta image).left - (products form before it zeta image).after ≤
      -(7 / 8 * (products form before it zeta image).after) := by
  set p := products form before it zeta image
  let t := p.left / p.across
  have hsquare : 2 * (4 * t * p.along) ≤ (4 * t) ^ 2 * p.change + p.after :=
    hf.hasForm.two_mul_le (4 * t) (hf.length_change.trans hf.length_gradient.symm)
  have hweight : CGMethod.hagerZhang.weight it.lineSearch p * p.left =
      t * p.along - 2 * t ^ 2 * p.change := by
    simp only [CGMethod.weight, scientific_two, t]
    field_simp
  rw [hweight]
  linarith

/-! ## What is prepared -/

variable {S : Space} {it : Iterate K} {h : Heading K (ConjugateGradient K)}

/-- **After any step the formula of Hager and Zhang leads downhill**, unless it divides by zero. -/
theorem learn_hagerZhang_descends {zeta image change : Vec K} {across : K}
    (hmethod : h.rule.config.method = .hagerZhang)
    (hgoes : h.rule.config.restartsAt it.iteration = false)
    (hzeta : (S.manifold.transport it.point it.displacement it.nextPoint h.direction h.cache).1 =
      .ok zeta)
    (himage : (S.manifold.transport it.point it.displacement it.nextPoint it.gradient h.cache).1 =
      .ok image)
    (hchange : Vec.sub it.nextGradient image = .ok change)
    (hacross : S.manifold.inner it.nextPoint change zeta = .ok across) (hne : across ≠ 0) :
    ∃ h' slope square, learn S.manifold it h = (.ok (), h') ∧
      S.manifold.inner it.nextPoint h'.direction it.nextGradient = .ok slope ∧
      S.manifold.inner it.nextPoint it.nextGradient it.nextGradient = .ok square ∧
      slope ≤ -(7 / 8 * square) := by
  obtain ⟨hlength, hzlength, rfl⟩ := Space.inner_eq_ok.1 hacross
  have hcombines := Vec.combines_sub hchange
  have hnext : it.nextGradient.length = S.size := hcombines.length_left.symm.trans hlength
  have hilength : image.length = S.size := hcombines.length_right.symm.trans hlength
  obtain rfl : change = gradientChangeFrom it image := (Vec.combine_eq_ok.1 hchange).2
  obtain ⟨P, hP, hsteady⟩ := S.exists_steady it.point it.displacement it.nextPoint h.cache
  have hf := Space.finds (hsteady _ _ hzeta) (hsteady _ _ himage)
    ((Space.length_of_transport hzeta).symm.trans hzlength)
    ((Space.length_of_transport himage).symm.trans hilength) hnext hzlength hilength
  obtain ⟨h', hlearn, hsigma, hd⟩ := hf.learn hP hgoes
  refine ⟨h', _, _, hlearn, hf.slope_eq hd, hf.hasForm.inner_eq hnext hnext, ?_⟩
  rw [hsigma, hmethod]
  refine hf.slope_hagerZhang_le ?_
  rw [Space.form_comm] at hne
  exact hne

/-- A step from one point of the smallest sphere to another, at a right angle. -/
def turnStep : Iterate ℚ where
  point := [1, 1]
  nextPoint := [1, -1]
  gradient := [1, -1]
  nextGradient := [1 / 2, 1 / 2]
  displacement := [-1, 1]
  value := 1
  nextValue := 0
  iteration := 1
  step := 1
  lineSearch := .strongWolfe

/-- The heading of that step, against the gradient. -/
def turnHeading (method : CGMethod) : Heading ℚ (ConjugateGradient ℚ) where
  direction := [-1, 1]
  rule := .new { method }

/-- After a quarter turn, with the change `(3/2, 3/2)` of the gradient. -/
theorem learn_hagerZhang_descends_turn : ∃ h' slope,
    learn Sphere.segment.manifold turnStep (turnHeading .hagerZhang) = (.ok (), h') ∧
      Sphere.segment.inner h'.direction turnStep.nextGradient = .ok slope ∧
      slope ≤ -(7 / 8 * (1 / 4)) := by
  let S : Space := .sphere .segment
  let h := turnHeading .hagerZhang
  have hgoes : h.rule.config.restartsAt turnStep.iteration = false := by decide +kernel
  have hzeta : (S.manifold.transport turnStep.point turnStep.displacement turnStep.nextPoint
      h.direction h.cache).1 = .ok [1, 1] := eq_ok_of_yields (by decide +kernel)
  have himage : (S.manifold.transport turnStep.point turnStep.displacement turnStep.nextPoint
      turnStep.gradient h.cache).1 = .ok [-1, -1] := eq_ok_of_yields (by decide +kernel)
  have hchange : Vec.sub turnStep.nextGradient [-1, -1] = .ok [3 / 2, 3 / 2] :=
    eq_ok_of_yields (by decide +kernel)
  have hacross : S.manifold.inner turnStep.nextPoint [3 / 2, 3 / 2] [1, 1] = .ok (3 / 2 : ℚ) :=
    eq_ok_of_yields (by decide +kernel)
  obtain ⟨h', slope, square, hlearn, hslope, hsquare, hle⟩ :=
    learn_hagerZhang_descends rfl hgoes hzeta himage hchange hacross (by norm_num)
  have hvalue : Sphere.segment.inner turnStep.nextGradient turnStep.nextGradient = .ok (1 / 4) :=
    eq_ok_of_yields (by decide +kernel)
  obtain rfl : square = 1 / 4 := Except.ok.inj (hsquare.symm.trans hvalue)
  exact ⟨h', slope, hlearn, hslope, hle⟩

/-- **Where at most a share of the slope is left the formula of Dai and Yuan leads downhill.** -/
theorem learn_daiYuan_descends {slope : K} (hc : h.cache.Faithful) (hs : S.Supports it h.direction)
    (hmethod : h.rule.config.method = .daiYuan)
    (hgoes : h.rule.config.restartsAt it.iteration = false)
    (hslope : S.manifold.inner it.point h.direction it.gradient = .ok slope) (hdown : slope < 0)
    (hnext : ∃ t ∈ it.nextGradient, t ≠ 0) :
    ∃ zeta left,
      Answers (S.manifold.transport it.point it.displacement it.nextPoint h.direction) zeta ∧
      S.manifold.inner it.nextPoint zeta it.nextGradient = .ok left ∧
      (∀ a seen c2, a.point = it.nextPoint → a.gradient = it.nextGradient →
        StrongWolfe.SlopeAfter S.manifold Cache.Faithful it.point h.direction a seen →
        |seen| ≤ -c2 * slope → c2 * slope ≤ left) ∧
      ∀ c2 < 1, c2 * slope ≤ left → ∃ h' image change across newSlope,
        learn S.manifold it h = (.ok (), h') ∧
        Answers (S.manifold.transport it.point it.displacement it.nextPoint it.gradient) image ∧
        Vec.sub it.nextGradient image = .ok change ∧
        S.manifold.inner it.nextPoint zeta change = .ok across ∧ 0 < across ∧
        0 < h'.rule.sigma ∧
        S.manifold.inner it.nextPoint h'.direction it.nextGradient = .ok newSlope ∧
        newSlope = h'.rule.sigma * slope ∧ newSlope < 0 := by
  obtain ⟨zeta, image, hf, hisometric⟩ := hs.finds
  let p := products S.form (S.form it.gradient it.gradient) it zeta image
  have hleft : S.manifold.inner it.nextPoint zeta it.nextGradient = .ok p.left :=
    hf.hasForm.inner_eq hf.length_zeta hf.length_gradient
  refine ⟨zeta, p.left, hf.direction_carried, hleft,
    fun a seen c2 hpoint hgradient hafter hflat => ?_, fun c2 hc2 hshare => ?_⟩
  · obtain rfl := Space.carried_eq_slopeAfter hf.direction_carried hleft hpoint hgradient hafter
    linarith [(abs_le.1 hflat).1]
  · obtain ⟨h', hlearn, hsigma, hd⟩ := hf.learn hc hgoes
    rw [hmethod] at hsigma
    have hacross : p.across = p.left - slope := by
      rw [hf.across_eq, hisometric, (Space.inner_eq_ok.1 hslope).2.2]
    obtain ⟨hpos, hweight, hnew⟩ := CGMethod.daiYuan_signs hacross
      (Space.form_self_pos hf.length_gradient hnext) hdown hc2 hshare
    rw [← hsigma] at hweight hnew
    refine ⟨h', image, _, p.across, _, hlearn, hf.gradient_carried, hf.change_eq,
      hf.hasForm.inner_eq hf.length_zeta hf.length_change, hpos, hweight, hf.slope_eq hd, hnew, ?_⟩
    exact hnew.trans_lt (mul_neg_of_pos_of_neg hweight hdown)

/-- A quarter turn leaves half of the slope, as the search sees it too. -/
theorem learn_daiYuan_descends_turn : ∃ h' newSlope,
    learn Sphere.segment.manifold turnStep (turnHeading .daiYuan) = (.ok (), h') ∧
      0 < h'.rule.sigma ∧
      Sphere.segment.inner h'.direction turnStep.nextGradient = .ok newSlope ∧
      newSlope = h'.rule.sigma * -1 ∧ newSlope < 0 := by
  have hs : Space.Supports (.sphere .segment) turnStep (turnHeading .daiYuan).direction :=
    .sphere (eq_ok_of_yields (by decide +kernel)) (eq_ok_of_yields (by decide +kernel))
      ⟨[2, 0], 2, eq_ok_of_yields (by decide +kernel), eq_ok_of_yields (by decide +kernel),
        by decide +kernel⟩
      (eq_ok_of_yields (by decide +kernel)) (eq_ok_of_yields (by decide +kernel))
      (eq_ok_of_yields (by decide +kernel))
  have hslope : (Space.sphere .segment).manifold.inner turnStep.point
      (turnHeading .daiYuan).direction turnStep.gradient = .ok (-1) :=
    eq_ok_of_yields (by decide +kernel)
  obtain ⟨zeta, left, -, -, hseen, hdescends⟩ := learn_daiYuan_descends Cache.faithful_empty hs rfl
    (by decide +kernel) hslope (by norm_num) (by decide +kernel)
  obtain ⟨_, c, hmoved, rfl⟩ := exists_of_yields (P := (· = [1, 1]))
    (x := Sphere.segment.manifold.differential [1, 1] (Vec.scale [-1, 1] 1) [1, -1]
      ([-1, 1] : Vec ℚ) true {}) (by decide +kernel)
  have hafter : StrongWolfe.SlopeAfter Sphere.segment.manifold Cache.Faithful [1, 1]
      ([-1, 1] : Vec ℚ) ⟨1, [1, -1], 0, [1 / 2, 1 / 2], 1, 1⟩ (1 / 2) :=
    ⟨_, _, c, Cache.faithful_empty, hmoved, eq_ok_of_yields (by decide +kernel)⟩
  have hleft := hseen _ _ (1 / 2) rfl rfl hafter (by norm_num)
  obtain ⟨h', _, _, _, newSlope, hlearn, -, -, -, -, hsigma, hslope, heq, hdown⟩ :=
    hdescends (1 / 2) (by norm_num) hleft
  exact ⟨h', newSlope, hlearn, hsigma, hslope, heq, hdown⟩

end ConjugateGradient

end GeodesicDescent
