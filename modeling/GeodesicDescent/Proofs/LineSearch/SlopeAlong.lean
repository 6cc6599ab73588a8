import Mathlib
import GeodesicDescent.Objective.Library
import GeodesicDescent.Proofs.LineSearch.Curvature
import GeodesicDescent.Proofs.LineSearch.Derivative
import GeodesicDescent.Proofs.Sphere.Shapes
import GeodesicDescent.Proofs.Sphere.Velocity

/-!
# The slope along a great circle

On a sphere the strong Wolfe search moves along the curve that the steps in one direction draw. It
takes the transported direction for the derivative of the curve, which it is: for steps longer than
the precision the curve is a great circle, and transport carries the direction to its velocity. So
the slope that the search sees is the derivative of the objective, as long as the gradient it is
given is one for the inner product of the sphere. A shorter step leads nowhere, and where the steps
begin to lead on the curve jumps; there both are derivatives from the right.

* `Sphere.IsGradient`: the gradient of a function for the inner product of the sphere;
* `Sphere.exists_curve`, `curve_eq_geodesic`: the curve that the steps in one direction draw;
* `answers_differential`, `answers_differential_velocity`: the derivative of the retraction;
* `hasDerivWithinAt_curve`, `hasDerivAt_curve`, `curve_jumps`: the derivative of this curve, and the
  step at which it has none;
* `IsGradient.hasDerivWithinAt`: the derivative of an objective along a curve;
* `evaluate_linear`: an objective that answers a gradient;
* **`differential_velocity`**: what the search takes for the two derivatives.
-/

namespace GeodesicDescent.Sphere

open Stateful

/-! ## The derivative of the retraction -/

section Differential

variable {K : Type} [Scalar K] {s : Sphere} {x y η ξ image : Vec K}

theorem answers_differential (hη : η.length = s.samples) (hξ : ξ.length = s.samples)
    (hlength : image.length = s.samples) (himage : Answers (s.transport x y ξ) image) :
    Answers (s.differential x η y ξ true) image := by
  obtain ⟨entry, hentry⟩ := exists_scaling hη hξ hlength
  refine answers_bind himage ?_
  split_ifs
  · have hkept : Answers (modify (·.keepScaling entry) : Cached K PUnit) ⟨⟩ :=
      fun c hc => ⟨rfl, hc.congr rfl⟩
    exact answers_bind (answers_lift hentry) (answers_bind hkept (gives_pure _))
  · exact gives_pure _

end Differential

section Curve

variable [Tolerances ℝ] {s : Sphere} {x y η g v : Vec ℝ} {a : ℝ} {curve : ℝ → Vec ℝ} {i : Nat}

theorem answers_differential_velocity (hx : s.OnSphere x) (hη : s.Tangent x η)
    (hρ : s.speed η ≠ 0) (hapart : Scalar.epsilon < 2 + 2 * Real.cos (a * s.speed η)) :
    Answers (s.manifold.differential x (Vec.scale η a) (s.geodesic x η a) η true)
      (s.velocity x η a) :=
  answers_differential ((Vec.length_scale _ _).trans hη.length_eq) hη.length_eq
    ((combines_velocity hx hη a).length_left.trans hη.length_eq)
    (answers_transport_velocity hx hη hρ ((apart_geodesic_iff hx hη a).2 hapart))

/-! ## The curve of the steps in one direction -/

theorem exists_curve (hx : s.OnSphere x) (hη : s.Tangent x η) :
    ∃ curve : ℝ → Vec ℝ, ∀ b, s.manifold.retract x (Vec.scale η b) = .ok (curve b) := by
  have hstep (b : ℝ) : ∃ y, s.retract x (Vec.scale η b) = .ok y := by
    obtain ⟨y, hy, -⟩ := exists_retract hx.length_eq ((Vec.length_scale η b).trans hη.length_eq)
    exact ⟨y, hy⟩
  choose curve hcurve using hstep
  exact ⟨curve, hcurve⟩

section

variable (hcurve : ∀ b, s.manifold.retract x (Vec.scale η b) = .ok (curve b))

include hcurve

theorem curve_eq_geodesic (hx : s.OnSphere x) (hη : s.Tangent x η)
    (hlong : Scalar.epsilon ≤ a * s.speed η) : curve a = s.geodesic x η a := by
  have hle : a * s.speed η ≤ |a| * s.speed η :=
    mul_le_mul_of_nonneg_right (le_abs_self a) (Real.sqrt_nonneg _)
  exact Except.ok.inj ((hcurve a).symm.trans (retract_eq_geodesic hx hη (hlong.trans hle)))

theorem length_curve (b : ℝ) : (curve b).length = s.samples :=
  (onSphere_of_retract (hcurve b)).length_eq

theorem hasDerivWithinAt_curve (hx : s.OnSphere x) (hη : s.Tangent x η)
    (hlong : Scalar.epsilon ≤ a * s.speed η) (i : Nat) :
    HasDerivWithinAt (fun b => (curve b).getD i 0) ((s.velocity x η a).getD i 0) (Set.Ici a) a := by
  refine (hasDerivAt_velocity hx hη a i).hasDerivWithinAt.congr (fun b hb => ?_) ?_
  · have hle : a * s.speed η ≤ b * s.speed η :=
      mul_le_mul_of_nonneg_right hb (Real.sqrt_nonneg _)
    rw [curve_eq_geodesic hcurve hx hη (hlong.trans hle)]
  · rw [curve_eq_geodesic hcurve hx hη hlong]

theorem hasDerivAt_curve (hx : s.OnSphere x) (hη : s.Tangent x η)
    (hlong : Scalar.epsilon < a * s.speed η) (i : Nat) :
    HasDerivAt (fun b => (curve b).getD i 0) ((s.velocity x η a).getD i 0) a := by
  have hnear : ∀ᶠ b in nhds a, Scalar.epsilon < b * s.speed η :=
    (continuous_mul_const (s.speed η)).continuousAt.eventually_const_lt hlong
  refine (hasDerivAt_velocity hx hη a i).congr_of_eventuallyEq ?_
  filter_upwards [hnear] with b hb
  rw [curve_eq_geodesic hcurve hx hη hb.le]

/-- A step shorter than the precision, which is at most one half, leads nowhere. -/
theorem curve_of_short (hx : s.OnSphere x) (hη : s.Tangent x η)
    (hfine : (Scalar.epsilon : ℝ) ≤ 1 / 2) (hshort : |a| * s.speed η < Scalar.epsilon) :
    curve a = x := by
  rw [← speed_scale] at hshort
  have hstays := retract_of_short hx ((Vec.length_scale _ _).trans hη.length_eq) hshort
    (epsilon_lt_cos hfine (Real.sqrt_nonneg _) hshort)
  exact Except.ok.inj ((hcurve a).symm.trans hstays)

/-- **The curve jumps where its steps begin to lead on.** -/
theorem curve_jumps (hx : s.OnSphere x) (hη : s.Tangent x η)
    (hfine : (Scalar.epsilon : ℝ) ≤ 1 / 2) (hedge : a * s.speed η = Scalar.epsilon) :
    ¬ ∀ i, ContinuousAt (fun b => (curve b).getD i 0) a := by
  intro hcontinuous
  have hepsilon : (0 : ℝ) < Scalar.epsilon := Tolerances.epsilon_pos
  have hspeed : 0 < s.speed η :=
    (Real.sqrt_nonneg _).lt_of_ne' (right_ne_zero_of_mul (hedge.trans_ne hepsilon.ne'))
  have hpos : 0 < a := pos_of_mul_pos_left (hedge.trans_gt hepsilon) hspeed.le
  -- the steps just below all lead to the point where they start
  have hbelow : ∀ᶠ b in nhdsWithin a (Set.Iio a), curve b = x := by
    filter_upwards [Ioo_mem_nhdsLT hpos] with b hb
    refine curve_of_short hcurve hx hη hfine ?_
    rw [abs_of_pos hb.1, ← hedge]
    exact mul_lt_mul_of_pos_right hb.2 hspeed
  have hsame : s.geodesic x η a = x := by
    rw [← curve_eq_geodesic hcurve hx hη hedge.ge]
    refine Vec.ext_getD ((length_curve hcurve a).trans hx.length_eq.symm) fun i => ?_
    have hlimit : Filter.Tendsto (fun b => (curve b).getD i 0) (nhdsWithin a (Set.Iio a))
        (nhds ((curve a).getD i 0)) := (hcontinuous i).tendsto.mono_left nhdsWithin_le_nhds
    have hconst : Filter.Tendsto (fun b => (curve b).getD i 0) (nhdsWithin a (Set.Iio a))
        (nhds (x.getD i 0)) := by
      refine tendsto_const_nhds.congr' ?_
      filter_upwards [hbelow] with b hb
      rw [hb]
    exact tendsto_nhds_unique hlimit hconst
  have hcos : Real.cos Scalar.epsilon = 1 := by
    rw [← hedge, ← form_geodesic hx hη, hsame, hx.form_eq_one]
  have hlt := Real.cos_lt_cos_of_nonneg_of_le_pi le_rfl
    (hfine.trans (by linarith [Real.pi_gt_three])) hepsilon
  rw [hcos, Real.cos_zero] at hlt
  exact lt_irrefl _ hlt

end

/-! ## An objective along the curve -/

/-- The vector `g` is the gradient of `φ` at `y` for the inner product of the sphere: its inner
products with tangent vectors are the derivatives of `φ` in their directions. -/
structure IsGradient (s : Sphere) (φ : Vec ℝ → ℝ) (y g : Vec ℝ) : Prop where
  differentiableAt : DifferentiableAt ℝ (fun u : Fin s.samples → ℝ => φ (List.ofFn u))
    fun i => y.getD i 0
  inner_eq : ∀ v, s.Tangent y v → s.inner g v = .ok (fderiv ℝ
    (fun u : Fin s.samples → ℝ => φ (List.ofFn u)) (fun i => y.getD i 0) fun i => v.getD i 0)

theorem isGradient_form {c : Vec ℝ} (h : ∀ v, s.Tangent y v → s.inner g v = .ok (s.form c v)) :
    s.IsGradient (s.form c) y g := by
  obtain ⟨L, hL⟩ : ∃ L : (Fin s.samples → ℝ) →L[ℝ] ℝ, ∀ u, s.form c (List.ofFn u) = L u := by
    refine ⟨∑ i : Fin s.samples, (s.weight i * c.getD i 0) • ContinuousLinearMap.proj i,
      fun u => ?_⟩
    rw [form, Finset.sum_range]
    simp [mul_assoc]
  have hfunction : (fun u : Fin s.samples → ℝ => s.form c (List.ofFn u)) = L := funext hL
  refine ⟨?_, fun v hv => ?_⟩
  · rw [hfunction]
    exact L.differentiableAt
  · rw [h v hv, hfunction, L.fderiv, ← hL, PartialsAt.ofFn_getD hv.length_eq]

/-- **A linear objective of the library answers a gradient.** -/
theorem evaluate_linear {σ : Type} {p : Problem ℝ σ} {w : Workspace ℝ σ} {c : Vec ℝ}
    (hmanifold : p.manifold = s.manifold) (hobjective : p.objective = .linear s.manifold c)
    (hy : s.OnSphere y) (hc : c.length = s.samples) (hw : w.cache.Faithful) :
    ∃ g w', p.evaluate y w = (.ok (-s.form c y, g), w') ∧ w'.cache.Faithful ∧
      s.IsGradient (fun v => -s.form c v) y g := by
  have hneg : (Vec.neg c).length = s.samples := (Vec.length_neg c).trans hc
  obtain ⟨g, kept, hconvert, hinner⟩ :=
    Space.inner_convertGradient (S := .sphere s) hy hneg p.usage w.cache
  have hfaithful : kept.Faithful := by
    have h := (transparent_convertGradient (s := s) (x := y) (Vec.neg c) p.usage _ hw).2
    rwa [show s.manifold.convertGradient y (Vec.neg c) p.usage w.cache = _ from hconvert] at h
  have hfunction : (fun v => -s.form c v) = s.form (Vec.neg c) :=
    funext fun v => (form_neg c v).symm
  refine ⟨g, { w with cache := kept }, Problem.evaluate_eq_ok.2
    ⟨Vec.neg c, w.objective, kept, ?_, ?_, rfl⟩, hfaithful, hfunction ▸ isGradient_form hinner⟩
  · rw [hobjective]
    exact bind_eq_ok.2 ⟨_, _, lift_eq_ok.2 ⟨inner_of_length hc hy.length_eq, rfl⟩, rfl⟩
  · rw [hmanifold]
    exact hconvert

/-- **The derivative of a function along a curve** is the inner product of its gradient with the
derivative of the curve, seen from any side. -/
theorem IsGradient.hasDerivWithinAt {φ : Vec ℝ → ℝ} {S : Set ℝ} {slope : ℝ}
    (h : s.IsGradient φ (curve a) g) (hlength : ∀ b, (curve b).length = s.samples)
    (hv : s.Tangent (curve a) v) (hslope : s.inner g v = .ok slope)
    (hderiv : ∀ i, HasDerivWithinAt (fun b => (curve b).getD i 0) (v.getD i 0) S a) :
    HasDerivWithinAt (fun b => φ (curve b)) slope S a := by
  have hentries : HasDerivWithinAt (fun b (i : Fin s.samples) => (curve b).getD i 0)
      (fun i => v.getD i 0) S a := hasDerivWithinAt_pi.2 fun i => hderiv i
  have hcomp := h.differentiableAt.hasFDerivAt.comp_hasDerivWithinAt a hentries
  have hfunction : (fun u : Fin s.samples → ℝ => φ (List.ofFn u)) ∘
      (fun b (i : Fin s.samples) => (curve b).getD i 0) = fun b => φ (curve b) :=
    funext fun b => congrArg φ (PartialsAt.ofFn_getD (hlength b))
  rw [hfunction] at hcomp
  exact hcomp.congr_deriv (Except.ok.inj ((h.inner_eq v hv).symm.trans hslope))

/-- **What the search takes for the derivatives** is the velocity of the great circle, and the
derivative along it, from one side only where steps begin to lead on. -/
theorem differential_velocity (hx : s.OnSphere x) (hη : s.Tangent x η)
    (hlong : Scalar.epsilon ≤ a * s.speed η)
    (hapart : Scalar.epsilon < 2 + 2 * Real.cos (a * s.speed η)) :
    ∃ (curve : ℝ → Vec ℝ) (moved : Vec ℝ),
      (∀ b, s.manifold.retract x (Vec.scale η b) = .ok (curve b)) ∧
      Answers (s.manifold.differential x (Vec.scale η a) (curve a) η true) moved ∧
      Vec.Combines (Real.cos (a * s.speed η)) η (-(s.speed η * Real.sin (a * s.speed η))) x
        moved ∧
      (∀ i, HasDerivWithinAt (fun b => (curve b).getD i 0) (moved.getD i 0) (Set.Ici a) a) ∧
      (Scalar.epsilon < a * s.speed η →
        ∀ i, HasDerivAt (fun b => (curve b).getD i 0) (moved.getD i 0) a) ∧
      ∀ (σ : Type) (p : Problem ℝ σ) (ray : StrongWolfe.Ray ℝ) (t : StrongWolfe.Trial ℝ)
        (w : Workspace ℝ σ) (φ : Vec ℝ → ℝ), p.manifold = s.manifold → ray.point = x →
        ray.direction = η → t.step = a → t.point = curve a → w.cache.Faithful →
        s.IsGradient φ (curve a) t.gradient →
        ∃ slope w', StrongWolfe.slopeAt p ray t w = (.ok slope, w') ∧
          HasDerivWithinAt (fun b => φ (curve b)) slope (Set.Ici a) a ∧
          (Scalar.epsilon < a * s.speed η → HasDerivAt (fun b => φ (curve b)) slope a) := by
  have hρ : s.speed η ≠ 0 := right_ne_zero_of_mul (Tolerances.epsilon_pos.trans_le hlong).ne'
  obtain ⟨curve, hcurve⟩ := exists_curve hx hη
  have hgeodesic := curve_eq_geodesic hcurve hx hη hlong
  have hmoved := answers_differential_velocity hx hη hρ hapart
  have hright := hasDerivWithinAt_curve hcurve hx hη hlong
  refine ⟨curve, s.velocity x η a, hcurve, hgeodesic ▸ hmoved, combines_velocity hx hη a, hright,
    hasDerivAt_curve hcurve hx hη, ?_⟩
  rintro σ p ray t w φ hmanifold rfl rfl rfl hpoint hcache hgradient
  set arrived := s.velocity ray.point ray.direction t.step
  have htangent : s.Tangent (curve t.step) arrived := hgeodesic ▸ tangent_velocity hx hη t.step
  obtain ⟨c, hdifferential, -⟩ := Gives.exists_eq hmoved hcache
  obtain ⟨slope, hslope⟩ : ∃ slope, s.inner t.gradient arrived = .ok slope :=
    ⟨_, hgradient.inner_eq _ htangent⟩
  have hasked : StrongWolfe.slopeAt p ray t w = (.ok slope, { w with cache := c }) := by
    refine StrongWolfe.slopeAt_eq_ok.2 ⟨arrived, c, ?_, ?_, rfl⟩
    · rw [hmanifold, hpoint, hgeodesic]
      exact hdifferential
    · rw [hmanifold]
      exact hslope
  refine ⟨_, _, hasked, ?_, fun hlonger => ?_⟩
  · exact hgradient.hasDerivWithinAt (length_curve hcurve) htangent hslope hright
  · have hboth := hasDerivAt_curve hcurve hx hη hlonger
    rw [← hasDerivWithinAt_univ]
    exact hgradient.hasDerivWithinAt (length_curve hcurve) htangent hslope
      fun i => (hboth i).hasDerivWithinAt

end Curve

/-- A linear objective on the smallest sphere. -/
noncomputable def leaning : Problem ℝ Unit where
  objective := .linear segment.manifold [1, 0]
  manifold := segment.manifold
  usage := .firstOrder

/-- A step of unit length from `(1, 1)` along `(1, -1)`, and the slope of the linear objective after
it. -/
theorem differential_velocity_segment :
    ∃ (curve : ℝ → Vec ℝ) (moved : Vec ℝ),
      (∀ b, segment.manifold.retract [1, 1] (Vec.scale [1, -1] b) = .ok (curve b)) ∧
      Answers (segment.manifold.differential [1, 1] (Vec.scale [1, -1] 1) (curve 1) [1, -1] true)
        moved ∧
      Vec.Combines (Real.cos 1) [1, -1] (-Real.sin 1) [1, 1] moved ∧
      (∀ i, HasDerivAt (fun b => (curve b).getD i 0) (moved.getD i 0) 1) ∧
      ∃ value g w slope w', leaning.evaluate (curve 1) { objective := () } = (.ok (value, g), w) ∧
        StrongWolfe.slopeAt leaning ⟨[1, 1], -1 / 2, -1 / 2, [1, -1]⟩ ⟨1, curve 1, value, g⟩ w =
          (.ok slope, w') ∧
        HasDerivAt (fun b => -segment.form [1, 0] (curve b)) slope 1 := by
  have hspeed : segment.speed [1, -1] = 1 := speed_segment_opposite zero_le_one
  have hepsilon : (Scalar.epsilon : ℝ) < 1 := Tolerances.epsilon_lt_one
  obtain ⟨curve, moved, hcurve, hmoved, hcombines, -, hderiv, hslope⟩ :=
    differential_velocity (a := 1) onSphere_segment tangent_segment
      (by rw [hspeed, one_mul]; exact hepsilon.le)
      (by rw [hspeed, one_mul]; linarith [Real.cos_one_pos])
  have harrived : segment.OnSphere (curve 1) := onSphere_of_retract (hcurve 1)
  obtain ⟨g, w, hevaluate, hfaithful, hgradient⟩ := evaluate_linear (p := leaning)
    (w := { objective := () }) rfl rfl harrived rfl Cache.faithful_empty
  obtain ⟨slope, w', hasked, -, hboth⟩ := hslope Unit leaning ⟨[1, 1], -1 / 2, -1 / 2, [1, -1]⟩
    ⟨1, curve 1, -segment.form [1, 0] (curve 1), g⟩ w _ rfl rfl rfl rfl rfl hfaithful hgradient
  rw [hspeed, one_mul] at hcombines hderiv hboth
  rw [one_mul] at hcombines
  exact ⟨curve, moved, hcurve, hmoved, hcombines, hderiv hepsilon, _, g, w, slope, w', hevaluate,
    hasked, hboth hepsilon⟩

/-- **Where the steps along `(1, -1)` begin to lead on, they have no derivative**, though the great
circle has. -/
theorem differential_jumps :
    segment.OnSphere ([1, 1] : Vec ℝ) ∧ segment.Tangent ([1, 1] : Vec ℝ) [1, -1] ∧
    (0 : ℝ) < Scalar.epsilon ∧
    (Scalar.epsilon : ℝ) ≤ Scalar.epsilon * segment.speed [1, -1] ∧
    (Scalar.epsilon : ℝ) < 2 + 2 * Real.cos (Scalar.epsilon * segment.speed [1, -1]) ∧
    ∃ (curve : ℝ → Vec ℝ) (moved : Vec ℝ),
      (∀ b, segment.manifold.retract [1, 1] (Vec.scale [1, -1] b) = .ok (curve b)) ∧
      Answers (segment.manifold.differential [1, 1] (Vec.scale [1, -1] Scalar.epsilon)
        (curve Scalar.epsilon) [1, -1] true) moved ∧
      ¬ ∀ i, HasDerivAt (fun b => (curve b).getD i 0) (moved.getD i 0) Scalar.epsilon := by
  have hspeed : segment.speed [1, -1] = 1 := speed_segment_opposite zero_le_one
  have hepsilon : (0 : ℝ) < Scalar.epsilon := Tolerances.epsilon_pos
  have hedge : Scalar.epsilon * segment.speed [1, -1] = Scalar.epsilon := by rw [hspeed, mul_one]
  have hapart :
      (Scalar.epsilon : ℝ) < 2 + 2 * Real.cos (Scalar.epsilon * segment.speed [1, -1]) := by
    have hcos : 0 ≤ Real.cos Scalar.epsilon := Real.cos_nonneg_of_neg_pi_div_two_le_of_le
      (by linarith [Real.pi_pos]) (by linarith [Real.pi_gt_three, epsilon_le_half])
    rw [hedge]
    linarith [epsilon_le_half]
  obtain ⟨curve, hcurve⟩ := exists_curve onSphere_segment tangent_segment
  have hmoved := answers_differential_velocity onSphere_segment tangent_segment
    (hspeed.trans_ne one_ne_zero) hapart
  rw [← curve_eq_geodesic hcurve onSphere_segment tangent_segment hedge.ge] at hmoved
  refine ⟨onSphere_segment, tangent_segment, hepsilon, hedge.ge, hapart, curve, _, hcurve, hmoved,
    fun hderiv => ?_⟩
  exact curve_jumps hcurve onSphere_segment tangent_segment epsilon_le_half hedge
    fun i => (hderiv i).continuousAt

end GeodesicDescent.Sphere
