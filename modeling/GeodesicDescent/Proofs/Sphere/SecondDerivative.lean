import GeodesicDescent.Proofs.Sphere.Geodesic
import GeodesicDescent.Proofs.Sphere.SelfAdjoint

/-!
# Second derivatives along great circles

A great circle turns away from its tangent plane, and so the second derivative of a function along
it is not that of the ambient Hessian: it is less by the inner product of the gradient with the
point, for each square of the speed. A conversion takes away a multiple of the multiplication by the
squares of the point instead, so that it gives the Hessian only where the two agree.

* `Sphere.quadratic`: a quadratic function and its value on combinations of two vectors;
* `arcValue`, **`hasDerivAt_arcValue`**: quadratic polynomials in the coordinates of an arc, which
  their derivatives are too;
* `exists_arc`: the coordinates of a great circle;
* `Sphere.trueHessian`, **`exists_second_derivative`**: the second derivative along a great circle;
* **`convertHessian_misses`**: by how much a conversion differs from the Hessian;
* `convertHessian_not_hessian`: a conversion that differs.
-/

namespace GeodesicDescent.Sphere

open Stateful

/-! ## Arcs -/

/-- A quadratic polynomial in two coordinates, without a constant. -/
def arcValue (α β γ δ ε c σ : ℝ) : ℝ := α * c ^ 2 + β * (c * σ) + γ * σ ^ 2 + δ * c + ε * σ

/-- **Along an arc the derivative of a quadratic polynomial is another one.** -/
theorem hasDerivAt_arcValue {c σ : ℝ → ℝ} {k : ℝ} (hc : ∀ a, HasDerivAt c (-(k * σ a)) a)
    (hσ : ∀ a, HasDerivAt σ (c a) a) (α β γ δ ε a : ℝ) :
    HasDerivAt (fun a => arcValue α β γ δ ε (c a) (σ a))
      (arcValue β (2 * (γ - k * α)) (-(k * β)) ε (-(k * δ)) (c a) (σ a)) a := by
  have hsquare := ((hc a).pow 2).const_mul α
  have hproduct := ((hc a).mul (hσ a)).const_mul β
  have hsquare' := ((hσ a).pow 2).const_mul γ
  refine ((((hsquare.add hproduct).add hsquare').add ((hc a).const_mul δ)).add
    ((hσ a).const_mul ε)).congr_deriv ?_
  unfold arcValue
  push_cast
  ring

section Circles

variable [Tolerances ℝ] {s : Sphere} {x η b gradient : Vec ℝ} {A : Vec ℝ → Vec ℝ}

theorem exists_arc (hx : s.OnSphere x) (hη : s.Tangent x η) : ∃ c σ : ℝ → ℝ,
    (∀ a, HasDerivAt c (-(s.form η η * σ a)) a) ∧ (∀ a, HasDerivAt σ (c a) a) ∧
    c 0 = 1 ∧ σ 0 = 0 ∧ ∀ a, Vec.Combines (c a) x (σ a) η (s.geodesic x η a) := by
  by_cases hzero : s.speed η = 0
  · -- The great circle stays at its point, where the second coordinate does not show.
    refine ⟨fun _ => 1, id, fun a => ?_, hasDerivAt_id, rfl, rfl, fun a => ?_⟩
    · rw [← speed_mul_self, hzero, zero_mul, zero_mul, neg_zero]
      exact hasDerivAt_const _ _
    · have h := combines_geodesic hx hη a
      refine ⟨h.length_left, h.length_right, fun i => ?_⟩
      rw [h.entry, getD_eq_zero_of_speed hη.length_eq hzero, hzero, mul_zero, Real.cos_zero,
        mul_zero, mul_zero]
  · have hangle (a : ℝ) : HasDerivAt (fun b : ℝ => b * s.speed η) (s.speed η) a :=
      hasDerivAt_mul_const _
    refine ⟨fun a => Real.cos (a * s.speed η), fun a => Real.sin (a * s.speed η) / s.speed η,
      fun a => ?_, fun a => ?_, ?_, ?_, combines_geodesic hx hη⟩
    · refine (hangle a).cos.congr_deriv ?_
      rw [← speed_mul_self]
      field_simp
    · refine ((hangle a).sin.div_const _).congr_deriv ?_
      field_simp
    · dsimp only
      rw [zero_mul, Real.cos_zero]
    · dsimp only
      rw [zero_mul, Real.sin_zero, zero_div]

/-! ## Quadratic functions -/

/-- The function with a linear gradient, for the inner product of the sphere. -/
noncomputable def quadratic (s : Sphere) (A : Vec ℝ → Vec ℝ) (b y : Vec ℝ) : ℝ :=
  0.5 * s.form y (A y) + s.form b y

theorem quadratic_combines {p q : ℝ} {y : Vec ℝ} (hA : s.SelfAdjoint A)
    (hx : x.length = s.samples) (hη : η.length = s.samples) (h : Vec.Combines p x q η y) :
    s.quadratic A b y = arcValue (s.form x (A x) / 2) (s.form (A x) η) (s.form η (A η) / 2)
      (s.form b x) (s.form b η) p q := by
  have hlinear := hA.combines hx h
  have hcross : s.form x (A η) = s.form (A x) η := (hA.form_eq hx hη).symm
  rw [quadratic, scientific_half, form_combines h, form_comm x (A y), form_comm η (A y),
    form_combines hlinear, form_combines hlinear, form_comm b, form_combines h,
    form_comm (A x) x, form_comm (A η) x,
    hcross, form_comm (A η) η, form_comm x b, form_comm η b]
  unfold arcValue
  ring

/-- The Hessian on the sphere of a function with a gradient and an ambient Hessian: the tangent part
of the ambient product, less what a great circle turns by. -/
noncomputable def trueHessian (s : Sphere) (gradient x : Vec ℝ) (A : Vec ℝ → Vec ℝ) (η : Vec ℝ) :
    Vec ℝ :=
  (s.tangentPart x (A η)).zipWith (· - ·) (Vec.scale η (s.form gradient x))

theorem combines_trueHessian (gradient : Vec ℝ) (hA : s.SelfAdjoint A) (hx : s.OnSphere x)
    (hη : s.Tangent x η) :
    Vec.Combines 1 (s.tangentPart x (A η)) (-(s.form gradient x)) η
      (s.trueHessian gradient x A η) := by
  have hpart := tangent_tangentPart hx (hA.length_eq hη.length_eq)
  exact Vec.combines_sub_scale (hpart.length_eq.trans hη.length_eq.symm) _

/-- **The second derivative along a great circle** is the inner product of the Hessian with the
tangent vector. -/
theorem exists_second_derivative (hx : s.OnSphere x) (hη : s.Tangent x η) (hA : s.SelfAdjoint A)
    (hgradient : Vec.Combines 1 (A x) 1 b gradient) : ∃ slope : ℝ → ℝ,
      (∀ a, HasDerivAt (fun a => s.quadratic A b (s.geodesic x η a)) (slope a) a) ∧
      s.inner gradient η = .ok (slope 0) ∧
      ∃ second, HasDerivAt slope second 0 ∧
        s.inner (s.trueHessian gradient x A η) η = .ok second := by
  obtain ⟨c, σ, hc, hσ, hc₀, hσ₀, hcombines⟩ := exists_arc hx hη
  have hvalue : (fun a => s.quadratic A b (s.geodesic x η a)) = fun a =>
      arcValue (s.form x (A x) / 2) (s.form (A x) η) (s.form η (A η) / 2) (s.form b x)
        (s.form b η) (c a) (σ a) :=
    funext fun a => quadratic_combines hA hx.length_eq hη.length_eq (hcombines a)
  rw [hvalue]
  have hpart := tangent_tangentPart hx (hA.length_eq hη.length_eq)
  have htrue := combines_trueHessian gradient hA hx hη
  refine ⟨_, hasDerivAt_arcValue hc hσ _ _ _ _ _, ?_, _, hasDerivAt_arcValue hc hσ _ _ _ _ _ 0, ?_⟩
  · rw [inner_of_length (hgradient.length_left.trans (hA.length_eq hx.length_eq)) hη.length_eq,
      Except.ok.injEq, form_combines hgradient, hc₀, hσ₀]
    unfold arcValue
    ring
  · rw [inner_of_length (htrue.length_left.trans hpart.length_eq) hη.length_eq, Except.ok.injEq,
      form_combines htrue, form_tangentPart hx.length_eq (hA.length_eq hη.length_eq) hη,
      form_combines hgradient, hc₀, hσ₀, form_comm (A η) η, form_comm (A x) x]
    unfold arcValue
    ring

/-! ## Conversions -/

theorem form_cubes_pos (hx : s.OnSphere x) : 0 < s.form (cubes x) (cubes x) := by
  refine Vec.weightedSum_self_pos _ _ s.weight_pos
    ((List.length_map _).trans hx.length_eq).le ?_
  by_contra hnone
  push Not at hnone
  have hzero (i : Nat) : x.getD i 0 = 0 := by
    by_cases hi : i < x.length
    · have hcube := hnone _ (List.mem_map_of_mem (List.getElem_mem hi))
      rw [List.getD_eq_getElem _ _ hi]
      simpa using hcube
    · exact Vec.getD_of_le (not_lt.1 hi)
  have hform : s.form x x = 0 := Finset.sum_eq_zero fun i _ => by rw [hzero i]; ring
  exact zero_ne_one (hform.symm.trans hx.form_eq_one)

theorem combines_hessian (gradient : Vec ℝ) (hx : s.OnSphere x) (hη : s.Tangent x η)
    (hA : s.SelfAdjoint A) :
    Vec.Combines 1 (s.tangentPart x (A η)) (-(s.correction gradient x))
      (s.tangentPart x (Vec.products (Vec.products x x) η)) (s.hessian gradient x A η) := by
  have hsquares := (selfAdjoint_squares hx.length_eq).length_eq hη.length_eq
  have hproduct := hA.length_eq hη.length_eq
  exact tangentPart_combines hx.length_eq hproduct
    (Vec.combines_sub_scale (hproduct.trans hsquares.symm) _)

theorem convertGradient_eq {usage : Usage} (hx : s.OnSphere x)
    (hgradient : gradient.length = s.samples) (husage : usage.hessian = true) (c : Cache ℝ) :
    s.manifold.convertGradient x gradient usage c =
      (.ok (s.tangentPart x gradient), c.keepGradient x gradient) := by
  rw [convertGradient_apply, projectTangent_eq hx.length_eq hgradient, if_pos husage]

/-- **By how much a conversion differs from the Hessian**: by the tangent part of the squares
against what the great circle turns by. -/
theorem convertHessian_misses {usage : Usage} (hx : s.OnSphere x) (hη : s.Tangent x η)
    (hA : s.SelfAdjoint A) (hgradient : Vec.add (A x) b = .ok gradient)
    (husage : usage.hessian = true) (c : Cache ℝ) :
    ∃ κ u w p q h c',
      κ * s.form (cubes x) (cubes x) = 3 * s.form gradient (cubes x) ∧
      0 < s.form (cubes x) (cubes x) ∧
      s.manifold.convertGradient x gradient usage c = (.ok u, c') ∧
      s.manifold.convertHessian x η (A η) c' = (.ok w, c') ∧
      s.manifold.projectTangent x (A η) = .ok p ∧
      s.manifold.projectTangent x (Vec.products (Vec.products x x) η) = .ok q ∧
      Vec.Combines 1 p (-κ) q w ∧ Vec.Combines 1 p (-(s.form gradient x)) η h ∧
      (w = h ↔ ∀ i, κ * q.getD i 0 = s.form gradient x * η.getD i 0) ∧
      (s.inner w η = s.inner h η ↔ κ * s.form q η = s.form gradient x * s.form η η) ∧
      (∃ slope : ℝ → ℝ,
        (∀ a, HasDerivAt (fun a => s.quadratic A b (s.geodesic x η a)) (slope a) a) ∧
        s.inner gradient η = .ok (slope 0) ∧
        ∃ second, HasDerivAt slope second 0 ∧ s.inner h η = .ok second) ∧
      ∀ a, Scalar.epsilon ≤ |a| * s.speed η →
        s.manifold.retract x (Vec.scale η a) = .ok (s.geodesic x η a) := by
  have hsum := Vec.combines_add hgradient
  have hlength : gradient.length = s.samples :=
    hsum.length_left.trans (hA.length_eq hx.length_eq)
  have hcubes := form_cubes_pos hx
  have hkept : (c.keepGradient x gradient).gradientFor? x = some gradient :=
    gradientFor?_eq_some.2 rfl
  have hsquares := (selfAdjoint_squares hx.length_eq).length_eq hη.length_eq
  have hproduct := hA.length_eq hη.length_eq
  have hconverted := combines_hessian gradient hx hη hA
  have htrue := combines_trueHessian gradient hA hx hη
  have hw := hconverted.length_left.trans (tangent_tangentPart hx hproduct).length_eq
  have hh := htrue.length_left.trans (tangent_tangentPart hx hproduct).length_eq
  refine ⟨s.correction gradient x, _, _, _, _, s.trueHessian gradient x A η, _,
    div_mul_cancel₀ _ hcubes.ne', hcubes, convertGradient_eq hx hlength husage c,
    convertHessian_eq hx.length_eq hA hlength hkept hη.length_eq,
    projectTangent_eq hx.length_eq hproduct, projectTangent_eq hx.length_eq hsquares, hconverted,
    htrue, ⟨fun h i => ?_, fun h => ?_⟩, ?_, exists_second_derivative hx hη hA hsum,
    fun a => retract_eq_geodesic hx hη⟩
  · have hentry := hconverted.entry i
    rw [h, htrue.entry] at hentry
    linear_combination hentry
  · refine Vec.ext_getD (hw.trans hh.symm) fun i => ?_
    rw [hconverted.entry, htrue.entry]
    linear_combination -h i
  · rw [inner_of_length hw hη.length_eq, inner_of_length hh hη.length_eq, Except.ok.injEq,
      form_combines hconverted, form_combines htrue]
    constructor <;> intro h <;> linear_combination -h

end Circles

/-! ## Three samples -/

theorem tangent_triple_odd : triple.Tangent ([1, 1, 1] : Vec ℝ) [1, 0, -1] := by
  refine inner_eq_ok.2 ⟨rfl, rfl, ?_⟩
  rw [form_triple]
  norm_num

theorem products_odd : Vec.products [1, 2, 1] ([1, 0, -1] : Vec ℝ) = [1, 0, -1] := by
  norm_num [Vec.products]

theorem products_ones : Vec.products [1, 2, 1] ([1, 1, 1] : Vec ℝ) = [1, 2, 1] := by
  norm_num [Vec.products]

/-- Where the gradient is orthogonal to the point, nothing is taken away, and a conversion gives the
second derivative. -/
theorem convertHessian_misses_triple :
    ∃ (u w : Vec ℝ) (c : Cache ℝ),
      triple.manifold.convertGradient [1, 1, 1] [2, -2, 2] { hessian := true } {} = (.ok u, c) ∧
      triple.manifold.convertHessian [1, 1, 1] [1, 0, -1] [1, 0, -1] c = (.ok w, c) ∧
      ∃ slope : ℝ → ℝ,
        (∀ a, HasDerivAt (fun a => triple.quadratic (Vec.products [1, 2, 1]) [1, -4, 1]
          (triple.geodesic [1, 1, 1] [1, 0, -1] a)) (slope a) a) ∧
        ∃ second, HasDerivAt slope second 0 ∧ triple.inner w [1, 0, -1] = .ok second := by
  have hgradient : Vec.add (Vec.products [1, 2, 1] [1, 1, 1]) [1, -4, 1] =
      .ok ([2, -2, 2] : Vec ℝ) := by
    rw [products_ones]
    norm_num [Vec.add, Vec.combine]
  have horthogonal : triple.form [2, -2, 2] ([1, 1, 1] : Vec ℝ) = 0 := by
    rw [form_triple]
    norm_num
  have husage : ({ hessian := true } : Usage).hessian = true := rfl
  obtain ⟨κ, u, w, p, q, h, c, hκ, hpos, hu, hw, -, -, -, -, hsame, -, ⟨slope, hslope, -, second,
    hsecond, hinner⟩, -⟩ := convertHessian_misses onSphere_triple tangent_triple_odd
      (selfAdjoint_products (d := [1, 2, 1]) rfl) hgradient husage {}
  have hzero : κ = 0 := by
    have hcubes : cubes ([1, 1, 1] : Vec ℝ) = [1, 1, 1] := by norm_num [cubes]
    rw [hcubes, horthogonal, mul_zero] at hκ
    rw [hcubes] at hpos
    exact (mul_eq_zero.1 hκ).resolve_right hpos.ne'
  obtain rfl := hsame.2 fun i => by rw [hzero, horthogonal, zero_mul, zero_mul]
  rw [products_odd] at hw
  exact ⟨u, w, c, hu, hw, slope, hslope, second, hsecond, hinner⟩

/-- **A conversion that is not the Hessian**: it takes a vector away six times, not twice. -/
theorem convertHessian_not_hessian :
    triple.OnSphere ([1, 1, 1] : Vec ℝ) ∧ triple.Tangent ([1, 1, 1] : Vec ℝ) [1, 0, -1] ∧
      triple.SelfAdjoint (Vec.products ([1, 2, 1] : Vec ℝ)) ∧
      Vec.add (Vec.products [1, 2, 1] [1, 1, 1]) [1, 0, 1] = .ok ([2, 2, 2] : Vec ℝ) ∧
      Vec.products [1, 2, 1] ([1, 0, -1] : Vec ℝ) = [1, 0, -1] ∧
      (∃ (u : Vec ℝ) (c : Cache ℝ),
        triple.manifold.convertGradient [1, 1, 1] [2, 2, 2] { hessian := true } {} = (.ok u, c) ∧
        triple.manifold.convertHessian [1, 1, 1] [1, 0, -1] [1, 0, -1] c = (.ok [-5, 0, 5], c)) ∧
      triple.projectTangent [1, 1, 1] ([1, 0, -1] : Vec ℝ) = .ok [1, 0, -1] ∧
      triple.inner [2, 2, 2] ([1, 1, 1] : Vec ℝ) = .ok 2 ∧
      Vec.sub [1, 0, -1] (Vec.scale [1, 0, -1] 2) = .ok ([-1, 0, 1] : Vec ℝ) ∧
      triple.inner [-5, 0, 5] ([1, 0, -1] : Vec ℝ) = .ok (-5 / 2) ∧
      ∃ slope : ℝ → ℝ,
        (∀ a, HasDerivAt (fun a => triple.quadratic (Vec.products [1, 2, 1]) [1, 0, 1]
          (triple.geodesic [1, 1, 1] [1, 0, -1] a)) (slope a) a) ∧
        HasDerivAt slope (-1 / 2) 0 := by
  have hA : triple.SelfAdjoint (Vec.products ([1, 2, 1] : Vec ℝ)) := selfAdjoint_products rfl
  have hgradient : Vec.add (Vec.products [1, 2, 1] [1, 1, 1]) [1, 0, 1] =
      .ok ([2, 2, 2] : Vec ℝ) := by
    rw [products_ones]
    norm_num [Vec.add, Vec.combine]
  have hform (a b c d e f : ℝ) :
      triple.inner [a, b, c] [d, e, f] = .ok ((a * d + 2 * (b * e) + c * f) / 4) := by
    rw [← form_triple]
    exact inner_of_length rfl rfl
  have hconverted : triple.hessian [2, 2, 2] [1, 1, 1] (Vec.products [1, 2, 1]) [1, 0, -1] =
      ([-5, 0, 5] : Vec ℝ) := by
    norm_num [hessian, corrected, correction, tangentPart, cubes, Vec.products, Vec.scale,
      form_triple]
  have hpart : triple.tangentPart [1, 1, 1] [1, 0, -1] = ([1, 0, -1] : Vec ℝ) := by
    norm_num [tangentPart, Vec.scale, form_triple]
  have htrue : triple.trueHessian [2, 2, 2] [1, 1, 1] (Vec.products [1, 2, 1]) [1, 0, -1] =
      ([-1, 0, 1] : Vec ℝ) := by
    rw [trueHessian, products_odd, hpart]
    norm_num [Vec.scale, form_triple]
  have hwith := convertHessian_eq onSphere_triple.length_eq hA rfl
    (gradientFor?_eq_some.2 rfl : (({} : Cache ℝ).keepGradient [1, 1, 1] [2, 2, 2]).gradientFor?
      [1, 1, 1] = some [2, 2, 2]) (η := [1, 0, -1]) rfl
  rw [products_odd, hconverted] at hwith
  obtain ⟨slope, hslope, -, second, hsecond, hinner⟩ := exists_second_derivative onSphere_triple
    tangent_triple_odd hA (Vec.combines_add hgradient)
  have hvalue : second = -1 / 2 := by
    rw [htrue, hform, Except.ok.injEq] at hinner
    linarith
  refine ⟨onSphere_triple, tangent_triple_odd, hA, hgradient, products_odd,
    ⟨_, _, convertGradient_eq onSphere_triple rfl rfl {}, hwith⟩, ?_, ?_, ?_, ?_, slope, hslope,
    hvalue ▸ hsecond⟩
  · exact (projectTangent_eq rfl rfl).trans (congrArg _ hpart)
  · norm_num [hform]
  · norm_num [Vec.sub, Vec.combine, Vec.scale]
  · norm_num [hform]

end GeodesicDescent.Sphere
