import Mathlib
import GeodesicDescent.Proofs.Sphere.Geometry
import GeodesicDescent.Proofs.Spaces

/-!
# Great circles

Over the real numbers a step leads along the great circle that starts at the point in the direction
of the tangent vector. Only steps shorter than the precision do not: they are not told from none.

* `Sphere.speed`, `Sphere.geodesic`: the length of a tangent vector, and its great circle;
* `onSphere_geodesic`: its points are points of the sphere;
* `retract_eq_normalize`, **`retract_eq_geodesic`**: where a step leads;
* `Sphere.velocity`, **`hasDerivAt_velocity`**: the derivative of a great circle;
* **`hasDerivAt_geodesic`**: the great circle sets out in the direction of its tangent vector.
-/

namespace GeodesicDescent.Sphere

open Stateful Finset

variable [Tolerances ℝ] {s : Sphere} {x η : Vec ℝ}

/-- The length of a vector. -/
noncomputable def speed (s : Sphere) (η : Vec ℝ) : ℝ := √(s.form η η)

/-- The point after a multiple of a tangent vector on its great circle. -/
noncomputable def geodesic (s : Sphere) (x η : Vec ℝ) (a : ℝ) : Vec ℝ :=
  x.zipWith
    (fun t d => Real.cos (a * s.speed η) * t + Real.sin (a * s.speed η) / s.speed η * d) η

theorem speed_mul_self (η : Vec ℝ) : s.speed η * s.speed η = s.form η η :=
  Real.mul_self_sqrt (Vec.weightedSum_self_nonneg _ _ (fun i => (s.weight_pos i).le) η)

theorem norm_of_length (x : Vec ℝ) (hη : η.length = s.samples) :
    s.manifold.norm x η = .ok (s.speed η) := by
  show Scalar.sqrt <$> s.inner η η = _
  rw [inner_of_length hη hη]
  rfl

theorem combines_geodesic (hx : s.OnSphere x) (hη : s.Tangent x η) (a : ℝ) :
    Vec.Combines (Real.cos (a * s.speed η)) x (Real.sin (a * s.speed η) / s.speed η) η
      (s.geodesic x η a) := by
  have hlength : x.length = η.length := hx.length_eq.trans hη.length_eq.symm
  exact Vec.combines_of_combine (fun t d => rfl) (Vec.combine_of_length hlength)

theorem geodesic_zero (hx : s.OnSphere x) (hη : s.Tangent x η) : s.geodesic x η 0 = x := by
  have h := combines_geodesic hx hη 0
  refine Vec.ext_getD h.length_left fun i => ?_
  rw [h.entry, zero_mul, Real.cos_zero, Real.sin_zero, zero_div]
  ring

/-- **The points of a great circle are points of the sphere.** -/
theorem onSphere_geodesic (hx : s.OnSphere x) (hη : s.Tangent x η) (a : ℝ) :
    s.OnSphere (s.geodesic x η a) := by
  have h := combines_geodesic hx hη a
  have hlength := h.length_left.trans hx.length_eq
  refine inner_eq_ok.2 ⟨hlength, hlength, ?_⟩
  have hsquare : (Real.sin (a * s.speed η) / s.speed η) ^ 2 * s.form η η =
      Real.sin (a * s.speed η) ^ 2 := by
    rw [← speed_mul_self]
    by_cases hzero : s.speed η = 0
    · rw [hzero, mul_zero, Real.sin_zero]
      ring
    · field_simp
  rw [form_combines h, form_comm x, form_comm η, form_combines h, form_combines h,
    hx.form_eq_one, hη.form_eq_zero, form_comm η x, hη.form_eq_zero]
  linear_combination hsquare + Real.cos_sq_add_sin_sq (a * s.speed η)

theorem normalize_of_onSphere (hx : s.OnSphere x) : s.normalize x = .ok x := by
  have hone : Scalar.sqrt (1 : ℝ) = 1 := Real.sqrt_one
  have hepsilon : (Scalar.epsilon : ℝ) < 1 := Tolerances.epsilon_lt_one
  refine checked_bind_eq_ok.2 ⟨1, hx, ?_⟩
  rw [hone]
  show Except.ok (if Scalar.epsilon < 1 then Vec.divide x 1 else s.spike) = _
  rw [if_pos hepsilon, Vec.divide_one]

theorem cos_sin_of_abs {a r : ℝ} (ha : a ≠ 0) (hr : r ≠ 0) : Real.cos (|a| * r) = Real.cos (a * r) ∧
    a * (Real.sin (|a| * r) / (|a| * r)) = Real.sin (a * r) / r := by
  rcases abs_choice a with habs | habs
  · rw [habs]
    refine ⟨rfl, ?_⟩
    field_simp
  · rw [habs, neg_mul, Real.cos_neg, Real.sin_neg, neg_div_neg_eq]
    refine ⟨rfl, ?_⟩
    field_simp

theorem speed_scale (η : Vec ℝ) (a : ℝ) : s.speed (Vec.scale η a) = |a| * s.speed η := by
  rw [speed, form_scale, form_comm, form_scale, ← mul_assoc, Real.sqrt_mul (mul_self_nonneg a),
    Real.sqrt_mul_self_eq_abs]
  rfl

theorem length_moved (hx : x.length = s.samples) (hη : η.length = s.samples) (a b : ℝ) :
    (Vec.scale x a).length = (Vec.scale η b).length := by
  rw [Vec.length_scale, Vec.length_scale, hx, hη]

/-- The point scaled by the cosine, with the sine along a step that is not short, at unit norm. -/
theorem retract_eq_normalize {v : Vec ℝ} (hx : x.length = s.samples) (hη : η.length = s.samples)
    (hshort : s.speed η < Scalar.epsilon → v = Vec.scale x (Real.cos (s.speed η)))
    (hlong : Scalar.epsilon ≤ s.speed η → Vec.add (Vec.scale x (Real.cos (s.speed η)))
      (Vec.scale η (Real.sin (s.speed η) / s.speed η)) = .ok v) :
    s.retract x η = s.normalize v := by
  rw [retract, (requireLength_eq_ok (r := ())).2 hx, (requireLength_eq_ok (r := ())).2 hη,
    inner_of_length hη hη]
  by_cases h : s.speed η < Scalar.epsilon
  · rw [hshort h]
    exact if_pos h
  · refine (if_neg h).trans ?_
    exact congrArg (· >>= s.normalize) (hlong (not_lt.1 h))

theorem add_eq_geodesic (hx : s.OnSphere x) (hη : s.Tangent x η) {a : ℝ}
    (hne : s.speed (Vec.scale η a) ≠ 0) :
    Vec.add (Vec.scale x (Real.cos (s.speed (Vec.scale η a))))
      (Vec.scale (Vec.scale η a)
        (Real.sin (s.speed (Vec.scale η a)) / s.speed (Vec.scale η a))) =
      .ok (s.geodesic x η a) := by
  have hstep : (Vec.scale η a).length = s.samples := (Vec.length_scale _ _).trans hη.length_eq
  rw [speed_scale] at hne ⊢
  obtain ⟨hcos, hsin⟩ := cos_sin_of_abs (abs_ne_zero.1 (left_ne_zero_of_mul hne))
    (right_ne_zero_of_mul hne)
  have hsum := length_moved hx.length_eq hstep (Real.cos (|a| * s.speed η))
    (Real.sin (|a| * s.speed η) / (|a| * s.speed η))
  have hadd := Vec.combines_add (Vec.combine_of_length hsum)
  have hgeodesic := combines_geodesic hx hη a
  rw [Vec.add, Vec.combine_of_length hsum, Except.ok.injEq]
  refine Vec.ext_getD ?_ fun i => ?_
  · rw [hadd.length_left, hgeodesic.length_left, Vec.length_scale]
  · rw [hadd.entry, hgeodesic.entry, Vec.getD_scale, Vec.getD_scale, Vec.getD_scale, hcos, ← hsin]
    ring

/-- **A step leads along the great circle**, unless it is shorter than the precision. -/
theorem retract_eq_geodesic (hx : s.OnSphere x) (hη : s.Tangent x η) {a : ℝ}
    (hlong : Scalar.epsilon ≤ |a| * s.speed η) :
    s.retract x (Vec.scale η a) = .ok (s.geodesic x η a) := by
  rw [← speed_scale] at hlong
  have hpos : 0 < s.speed (Vec.scale η a) := Tolerances.epsilon_pos.trans_le hlong
  rw [retract_eq_normalize hx.length_eq ((Vec.length_scale _ _).trans hη.length_eq)
    (fun hshort => absurd hlong (not_le.2 hshort)) fun _ => add_eq_geodesic hx hη hpos.ne']
  exact normalize_of_onSphere (onSphere_geodesic hx hη a)

/-! ## The direction of a great circle -/

theorem getD_eq_zero_of_speed (hη : η.length = s.samples) (h : s.speed η = 0) (i : Nat) :
    η.getD i 0 = 0 := by
  have hsum : s.form η η = 0 := by rw [← speed_mul_self, h, mul_zero]
  by_cases hi : i < s.samples
  · have hterm := (sum_eq_zero_iff_of_nonneg fun j _ =>
      mul_nonneg (s.weight_pos j).le (mul_self_nonneg (η.getD j 0))).1 hsum i (mem_range.2 hi)
    exact mul_self_eq_zero.1 ((mul_eq_zero.1 hterm).resolve_left (s.weight_pos i).ne')
  · exact Vec.getD_of_le (by omega)

/-- The velocity of a great circle after a multiple of its tangent vector. -/
noncomputable def velocity (s : Sphere) (x η : Vec ℝ) (a : ℝ) : Vec ℝ :=
  η.zipWith
    (fun d t => Real.cos (a * s.speed η) * d + -(s.speed η * Real.sin (a * s.speed η)) * t) x

theorem combines_velocity (hx : s.OnSphere x) (hη : s.Tangent x η) (a : ℝ) :
    Vec.Combines (Real.cos (a * s.speed η)) η (-(s.speed η * Real.sin (a * s.speed η))) x
      (s.velocity x η a) := by
  have hlength : η.length = x.length := hη.length_eq.trans hx.length_eq.symm
  exact Vec.combines_of_combine (fun d t => rfl) (Vec.combine_of_length hlength)

/-- **The velocity is the derivative of the great circle.** -/
theorem hasDerivAt_velocity (hx : s.OnSphere x) (hη : s.Tangent x η) (a : ℝ) (i : Nat) :
    HasDerivAt (fun b => (s.geodesic x η b).getD i 0) ((s.velocity x η a).getD i 0) a := by
  have hentry : (fun b => (s.geodesic x η b).getD i 0) = fun b =>
      Real.cos (b * s.speed η) * x.getD i 0 +
        Real.sin (b * s.speed η) / s.speed η * η.getD i 0 :=
    funext fun b => (combines_geodesic hx hη b).entry i
  have hangle : HasDerivAt (fun b : ℝ => b * s.speed η) (s.speed η) a := hasDerivAt_mul_const _
  rw [hentry, (combines_velocity hx hη a).entry]
  refine ((hangle.cos.mul_const _).add ((hangle.sin.div_const _).mul_const _)).congr_deriv ?_
  by_cases hzero : s.speed η = 0
  · rw [getD_eq_zero_of_speed hη.length_eq hzero, hzero]
    ring
  · field_simp
    ring

/-- **The great circle sets out in the direction of its tangent vector.** -/
theorem hasDerivAt_geodesic (hx : s.OnSphere x) (hη : s.Tangent x η) (i : Nat) :
    HasDerivAt (fun a => (s.geodesic x η a).getD i 0) (η.getD i 0) 0 := by
  refine (hasDerivAt_velocity hx hη 0 i).congr_deriv ?_
  rw [(combines_velocity hx hη 0).entry, zero_mul, Real.cos_zero, Real.sin_zero]
  ring

end GeodesicDescent.Sphere
