import GeodesicDescent.Proofs.Sphere.Nearest
import GeodesicDescent.Proofs.Sphere.Reflection

/-!
# Transport along a great circle

Over the real numbers the reflection carries the tangent vector of a step to the velocity of its
great circle at the point that the step leads to. There it leads on along the same great circle, so
that steps along one direction add up.

* `form_geodesic`, `form_geodesic_tangent`: the inner products along a great circle;
* `tangent_velocity`, `speed_velocity`: the velocity is tangent, and as long as the tangent vector;
* `apart_geodesic_iff`: which points of a great circle are apart from its start;
* **`answers_transport_velocity`**: what the tangent vector is carried to;
* **`geodesic_velocity`**: the great circle that leads on;
* **`retract_transported`**: steps along one direction add up.
-/

namespace GeodesicDescent.Sphere

open Stateful

section Velocity

variable [Tolerances ℝ] {s : Sphere} {x η : Vec ℝ} {a b : ℝ}

/-! ## Inner products along a great circle -/

theorem sin_div_speed_mul (η : Vec ℝ) (a : ℝ) :
    Real.sin (a * s.speed η) / s.speed η * s.form η η = s.speed η * Real.sin (a * s.speed η) := by
  rw [← speed_mul_self]
  by_cases hzero : s.speed η = 0
  · rw [hzero]
    ring
  · field_simp

theorem form_geodesic (hx : s.OnSphere x) (hη : s.Tangent x η) (a : ℝ) :
    s.form x (s.geodesic x η a) = Real.cos (a * s.speed η) := by
  rw [form_comm, form_combines (combines_geodesic hx hη a), hx.form_eq_one, form_comm η,
    hη.form_eq_zero]
  ring

theorem form_geodesic_tangent (hx : s.OnSphere x) (hη : s.Tangent x η) (a : ℝ) :
    s.form η (s.geodesic x η a) = s.speed η * Real.sin (a * s.speed η) := by
  rw [form_comm, form_combines (combines_geodesic hx hη a), hη.form_eq_zero, sin_div_speed_mul]
  ring

theorem tangent_velocity (hx : s.OnSphere x) (hη : s.Tangent x η) (a : ℝ) :
    s.Tangent (s.geodesic x η a) (s.velocity x η a) := by
  have h := combines_velocity hx hη a
  refine inner_eq_ok.2 ⟨(onSphere_geodesic hx hη a).length_eq, h.length_left.trans hη.length_eq, ?_⟩
  rw [form_comm, form_combines h, form_geodesic hx hη, form_geodesic_tangent hx hη]
  ring

theorem speed_velocity (hx : s.OnSphere x) (hη : s.Tangent x η) (a : ℝ) :
    s.speed (s.velocity x η a) = s.speed η := by
  have h := combines_velocity hx hη a
  have hsquare : s.form (s.velocity x η a) (s.velocity x η a) = s.form η η := by
    rw [form_combines h, form_comm η, form_comm x, form_combines h, form_combines h,
      hx.form_eq_one, form_comm η x, hη.form_eq_zero, ← speed_mul_self]
    linear_combination s.speed η * s.speed η * Real.cos_sq_add_sin_sq (a * s.speed η)
  rw [speed, hsquare]
  rfl

/-- A point of a great circle is apart from its start unless it is almost opposite. -/
theorem apart_geodesic_iff (hx : s.OnSphere x) (hη : s.Tangent x η) (a : ℝ) :
    s.Apart x (s.geodesic x η a) ↔ Scalar.epsilon < 2 + 2 * Real.cos (a * s.speed η) := by
  have hy := onSphere_geodesic hx hη a
  have hlength : x.length = (s.geodesic x η a).length := hx.length_eq.trans hy.length_eq.symm
  have hadd : Vec.add x (s.geodesic x η a) = _ := Vec.combine_of_length hlength
  have hsum := Vec.combines_add hadd
  have hslength := hsum.length_left.trans hx.length_eq
  have hsquared : s.inner (x.zipWith (· + ·) (s.geodesic x η a))
      (x.zipWith (· + ·) (s.geodesic x η a)) = .ok (2 + 2 * Real.cos (a * s.speed η)) := by
    rw [inner_of_length hslength hslength, form_combines hsum, form_comm x (x.zipWith _ _),
      form_comm (s.geodesic x η a) (x.zipWith _ _), form_combines hsum, form_combines hsum,
      hx.form_eq_one, hy.form_eq_one, form_comm _ x, form_geodesic hx hη, Except.ok.injEq]
    ring
  constructor
  · rintro ⟨_, squared, hsum', hsquared', hlong⟩
    obtain rfl := Except.ok.inj (hadd.symm.trans hsum')
    obtain rfl := Except.ok.inj (hsquared.symm.trans hsquared')
    exact hlong
  · exact fun hlong => ⟨_, _, hadd, hsquared, hlong⟩

/-! ## Transport -/

theorem velocity_entry {c σ ρ t d : ℝ} (hc : 1 + c ≠ 0) (hρ : ρ ≠ 0) (hcircle : c ^ 2 + σ ^ 2 = 1) :
    d + -(2 * (ρ * σ)) * ((2 * (1 + c))⁻¹ * (t + (c * t + σ / ρ * d))) =
      c * d + -(ρ * σ) * t := by
  field_simp
  linear_combination -d * hcircle

/-- **The tangent vector of a step is carried to the velocity** at the point it leads to. -/
theorem answers_transport_velocity (hx : s.OnSphere x) (hη : s.Tangent x η) (hρ : s.speed η ≠ 0)
    (hapart : s.Apart x (s.geodesic x η a)) :
    Answers (s.transport x (s.geodesic x η a) η) (s.velocity x η a) := by
  have hy := onSphere_geodesic hx hη a
  have hgeodesic := combines_geodesic hx hη a
  have hvelocity := combines_velocity hx hη a
  obtain ⟨d, hd, h⟩ := hapart.reflects
  obtain ⟨image, hanswer, himage⟩ := answers_transport hd h hη.length_eq
  obtain ⟨sum, hsum, hpos, rfl⟩ := reflection_eq_divide hx hy hd
  rw [form_geodesic hx hη] at hpos himage
  rw [form_geodesic_tangent hx hη] at himage
  have hne : 1 + Real.cos (a * s.speed η) ≠ 0 := (pos_of_mul_pos_right hpos two_pos.le).ne'
  have heq : image = s.velocity x η a := by
    refine Vec.ext_getD (himage.length_left.trans hvelocity.length_left.symm) fun i => ?_
    rw [himage.entry, hvelocity.entry, Vec.getD_divide, hsum.entry, hgeodesic.entry, one_mul,
      one_mul, one_mul]
    exact velocity_entry hne hρ (Real.cos_sq_add_sin_sq _)
  exact heq ▸ hanswer

/-! ## Steps that follow each other -/

/-- **The velocity leads on along the same great circle.** -/
theorem geodesic_velocity (hx : s.OnSphere x) (hη : s.Tangent x η) (hρ : s.speed η ≠ 0) :
    s.geodesic (s.geodesic x η a) (s.velocity x η a) b = s.geodesic x η (a + b) := by
  have hy := onSphere_geodesic hx hη a
  have h := combines_geodesic hx hη a
  have hnext := combines_geodesic hy (tangent_velocity hx hη a) b
  have hsum := combines_geodesic hx hη (a + b)
  refine Vec.ext_getD ?_ fun i => ?_
  · rw [hnext.length_left, h.length_left, hsum.length_left]
  · rw [hnext.entry, h.entry, (combines_velocity hx hη a).entry, hsum.entry,
      speed_velocity hx hη, add_mul, Real.cos_add, Real.sin_add]
    field_simp
    ring

theorem retract_zero (hx : s.OnSphere x) (hη : s.Tangent x η) :
    s.retract x (Vec.scale η 0) = .ok x := by
  have hspeed : s.speed (Vec.scale η 0) = 0 := by
    rw [speed_scale, abs_zero, zero_mul]
  refine retract_of_short hx ((Vec.length_scale _ _).trans hη.length_eq) ?_ ?_
  · rw [hspeed]
    exact Tolerances.epsilon_pos
  · rw [hspeed, Real.cos_zero]
    exact Tolerances.epsilon_lt_one

/-- **Steps along one direction add up**, or undo each other. -/
theorem retract_transported (hx : s.OnSphere x) (hη : s.Tangent x η)
    (ha : Scalar.epsilon ≤ |a| * s.speed η) (hb : Scalar.epsilon ≤ |b| * s.speed η)
    (hab : Scalar.epsilon ≤ |a + b| * s.speed η ∨ b = -a) :
    ∃ y, s.manifold.retract x (Vec.scale η a) = .ok y ∧ (s.Apart x y →
      ∃ moved z, Answers (s.manifold.transport x (Vec.scale η a) y η) moved ∧
        s.manifold.retract y (Vec.scale moved b) = .ok z ∧
        s.manifold.retract x (Vec.scale η (a + b)) = .ok z ∧ (b = -a → z = x)) := by
  have hpos : 0 < |a| * s.speed η := Tolerances.epsilon_pos.trans_le ha
  have hρ : s.speed η ≠ 0 := right_ne_zero_of_mul hpos.ne'
  refine ⟨s.geodesic x η a, retract_eq_geodesic hx hη ha, fun hapart => ?_⟩
  have hback : s.retract (s.geodesic x η a) (Vec.scale (s.velocity x η a) b) =
      .ok (s.geodesic x η (a + b)) := by
    rw [← geodesic_velocity hx hη hρ]
    refine retract_eq_geodesic (onSphere_geodesic hx hη a) (tangent_velocity hx hη a) ?_
    rwa [speed_velocity hx hη]
  refine ⟨s.velocity x η a, s.geodesic x η (a + b),
    answers_transport_velocity hx hη hρ hapart, hback, ?_, fun hundone => ?_⟩
  · obtain hlong | rfl := hab
    · exact retract_eq_geodesic hx hη hlong
    · rw [add_neg_cancel, geodesic_zero hx hη]
      exact retract_zero hx hη
  · rw [hundone, add_neg_cancel, geodesic_zero hx hη]

end Velocity

/-- A step of unit length along `(1, -1)` is undone along what this is carried to. -/
theorem retract_transported_segment :
    ∃ y : Vec ℝ, segment.manifold.retract [1, 1] (Vec.scale [1, -1] 1) = .ok y ∧
      ∃ moved, Answers (segment.manifold.transport [1, 1] (Vec.scale [1, -1] 1) y [1, -1]) moved ∧
        segment.manifold.retract y (Vec.scale moved (-1)) = .ok [1, 1] := by
  have hspeed : segment.speed [1, -1] = 1 := speed_segment_opposite zero_le_one
  have hepsilon : (Scalar.epsilon : ℝ) < 1 := Tolerances.epsilon_lt_one
  have hlong : Scalar.epsilon ≤ |(1 : ℝ)| * segment.speed [1, -1] := by
    rw [hspeed, abs_one, one_mul]
    exact hepsilon.le
  have hlong' : Scalar.epsilon ≤ |(-1 : ℝ)| * segment.speed [1, -1] := by
    rwa [abs_neg]
  obtain ⟨y, hy, hreturns⟩ :=
    retract_transported onSphere_segment tangent_segment hlong hlong' (.inr rfl)
  have hapart : segment.Apart [1, 1] y := by
    obtain rfl : segment.geodesic [1, 1] [1, -1] 1 = y := Except.ok.inj
      ((retract_eq_geodesic onSphere_segment tangent_segment hlong).symm.trans hy)
    rw [apart_geodesic_iff onSphere_segment tangent_segment, hspeed, one_mul]
    linarith [Real.cos_one_pos]
  obtain ⟨moved, z, hmoved, hz, -, hback⟩ := hreturns hapart
  exact ⟨y, hy, moved, hmoved, hback rfl ▸ hz⟩

end GeodesicDescent.Sphere
