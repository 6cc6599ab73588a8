import GeodesicDescent.Proofs.Sphere.Geodesic

/-!
# The nearest point of the sphere

Over the real numbers every vector with one entry per sample is brought to a point of the sphere,
and every step leads to one, wherever it starts and however long it is. A vector that is longer than
the precision is brought to the point nearest to it, and a point to itself.

* `Sphere.distance`: the length of a difference;
* `normalize_of_length`, `exists_retract`: nothing is refused;
* `sq_distance_eq`, **`distance_le`**: how far other points are from a vector;
* `retract_of_short`: where a short step leads;
* **`reaches_sphere`**: all of it.
-/

namespace GeodesicDescent.Sphere

open Stateful

section Points

variable [Tolerances ℝ] {s : Sphere} {x z u v η : Vec ℝ}

/-! ## Nothing is refused -/

theorem OnSphere.speed_eq_one (hx : s.OnSphere x) : s.speed x = 1 := by
  rw [speed, hx.form_eq_one, Real.sqrt_one]

theorem OnSphere.norm_eq (hx : s.OnSphere x) : s.manifold.norm x x = .ok 1 := by
  rw [norm_of_length x hx.length_eq, hx.speed_eq_one]

theorem normalize_of_length (hv : v.length = s.samples) : s.normalize v =
    .ok (if Scalar.epsilon < s.speed v then Vec.divide v (s.speed v) else s.spike) :=
  checked_bind_eq_ok.2 ⟨_, inner_of_length hv hv, rfl⟩

theorem exists_normalize (hv : v.length = s.samples) :
    ∃ y, s.normalize v = .ok y ∧ s.OnSphere y :=
  ⟨_, normalize_of_length hv, onSphere_of_normalize (normalize_of_length hv)⟩

theorem exists_retract (hx : x.length = s.samples) (hη : η.length = s.samples) :
    ∃ y, s.retract x η = .ok y ∧ s.OnSphere y := by
  by_cases h : s.speed η < Scalar.epsilon
  · rw [retract_eq_normalize hx hη (fun _ => rfl) fun hle => absurd h (not_lt.2 hle)]
    exact exists_normalize ((Vec.length_scale _ _).trans hx)
  · have hadd : Vec.add (Vec.scale x (Real.cos (s.speed η)))
        (Vec.scale η (Real.sin (s.speed η) / s.speed η)) = _ :=
      Vec.combine_of_length (length_moved hx hη _ _)
    rw [retract_eq_normalize hx hη (fun hlt => absurd hlt h) fun _ => hadd]
    exact exists_normalize
      ((Vec.combines_add hadd).length_left.trans ((Vec.length_scale _ _).trans hx))

/-! ## Distances -/

/-- The distance of two functions: the length of their difference. -/
noncomputable def distance (s : Sphere) (u v : Vec ℝ) : ℝ := s.speed (u.zipWith (· - ·) v)

theorem sq_distance (h : u.length = v.length) :
    s.distance u v ^ 2 = s.form u u - 2 * s.form u v + s.form v v := by
  have hsub := Vec.combines_sub (Vec.combine_of_length (f := (· - ·)) h)
  rw [distance, sq, speed_mul_self, form_combines hsub, form_comm u (u.zipWith _ v),
    form_comm v (u.zipWith _ v), form_combines hsub, form_combines hsub, form_comm v u]
  ring

theorem eq_of_distance (hu : u.length = s.samples) (hv : v.length = s.samples)
    (h : s.distance u v = 0) : u = v := by
  have hsub := Vec.combines_sub (Vec.combine_of_length (f := (· - ·)) (hu.trans hv.symm))
  refine Vec.ext_getD (hu.trans hv.symm) fun i => ?_
  have hzero := getD_eq_zero_of_speed (hsub.length_left.trans hu) h i
  rw [hsub.entry] at hzero
  linarith

/-- A point of the sphere is farther from a vector by what lies between it and the nearest. -/
theorem sq_distance_eq (hv : v.length = s.samples) (hpos : 0 < s.speed v) (hz : s.OnSphere z) :
    s.distance v z ^ 2 = s.distance v (Vec.divide v (s.speed v)) ^ 2 +
      s.speed v * s.distance z (Vec.divide v (s.speed v)) ^ 2 := by
  have hlength : (Vec.divide v (s.speed v)).length = s.samples := (Vec.length_divide _ _).trans hv
  have hv' : v.length = z.length := hv.trans hz.length_eq.symm
  have hz' : z.length = (Vec.divide v (s.speed v)).length := hz.length_eq.trans hlength.symm
  rw [sq_distance hv', sq_distance (hv'.trans hz'), sq_distance hz', hz.form_eq_one, form_comm v,
    form_comm z, form_comm v, form_divide, form_divide, form_comm v (Vec.divide _ _), form_divide,
    ← speed_mul_self, form_comm v z]
  field_simp
  ring

/-- **The point in the direction of a vector is the nearest to it**, and the only one. -/
theorem distance_le (hv : v.length = s.samples) (hpos : 0 < s.speed v) (hz : s.OnSphere z) :
    s.distance v (Vec.divide v (s.speed v)) ≤ s.distance v z ∧
      (s.distance v z ≤ s.distance v (Vec.divide v (s.speed v)) →
        z = Vec.divide v (s.speed v)) := by
  have hsplit := sq_distance_eq hv hpos hz
  have hnonneg (u w : Vec ℝ) : 0 ≤ s.distance u w := Real.sqrt_nonneg _
  refine ⟨?_, fun hle => ?_⟩
  · refine (pow_le_pow_iff_left₀ (hnonneg _ _) (hnonneg _ _) two_ne_zero).1 ?_
    rw [hsplit]
    exact le_add_of_nonneg_right (mul_nonneg hpos.le (sq_nonneg _))
  · have hsquare := pow_le_pow_left₀ (hnonneg _ _) hle 2
    rw [hsplit, add_le_iff_nonpos_right] at hsquare
    have hzero : s.distance z (Vec.divide v (s.speed v)) ^ 2 ≤ 0 :=
      nonpos_of_mul_nonpos_right hsquare hpos
    exact eq_of_distance hz.length_eq ((Vec.length_divide _ _).trans hv)
      (pow_eq_zero_iff two_ne_zero |>.1 (le_antisymm hzero (sq_nonneg _)))

/-! ## Steps -/

theorem retract_of_short (hx : s.OnSphere x) (hη : η.length = s.samples)
    (hshort : s.speed η < Scalar.epsilon) (hcos : Scalar.epsilon < Real.cos (s.speed η)) :
    s.retract x η = .ok x := by
  set c := Real.cos (s.speed η)
  have hpos : 0 < c := Tolerances.epsilon_pos.trans hcos
  have hlength : (Vec.scale x c).length = s.samples := (Vec.length_scale _ _).trans hx.length_eq
  have hspeed : s.speed (Vec.scale x c) = c := by
    rw [speed_scale, hx.speed_eq_one, abs_of_pos hpos, mul_one]
  have hback : Vec.divide (Vec.scale x c) c = x := by
    refine Vec.ext_getD ((Vec.length_divide _ _).trans (Vec.length_scale _ _)) fun i => ?_
    rw [Vec.getD_divide, Vec.getD_scale, inv_mul_cancel_left₀ hpos.ne']
  rw [retract_eq_normalize hx.length_eq hη (fun _ => rfl) fun hle => absurd hshort (not_lt.2 hle),
    normalize_of_length hlength, hspeed, if_pos hcos, hback]

theorem epsilon_lt_cos {r : ℝ} (hfine : (Scalar.epsilon : ℝ) ≤ 1 / 2) (hr : 0 ≤ r)
    (hshort : r < Scalar.epsilon) : Scalar.epsilon < Real.cos r := by
  have hcos := Real.one_sub_sq_div_two_le_cos (x := r)
  nlinarith

/-- **Every vector is brought to the sphere, and every step leads to it.** -/
theorem reaches_sphere (hv : v.length = s.samples) (hx : x.length = s.samples)
    (hη : η.length = s.samples) :
    (∃ p, s.manifold.projectPoint v = .ok p ∧ s.manifold.norm p p = .ok 1 ∧
      s.manifold.projectPoint p = .ok p ∧
      ∀ length, s.manifold.norm p v = .ok length → Scalar.epsilon < length →
        ∀ z, s.OnSphere z → s.distance v p ≤ s.distance v z ∧
          (s.distance v z ≤ s.distance v p → z = p)) ∧
    ∃ y, s.manifold.retract x η = .ok y ∧ s.manifold.norm y y = .ok 1 ∧
      (s.OnSphere x → s.Tangent x η → ∀ r, s.manifold.norm x η = .ok r →
        ((Scalar.epsilon : ℝ) ≤ 1 / 2 → r < Scalar.epsilon → y = x) ∧
        (Scalar.epsilon ≤ r → s.normalize y = .ok y ∧
          Vec.add (Vec.scale x (Real.cos r)) (Vec.scale η (Real.sin r / r)) = .ok y)) := by
  obtain ⟨p, hp, hpsphere⟩ := exists_normalize hv
  obtain ⟨y, hy, hysphere⟩ := exists_retract hx hη
  refine ⟨⟨p, hp, hpsphere.norm_eq, normalize_of_onSphere hpsphere,
    fun length hlength hlong z hz => ?_⟩, y, hy, hysphere.norm_eq, fun hxsphere htangent r hr => ?_⟩
  · rw [norm_of_length p hv, Except.ok.injEq] at hlength
    subst hlength
    have hdirection := normalize_of_length hv
    rw [if_pos hlong] at hdirection
    obtain rfl : p = Vec.divide v (s.speed v) := Except.ok.inj (hp.symm.trans hdirection)
    exact distance_le hv (Tolerances.epsilon_pos.trans hlong) hz
  · rw [norm_of_length x hη, Except.ok.injEq] at hr
    subst hr
    refine ⟨fun hfine hshort => ?_, fun hlong => ⟨normalize_of_onSphere hysphere, ?_⟩⟩
    · have hcos := epsilon_lt_cos hfine (Real.sqrt_nonneg _) hshort
      exact Except.ok.inj (hy.symm.trans (retract_of_short hxsphere hη hshort hcos))
    · have hpos : 0 < s.speed η := Tolerances.epsilon_pos.trans_le hlong
      have hgeodesic := retract_eq_geodesic (a := 1) hxsphere htangent (by rwa [abs_one, one_mul])
      have hne : s.speed (Vec.scale η 1) ≠ 0 := by
        rw [Vec.scale_one]
        exact hpos.ne'
      have hmoved := add_eq_geodesic hxsphere htangent hne
      rw [Vec.scale_one] at hgeodesic hmoved
      rw [hmoved, ← hgeodesic]
      exact hy

end Points

/-! ## The smallest sphere -/

theorem epsilon_le_half : (Scalar.epsilon : ℝ) ≤ 1 / 2 := by
  change (1 : ℝ) / 10 ^ 16 ≤ 1 / 2
  norm_num

theorem speed_segment (a b : ℝ) : segment.speed [a, b] = √((a * a + b * b) / 2) := by
  rw [speed, form_segment]

theorem speed_segment_opposite {a : ℝ} (ha : 0 ≤ a) : segment.speed [a, -a] = a := by
  rw [speed_segment, Real.sqrt_eq_iff_mul_self_eq _ ha] <;> nlinarith

theorem onSphere_segment : segment.OnSphere ([1, 1] : Vec ℝ) :=
  inner_eq_ok.2 ⟨rfl, rfl, by norm_num [form_segment]⟩

theorem tangent_segment : segment.Tangent ([1, 1] : Vec ℝ) [1, -1] :=
  inner_eq_ok.2 ⟨rfl, rfl, by norm_num [form_segment]⟩

/-- The nearest point to `(3, -3)`, a step from `(1, 1)` towards it, and no step. -/
theorem reaches_sphere_segment :
    (∃ p, segment.manifold.projectPoint ([3, -3] : Vec ℝ) = .ok p ∧
      segment.manifold.projectPoint p = .ok p ∧
      ∀ z, segment.OnSphere z → segment.distance [3, -3] p ≤ segment.distance [3, -3] z) ∧
    ∃ y : Vec ℝ, segment.manifold.retract [1, 1] [1, -1] = .ok y ∧
      segment.manifold.norm y y = .ok 1 ∧
      Vec.add (Vec.scale [1, 1] (Real.cos 1)) (Vec.scale [1, -1] (Real.sin 1 / 1)) = .ok y ∧
      segment.manifold.retract ([1, 1] : Vec ℝ) [0, 0] = .ok [1, 1] := by
  have hthree : segment.speed [3, -3] = 3 := speed_segment_opposite (by norm_num)
  have hone : segment.speed [1, -1] = 1 := speed_segment_opposite zero_le_one
  have hnone : segment.speed [0, 0] = 0 := by simp [speed_segment]
  have hepsilon : (Scalar.epsilon : ℝ) < 1 := Tolerances.epsilon_lt_one
  obtain ⟨⟨p, hp, -, hagain, hnearest⟩, y, hy, hnorm, hstep⟩ :=
    reaches_sphere (s := segment) (v := [3, -3]) (x := [1, 1]) (η := [1, -1]) rfl rfl rfl
  obtain ⟨-, z, hz, -, hstays⟩ :=
    reaches_sphere (s := segment) (v := [3, -3]) (x := [1, 1]) (η := [0, 0]) rfl rfl rfl
  refine ⟨⟨p, hp, hagain, fun z hz => ?_⟩, y, hy, hnorm, ?_, ?_⟩
  · have hlength := norm_of_length (s := segment) (η := [3, -3]) p rfl
    rw [hthree] at hlength
    exact (hnearest 3 hlength (by linarith) z hz).1
  · have hlength := norm_of_length (s := segment) (η := [1, -1]) [1, 1] rfl
    rw [hone] at hlength
    exact ((hstep onSphere_segment tangent_segment 1 hlength).2 hepsilon.le).2
  · have hlength := norm_of_length (s := segment) (η := [0, 0]) [1, 1] rfl
    rw [hnone] at hlength
    have htangent : segment.Tangent ([1, 1] : Vec ℝ) [0, 0] := tangent_zeros onSphere_segment
    obtain ⟨hsame, -⟩ := hstays onSphere_segment htangent 0 hlength
    exact hsame epsilon_le_half Tolerances.epsilon_pos ▸ hz

end GeodesicDescent.Sphere
