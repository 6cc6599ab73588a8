import GeodesicDescent.Proofs.Sphere.Form

/-!
# Points and tangent vectors of the sphere

Over an ordered field every operation of the sphere that gives a tangent vector gives one, whatever
it is applied to, and over the real numbers every operation that leads to a point leads to one of
unit norm.

* `Sphere.OnSphere`, `Sphere.Tangent`: points of unit norm, and vectors orthogonal to a point;
* **`onSphere_of_normalize`**, `onSphere_of_retract`: the points that are reached;
* **`tangent_of_projectTangent`**, `tangent_of_convertGradient`, **`tangent_of_transport`**: the
  vectors that are tangent there;
* `tangent_combines`, `tangent_neg`: a tangent space is a linear space;
* `Sphere.tangentPart`, `projectTangent_eq`, `form_tangentPart`: the tangent part of a vector.
-/

namespace GeodesicDescent.Sphere

open Stateful Finset

/-- A point of the sphere. -/
def OnSphere {K : Type} [Scalar K] (s : Sphere) (x : Vec K) : Prop := s.inner x x = .ok 1

/-- A tangent vector at a point. -/
def Tangent {K : Type} [Scalar K] (s : Sphere) (x v : Vec K) : Prop := s.inner x v = .ok 0

variable {K : Type} [Field K] [LinearOrder K] [IsStrictOrderedRing K] [Elementary K] [Tolerances K]
variable {s : Sphere} {x y u v w : Vec K}

theorem OnSphere.length_eq (h : s.OnSphere x) : x.length = s.samples := (inner_eq_ok.1 h).1

theorem OnSphere.form_eq_one (h : s.OnSphere x) : s.form x x = 1 := (inner_eq_ok.1 h).2.2

theorem Tangent.length_eq (h : s.Tangent x v) : v.length = s.samples := (inner_eq_ok.1 h).2.1

theorem Tangent.form_eq_zero (h : s.Tangent x v) : s.form x v = 0 := (inner_eq_ok.1 h).2.2

/-! ## Tangent spaces -/

theorem tangent_combines {a b : K} (hu : s.Tangent x u) (hv : s.Tangent x v)
    (h : Vec.Combines a u b v w) : s.Tangent x w := by
  refine inner_eq_ok.2 ⟨(inner_eq_ok.1 hu).1, h.length_left.trans hu.length_eq, ?_⟩
  rw [form_comm, form_combines h, form_comm u, form_comm v, hu.form_eq_zero, hv.form_eq_zero]
  ring

theorem tangent_neg (hv : s.Tangent x v) : s.Tangent x (Vec.neg v) := by
  refine inner_eq_ok.2 ⟨(inner_eq_ok.1 hv).1, (Vec.length_neg v).trans hv.length_eq, ?_⟩
  rw [form_comm, form_neg, form_comm, hv.form_eq_zero, neg_zero]

theorem tangent_zeros (hx : s.OnSphere x) : s.Tangent x (Vec.zeros x.length) := by
  refine inner_eq_ok.2 ⟨hx.length_eq, (Vec.length_zeros _).trans hx.length_eq, ?_⟩
  exact sum_eq_zero fun i _ => by rw [Vec.getD_zeros, mul_zero, mul_zero]

theorem tangent_of_projectTangent (hx : s.OnSphere x) (h : s.projectTangent x u = .ok v) :
    s.Tangent x v := by
  simp only [projectTangent, checked_bind_eq_ok] at h
  obtain ⟨_, -, _, hu, along, halong, hsub⟩ := h
  have hv := Vec.combines_sub hsub
  refine inner_eq_ok.2 ⟨hx.length_eq, hv.length_left.trans (requireLength_eq_ok.1 hu), ?_⟩
  rw [form_comm, form_combines hv, form_scale, hx.form_eq_one, form_comm u,
    (inner_eq_ok.1 halong).2.2]
  ring

/-- The part of a vector that is orthogonal to a point. -/
def tangentPart (s : Sphere) (x v : Vec K) : Vec K :=
  v.zipWith (· - ·) (Vec.scale x (s.form x v))

omit [IsStrictOrderedRing K] in
theorem combines_tangentPart (hx : x.length = s.samples) (hv : v.length = s.samples) :
    Vec.Combines 1 v (-(s.form x v)) x (s.tangentPart x v) :=
  Vec.combines_sub_scale (hv.trans hx.symm) _

theorem projectTangent_eq (hx : x.length = s.samples) (hv : v.length = s.samples) :
    s.projectTangent x v = .ok (s.tangentPart x v) := by
  refine checked_bind_eq_ok.2 ⟨(), requireLength_eq_ok.2 hx, ?_⟩
  refine checked_bind_eq_ok.2 ⟨(), requireLength_eq_ok.2 hv, ?_⟩
  exact checked_bind_eq_ok.2 ⟨_, inner_of_length hx hv,
    Vec.combine_of_length (hv.trans (hx.symm.trans (Vec.length_scale _ _).symm))⟩

theorem tangent_tangentPart (hx : s.OnSphere x) (hv : v.length = s.samples) :
    s.Tangent x (s.tangentPart x v) :=
  tangent_of_projectTangent hx (projectTangent_eq hx.length_eq hv)

/-- A tangent vector does not see what a vector loses when its tangent part is taken. -/
theorem form_tangentPart (hx : x.length = s.samples) (hv : v.length = s.samples)
    (hw : s.Tangent x w) : s.form (s.tangentPart x v) w = s.form v w := by
  rw [form_combines (combines_tangentPart hx hv), hw.form_eq_zero]
  ring

omit [IsStrictOrderedRing K] in
theorem tangentPart_combines {a b : K} (hx : x.length = s.samples) (hu : u.length = s.samples)
    (h : Vec.Combines a u b v w) :
    Vec.Combines a (s.tangentPart x u) b (s.tangentPart x v) (s.tangentPart x w) := by
  have hw : w.length = s.samples := h.length_left.trans hu
  have hv : v.length = s.samples := h.length_right.symm.trans hw
  have hpart {u : Vec K} (hu : u.length = s.samples) := combines_tangentPart hx hu
  constructor
  · rw [(hpart hw).length_left, (hpart hu).length_left, h.length_left]
  · rw [(hpart hw).length_left, (hpart hv).length_left, h.length_right]
  · intro i
    rw [(hpart hw).entry, (hpart hu).entry, (hpart hv).entry, h.entry, form_comm x w,
      form_combines h, form_comm u, form_comm v]
    ring

theorem tangent_of_convertGradient {usage : Usage} {c c' : Cache K} (hx : s.OnSphere x)
    (h : s.manifold.convertGradient x u usage c = (.ok v, c')) : s.Tangent x v := by
  simp only [manifold] at h
  split_ifs at h
  · obtain ⟨_, _, -, h⟩ := bind_eq_ok.1 h
    exact tangent_of_projectTangent hx (lift_eq_ok.1 h).1
  · exact tangent_of_projectTangent hx (lift_eq_ok.1 h).1

/-! ## Points -/

section Points

variable [Tolerances ℝ] {s : Sphere} {x y v : Vec ℝ}

theorem onSphere_spike : s.OnSphere (s.spike : Vec ℝ) := by
  have hsamples := s.two_le_samples
  have hlength : (s.spike : Vec ℝ).length = s.samples := by
    rw [spike, List.length_set, Vec.length_zeros]
  have hentry (i : Nat) (hi : i ≠ 0) : (s.spike : Vec ℝ).getD i 0 = 0 := by
    rw [spike, List.getD_eq_getElem?_getD, List.getElem?_set_ne hi.symm,
      ← List.getD_eq_getElem?_getD, Vec.getD_zeros]
  have hfirst : (s.spike : Vec ℝ).getD 0 0 = √((2 * (s.samples - 1) : Nat) : ℝ) := by
    rw [spike, List.getD_eq_getElem?_getD, List.getElem?_set_self
      (by rw [Vec.length_zeros]; omega)]
    rfl
  have hpos : (0 : ℝ) < ((s.samples - 1 : Nat) : ℝ) := Nat.cast_pos.2 (by omega)
  refine inner_eq_ok.2 ⟨hlength, hlength, ?_⟩
  rw [form, sum_eq_single_of_mem 0 (mem_range.2 (by omega)) fun i _ hi => by
    rw [hentry i hi, mul_zero, mul_zero], hfirst, Real.mul_self_sqrt (Nat.cast_nonneg _), weight,
    if_pos rfl, if_neg (by omega), spacing, Nat.cast_mul]
  field_simp
  norm_num

theorem onSphere_of_normalize (h : s.normalize v = .ok y) : s.OnSphere y := by
  simp only [normalize, checked_bind_eq_ok] at h
  obtain ⟨squared, hsquared, h⟩ := h
  obtain ⟨hv, -, rfl⟩ := inner_eq_ok.1 hsquared
  split_ifs at h with hlong
  · cases h
    have hsqrt : 0 < √(s.form v v) := Tolerances.epsilon_pos.trans hlong
    have hlength : (Vec.divide v √(s.form v v)).length = s.samples :=
      (Vec.length_divide ..).trans hv
    refine inner_eq_ok.2 ⟨hlength, hlength, ?_⟩
    have hpos : 0 < s.form v v := Real.sqrt_pos.1 hsqrt
    rw [form_divide, form_comm v (Vec.divide v _), form_divide]
    show (√(s.form v v))⁻¹ * ((√(s.form v v))⁻¹ * s.form v v) = 1
    rw [← mul_assoc, ← mul_inv, Real.mul_self_sqrt hpos.le, inv_mul_cancel₀ hpos.ne']
  · cases h
    exact onSphere_spike

/-- **A step leads to a point of the sphere.** -/
theorem onSphere_of_retract (h : s.retract x v = .ok y) : s.OnSphere y := by
  simp only [retract, checked_bind_eq_ok] at h
  obtain ⟨_, -, _, -, squared, -, h⟩ := h
  split_ifs at h
  · obtain ⟨moved, -, h⟩ := checked_bind_eq_ok.1 h
    exact onSphere_of_normalize h
  · obtain ⟨moved, -, h⟩ := checked_bind_eq_ok.1 h
    exact onSphere_of_normalize h

end Points

/-! ## Transport -/

theorem reflection_eq_divide {d : Vec K} (hx : s.OnSphere x) (hy : s.OnSphere y)
    (h : s.reflection x y = .ok d) : ∃ sum, Vec.Combines 1 x 1 y sum ∧
      0 < 2 * (1 + s.form x y) ∧ d = Vec.divide sum (2 * (1 + s.form x y)) := by
  simp only [reflection, checked_bind_eq_ok] at h
  obtain ⟨sum, hsum, squared, hsquared, h⟩ := h
  have hadd := Vec.combines_add hsum
  have hvalue : squared = 2 * (1 + s.form x y) := by
    rw [← (inner_eq_ok.1 hsquared).2.2, form_combines hadd, form_comm x sum, form_comm y sum,
      form_combines hadd, form_combines hadd, hx.form_eq_one, hy.form_eq_one, form_comm y x]
    ring
  split_ifs at h with hshort
  · cases h
  · cases h
    rw [← hvalue]
    exact ⟨sum, hadd, Tolerances.epsilon_pos.trans (not_le.1 hshort), rfl⟩

theorem form_reflection {d : Vec K} (hx : s.OnSphere x) (hy : s.OnSphere y)
    (h : s.reflection x y = .ok d) : s.form d y = 1 / 2 := by
  obtain ⟨sum, hsum, hpos, rfl⟩ := reflection_eq_divide hx hy h
  have hne : 1 + s.form x y ≠ 0 := fun h => by simp [h] at hpos
  rw [form_divide, form_combines hsum, hy.form_eq_one]
  field_simp
  ring

theorem transport_apply_eq_ok {c c' : Cache K} : s.transport x y u c = (.ok v, c') ↔
    x.length = s.samples ∧ y.length = s.samples ∧ u.length = s.samples ∧
      ∃ d a, s.cachedReflection x y c = (.ok d, c') ∧ s.inner u y = .ok a ∧
        Vec.sub u (Vec.scale d (a * 2)) = .ok v := by
  simp only [transport, bind_eq_ok, lift_eq_ok, requireLength_eq_ok, scientific_two]
  constructor
  · rintro ⟨_, _, ⟨hx, rfl⟩, _, _, ⟨hy, rfl⟩, _, _, ⟨hu, rfl⟩, d, _, hd, a, _, ⟨ha, rfl⟩, hv, rfl⟩
    exact ⟨hx, hy, hu, d, a, hd, ha, hv⟩
  · rintro ⟨hx, hy, hu, d, a, hd, ha, hv⟩
    exact ⟨(), c, ⟨hx, rfl⟩, (), c, ⟨hy, rfl⟩, (), c, ⟨hu, rfl⟩, d, c', hd, a, c', ⟨ha, rfl⟩, hv,
      rfl⟩

theorem transport_eq_ok {c c' : Cache K} (hc : c.Faithful)
    (h : s.transport x y u c = (.ok v, c')) : ∃ d a, s.reflection x y = .ok d ∧
      s.inner u y = .ok a ∧ Vec.sub u (Vec.scale d (a * 2)) = .ok v := by
  obtain ⟨hx, hy, -, d, a, hd, ha, hv⟩ := transport_apply_eq_ok.1 h
  have hreflect := (cachedReflection_apply hc hx hy).1
  rw [hd] at hreflect
  exact ⟨d, a, hreflect.symm, ha, hv⟩

/-- **A vector that is transported is tangent where it arrives**, whatever it was before. -/
theorem tangent_of_transport {c c' : Cache K} (hc : c.Faithful) (hx : s.OnSphere x)
    (hy : s.OnSphere y) (h : s.transport x y u c = (.ok v, c')) : s.Tangent y v := by
  obtain ⟨d, a, hd, ha, hsub⟩ := transport_eq_ok hc h
  obtain ⟨hu, -, rfl⟩ := inner_eq_ok.1 ha
  have hv := Vec.combines_sub hsub
  refine inner_eq_ok.2 ⟨hy.length_eq, hv.length_left.trans hu, ?_⟩
  rw [form_comm, form_combines hv, form_scale, form_reflection hx hy hd]
  ring

end GeodesicDescent.Sphere
