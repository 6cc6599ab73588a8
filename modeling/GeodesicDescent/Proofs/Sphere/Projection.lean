import GeodesicDescent.Proofs.Sphere.Nearest
import GeodesicDescent.Proofs.Sphere.SelfAdjoint

/-!
# The tangent part is the orthogonal projection

What a vector loses when its tangent part is taken is a multiple of the point, which is orthogonal
to all that is tangent there. The end samples count half in what is subtracted, in its norm and in
the inner product alike, so that for any number of samples this is the projection for one and the
same inner product.

* `selfAdjoint_tangentPart`, `Tangent.tangentPart_eq`: the tangent part is a self-adjoint map that
  leaves tangent vectors as they are;
* `norm_sub`: the distance of two vectors as it is computed;
* **`sq_distance_tangentPart`**: how far a tangent vector is from a vector;
* `Sphere.Projects`: the laws of the orthogonal projection onto a tangent space;
* **`projectTangent_projects`**: taking the tangent part obeys them.
-/

namespace GeodesicDescent.Sphere

open Stateful

section Part

variable {K : Type} [Field K] [LinearOrder K] [IsStrictOrderedRing K] [Elementary K] [Tolerances K]
variable {s : Sphere} {x v : Vec K}

omit [IsStrictOrderedRing K] in
theorem length_tangentPart (hx : x.length = s.samples) (hv : v.length = s.samples) :
    (s.tangentPart x v).length = s.samples := (combines_tangentPart hx hv).length_left.trans hv

theorem Tangent.tangentPart_eq (hv : s.Tangent x v) : s.tangentPart x v = v := by
  have hx : x.length = s.samples := (inner_eq_ok.1 hv).1
  have h := combines_tangentPart hx hv.length_eq
  refine Vec.ext_getD h.length_left fun i => ?_
  rw [h.entry, hv.form_eq_zero]
  ring

/-- **Taking the tangent part is linear and self-adjoint.** -/
theorem selfAdjoint_tangentPart (hx : x.length = s.samples) : s.SelfAdjoint (s.tangentPart x) where
  length_eq := length_tangentPart hx
  combines := tangentPart_combines hx
  inner_comm := by
    intro u v hu hv
    have hform {u v : Vec K} (hu : u.length = s.samples) :
        s.form (s.tangentPart x u) v = s.form u v - s.form x u * s.form x v := by
      rw [form_combines (combines_tangentPart hx hu)]
      ring
    rw [inner_of_length (length_tangentPart hx hu) hv,
      inner_of_length hu (length_tangentPart hx hv), hform hu,
      form_comm u (s.tangentPart x v), hform hv, form_comm v u]
    congr 1
    ring

end Part

section Laws

variable [Tolerances ℝ] {s : Sphere} {x t u v : Vec ℝ}

theorem norm_sub (hu : u.length = s.samples) (hv : v.length = s.samples) :
    (Vec.sub u v >>= s.manifold.norm x) = .ok (s.distance u v) := by
  have hsub : Vec.sub u v = _ := Vec.combine_of_length (hu.trans hv.symm)
  refine checked_bind_eq_ok.2 ⟨_, hsub, norm_of_length x ?_⟩
  exact (Vec.combines_sub hsub).length_left.trans hu

/-- **A tangent vector is farther from a vector than its tangent part.** -/
theorem sq_distance_tangentPart (hx : s.OnSphere x) (hv : v.length = s.samples)
    (ht : s.Tangent x t) : s.distance v t ^ 2 =
      s.distance v (s.tangentPart x v) ^ 2 + s.distance t (s.tangentPart x v) ^ 2 := by
  have hpart := tangent_tangentPart hx hv
  have hvt := hv.trans ht.length_eq.symm
  have htpart := ht.length_eq.trans hpart.length_eq.symm
  have hself := form_tangentPart hx.length_eq hv hpart
  have hother := form_tangentPart hx.length_eq hv ht
  rw [sq_distance hvt, sq_distance (hvt.trans htpart), sq_distance htpart,
    form_comm t (s.tangentPart x v), hself, hother]
  ring

/-- The map is the orthogonal projection of functions onto the tangent space at `x`. -/
structure Projects (s : Sphere) (x : Vec ℝ) (P : Vec ℝ → Vec ℝ) : Prop extends
    s.SelfAdjoint P where
  tangent : ∀ {v}, v.length = s.samples → s.Tangent x (P v)
  fixes : ∀ {t}, s.Tangent x t → P t = t
  /-- No tangent vector is nearer to a vector than what it is mapped to, and no other is as near. -/
  nearest : ∀ {v t}, v.length = s.samples → s.Tangent x t → ∃ near far,
    (Vec.sub v (P v) >>= s.manifold.norm x) = .ok near ∧
    (Vec.sub v t >>= s.manifold.norm x) = .ok far ∧ near ≤ far ∧ (far ≤ near → t = P v)

theorem projects_tangentPart (hx : s.OnSphere x) : s.Projects x (s.tangentPart x) where
  toSelfAdjoint := selfAdjoint_tangentPart hx.length_eq
  tangent := tangent_tangentPart hx
  fixes := Tangent.tangentPart_eq
  nearest := by
    intro v t hv ht
    have hsplit := sq_distance_tangentPart hx hv ht
    have hlength := length_tangentPart hx.length_eq hv
    have hnonneg (u w : Vec ℝ) : 0 ≤ s.distance u w := Real.sqrt_nonneg _
    refine ⟨_, _, norm_sub hv hlength, norm_sub hv ht.length_eq, ?_, fun hle => ?_⟩
    · refine (pow_le_pow_iff_left₀ (hnonneg _ _) (hnonneg _ _) two_ne_zero).1 ?_
      rw [hsplit]
      exact le_add_of_nonneg_right (sq_nonneg _)
    · -- at no greater distance nothing lies between the two
      have hsquare := pow_le_pow_left₀ (hnonneg _ _) hle 2
      rw [hsplit, add_le_iff_nonpos_right] at hsquare
      exact eq_of_distance ht.length_eq hlength
        (pow_eq_zero_iff two_ne_zero |>.1 (le_antisymm hsquare (sq_nonneg _)))

/-- **Taking the tangent part is the orthogonal projection onto the tangent space.** -/
theorem projectTangent_projects (hx : s.OnSphere x) : ∃ P : Vec ℝ → Vec ℝ, s.Projects x P ∧
    ∀ v, v.length = s.samples → s.manifold.projectTangent x v = .ok (P v) ∧
      s.manifold.projectTangent x (P v) = .ok (P v) := by
  refine ⟨s.tangentPart x, projects_tangentPart hx, fun v hv => ?_⟩
  have hpart := tangent_tangentPart hx hv
  have hagain := projectTangent_eq hx.length_eq hpart.length_eq
  rw [hpart.tangentPart_eq] at hagain
  exact ⟨projectTangent_eq hx.length_eq hv, hagain⟩

end Laws

/-- The tangent part of `(3, 0, 1)` at `(1, 1, 1)` is nearer to it than the zero vector. -/
theorem projectTangent_projects_triple : triple.OnSphere ([1, 1, 1] : Vec ℝ) ∧
    triple.manifold.projectTangent [1, 1, 1] ([3, 0, 1] : Vec ℝ) = .ok [2, -1, 0] ∧
    triple.manifold.projectTangent [1, 1, 1] ([2, -1, 0] : Vec ℝ) = .ok [2, -1, 0] ∧
    triple.Tangent ([1, 1, 1] : Vec ℝ) [2, -1, 0] ∧
    ∃ near far, (Vec.sub ([3, 0, 1] : Vec ℝ) [2, -1, 0] >>= triple.manifold.norm [1, 1, 1]) =
        .ok near ∧
      (Vec.sub ([3, 0, 1] : Vec ℝ) [0, 0, 0] >>= triple.manifold.norm [1, 1, 1]) = .ok far ∧
      near ≤ far := by
  obtain ⟨P, hP, hproject⟩ := projectTangent_projects onSphere_triple
  obtain ⟨hfirst, hagain⟩ := hproject [3, 0, 1] rfl
  have hzero : triple.Tangent ([1, 1, 1] : Vec ℝ) [0, 0, 0] := tangent_zeros onSphere_triple
  have hpart : P [3, 0, 1] = [2, -1, 0] := by
    have heq := projectTangent_eq (s := triple) (x := ([1, 1, 1] : Vec ℝ)) (v := [3, 0, 1]) rfl rfl
    refine Except.ok.inj (hfirst.symm.trans (heq.trans ?_))
    norm_num [tangentPart, Vec.scale, form_triple]
  have htangent := hP.tangent (v := [3, 0, 1]) rfl
  obtain ⟨near, far, hnear, hfar, hle, -⟩ := hP.nearest (v := [3, 0, 1]) rfl hzero
  rw [hpart] at hfirst hagain htangent hnear
  exact ⟨onSphere_triple, hfirst, hagain, htangent, near, far, hnear, hfar, hle⟩

end GeodesicDescent.Sphere
