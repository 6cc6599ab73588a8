import GeodesicDescent.Proofs.LineSearch.Derivative
import GeodesicDescent.Proofs.Sphere.Geometry
import GeodesicDescent.Proofs.Sphere.Hessians

/-!
# Self-adjoint Hessians

Over an ordered field a Hessian on the sphere is as symmetric as the ambient one. What corrects the
ambient product is a multiplication by a fixed function, which is self-adjoint for any weights, and
the tangent part of a vector has the same inner products with tangent vectors as the vector itself.

* `Sphere.SelfAdjoint`: linear maps that are self-adjoint for the inner product;
* `selfAdjoint_products`, `SelfAdjoint.scale`, `SelfAdjoint.sub`: multiplications, multiples and
  differences;
* `Sphere.hessian`, `convertHessian_eq`: the map that conversions compute;
* **`convertHessian_selfAdjoint`**: it is linear, tangent and self-adjoint.
-/

namespace GeodesicDescent.Sphere

open Stateful

variable {K : Type} [Field K] [LinearOrder K] [IsStrictOrderedRing K] [Elementary K] [Tolerances K]
variable {s : Sphere} {x u v w d η ζ gradient : Vec K} {a b : K} {A B : Vec K → Vec K}

/-! ## Self-adjoint maps -/

/-- A linear map of functions that is self-adjoint for the inner product. -/
structure SelfAdjoint (s : Sphere) (A : Vec K → Vec K) : Prop where
  length_eq : ∀ {u}, u.length = s.samples → (A u).length = s.samples
  combines : ∀ {a b u v w}, u.length = s.samples → Vec.Combines a u b v w →
    Vec.Combines a (A u) b (A v) (A w)
  inner_comm : ∀ {u v}, u.length = s.samples → v.length = s.samples →
    s.inner (A u) v = s.inner u (A v)

theorem SelfAdjoint.of_form
    (hlength : ∀ {u}, u.length = s.samples → (A u).length = s.samples)
    (hentry : ∀ {a b u v w}, u.length = s.samples → v.length = s.samples → w.length = s.samples →
      Vec.Combines a u b v w → ∀ i, (A w).getD i 0 = a * (A u).getD i 0 + b * (A v).getD i 0)
    (hform : ∀ {u v}, u.length = s.samples → v.length = s.samples →
      s.form (A u) v = s.form u (A v)) : s.SelfAdjoint A where
  length_eq := hlength
  combines hu h := by
    have hw := h.length_left.trans hu
    have hv := h.length_right.symm.trans hw
    exact ⟨(hlength hw).trans (hlength hu).symm, (hlength hw).trans (hlength hv).symm,
      hentry hu hv hw h⟩
  inner_comm hu hv := by
    rw [inner_of_length (hlength hu) hv, inner_of_length hu (hlength hv), hform hu hv]

theorem SelfAdjoint.form_eq (hA : s.SelfAdjoint A) (hu : u.length = s.samples)
    (hv : v.length = s.samples) : s.form (A u) v = s.form u (A v) := by
  have h := hA.inner_comm hu hv
  rwa [inner_of_length (hA.length_eq hu) hv, inner_of_length hu (hA.length_eq hv),
    Except.ok.injEq] at h

/-- **Multiplication by a function is self-adjoint**, whatever the weights are. -/
theorem selfAdjoint_products (hd : d.length = s.samples) : s.SelfAdjoint (Vec.products d) := by
  refine .of_form (fun hu => (Vec.length_products (hd.trans hu.symm)).trans hd) ?_ ?_
  · intro a b u v w hu hv hw h i
    rw [Vec.getD_products (hd.trans hw.symm), Vec.getD_products (hd.trans hu.symm),
      Vec.getD_products (hd.trans hv.symm), h.entry]
    ring
  · intro u v hu hv
    refine Finset.sum_congr rfl fun i _ => ?_
    rw [Vec.getD_products (hd.trans hu.symm), Vec.getD_products (hd.trans hv.symm)]
    ring

theorem SelfAdjoint.scale (hA : s.SelfAdjoint A) (c : K) :
    s.SelfAdjoint fun u => Vec.scale (A u) c := by
  refine .of_form (fun hu => (Vec.length_scale _ _).trans (hA.length_eq hu)) ?_ ?_
  · intro a b u v w hu _ _ h i
    rw [Vec.getD_scale, Vec.getD_scale, Vec.getD_scale, (hA.combines hu h).entry]
    ring
  · intro u v hu hv
    rw [form_scale, hA.form_eq hu hv, form_comm u (Vec.scale _ _), form_scale, form_comm (A v)]

theorem SelfAdjoint.sub (hA : s.SelfAdjoint A) (hB : s.SelfAdjoint B) :
    s.SelfAdjoint fun u => (A u).zipWith (· - ·) (B u) := by
  have hsub {u : Vec K} (hu : u.length = s.samples) :=
    Vec.combines_difference ((hA.length_eq hu).trans (hB.length_eq hu).symm)
  refine .of_form (fun hu => (hsub hu).length_left.trans (hA.length_eq hu)) ?_ ?_
  · intro a b u v w hu hv hw h i
    rw [(hsub hw).entry, (hsub hu).entry, (hsub hv).entry, (hA.combines hu h).entry,
      (hB.combines hu h).entry]
    ring
  · intro u v hu hv
    rw [form_combines (hsub hu), hA.form_eq hu hv, hB.form_eq hu hv, form_comm u (List.zipWith ..),
      form_combines (hsub hv), form_comm (A v), form_comm (B v)]

/-! ## Hessians -/

/-- The third powers of a function. -/
def cubes (x : Vec K) : Vec K := x.map fun t => t * t * t

/-- How much of the multiplication by the squares a conversion takes away. -/
def correction (s : Sphere) (gradient x : Vec K) : K :=
  3 * s.form gradient (cubes x) / s.form (cubes x) (cubes x)

/-- An ambient map, less a multiple of the multiplication by the squares of a function. -/
def corrected (s : Sphere) (gradient x : Vec K) (A : Vec K → Vec K) (η : Vec K) : Vec K :=
  (A η).zipWith (· - ·)
    (Vec.scale (Vec.products (Vec.products x x) η) (s.correction gradient x))

/-- The map of tangent vectors that conversions compute from an ambient map. -/
def hessian (s : Sphere) (gradient x : Vec K) (A : Vec K → Vec K) (η : Vec K) : Vec K :=
  s.tangentPart x (s.corrected gradient x A η)

theorem selfAdjoint_squares (hx : x.length = s.samples) :
    s.SelfAdjoint (Vec.products (Vec.products x x)) :=
  selfAdjoint_products ((Vec.length_products rfl).trans hx)

/-- **The corrected map is self-adjoint.** -/
theorem selfAdjoint_corrected (hA : s.SelfAdjoint A) (hx : x.length = s.samples)
    (gradient : Vec K) : s.SelfAdjoint (s.corrected gradient x A) :=
  hA.sub ((selfAdjoint_squares hx).scale _)

theorem hessianWith_eq (hgradient : gradient.length = s.samples) (hx : x.length = s.samples)
    (hη : η.length = s.samples) (hA : s.SelfAdjoint A) :
    s.hessianWith gradient x η (A η) = .ok (s.hessian gradient x A η) := by
  have hcubes : (cubes x).length = s.samples := (List.length_map _).trans hx
  have hsquares : (Vec.products x x).length = η.length :=
    (Vec.length_products rfl).trans (hx.trans hη.symm)
  have hproduct : (A η).length = (Vec.scale (Vec.products (Vec.products x x) η)
      (s.correction gradient x)).length := by
    rw [Vec.length_scale, Vec.length_products hsquares, hsquares, hη, hA.length_eq hη]
  simp only [hessianWith, checked_bind_eq_ok]
  refine ⟨_, inner_of_length hcubes hcubes, _, inner_of_length hgradient hcubes, _,
    Vec.combine_of_length rfl, _, Vec.combine_of_length hsquares, _, ?_,
    projectTangent_eq hx ((selfAdjoint_corrected hA hx gradient).length_eq hη)⟩
  have hthree : (3.0 : K) = 3 := by norm_num
  rw [hthree]
  exact Vec.combine_of_length hproduct

theorem convertHessian_eq {c : Cache K} (hx : x.length = s.samples) (hA : s.SelfAdjoint A)
    (hgradient : gradient.length = s.samples) (hkept : c.gradientFor? x = some gradient)
    (hη : η.length = s.samples) :
    s.manifold.convertHessian x η (A η) c = (.ok (s.hessian gradient x A η), c) :=
  (convertHessian_of_some hη (hA.length_eq hη) hkept).trans
    (congrArg (·, c) (hessianWith_eq hgradient hx hη hA))

/-- **Converted Hessians are self-adjoint** linear maps of the tangent space. -/
theorem convertHessian_selfAdjoint {c : Cache K} (hx : s.OnSphere x) (hA : s.SelfAdjoint A)
    (hgradient : gradient.length = s.samples) (hkept : c.gradientFor? x = some gradient) :
    ∃ H : Vec K → Vec K,
      (∀ η, η.length = s.samples →
        s.manifold.convertHessian x η (A η) c = (.ok (H η), c) ∧ s.Tangent x (H η)) ∧
      (∀ a b η ζ v, η.length = s.samples → Vec.Combines a η b ζ v →
        Vec.Combines a (H η) b (H ζ) (H v)) ∧
      ∀ η ζ, s.Tangent x η → s.Tangent x ζ →
        ∃ r, s.inner ζ (H η) = .ok r ∧ s.inner (H ζ) η = .ok r := by
  have hB := selfAdjoint_corrected hA hx.length_eq gradient
  refine ⟨s.hessian gradient x A, fun η hη => ?_, fun a b η ζ v hη h => ?_, fun η ζ hη hζ => ?_⟩
  · exact ⟨convertHessian_eq hx.length_eq hA hgradient hkept hη,
      tangent_tangentPart hx (hB.length_eq hη)⟩
  · exact tangentPart_combines hx.length_eq (hB.length_eq hη) (hB.combines hη h)
  · have hleft := hB.length_eq hη.length_eq
    have hright := hB.length_eq hζ.length_eq
    have hsame : s.form (s.hessian gradient x A ζ) η = s.form ζ (s.hessian gradient x A η) := calc
      s.form (s.hessian gradient x A ζ) η
          = s.form (s.corrected gradient x A ζ) η := form_tangentPart hx.length_eq hright hη
      _ = s.form ζ (s.corrected gradient x A η) := hB.form_eq hζ.length_eq hη.length_eq
      _ = s.form (s.corrected gradient x A η) ζ := form_comm _ _
      _ = s.form (s.hessian gradient x A η) ζ :=
        (form_tangentPart hx.length_eq hleft hζ).symm
      _ = s.form ζ (s.hessian gradient x A η) := form_comm _ _
    exact ⟨_, inner_of_length hζ.length_eq (tangent_tangentPart hx hleft).length_eq,
      hsame ▸ inner_of_length (tangent_tangentPart hx hright).length_eq hη.length_eq⟩

/-- A gradient kept for `(1, 1, 1)`, and the products of two tangent vectors there with a
multiplication. -/
theorem convertHessian_selfAdjoint_triple :
    ∃ (c : Cache ℚ) (u v : Vec ℚ), c.gradientFor? [1, 1, 1] = some [3, 0, 1] ∧
      triple.manifold.convertHessian [1, 1, 1] [1, 0, -1] [1, 0, -3] c = (.ok u, c) ∧
      triple.manifold.convertHessian [1, 1, 1] [1, -1, 1] [1, -2, 3] c = (.ok v, c) ∧
      triple.Tangent [1, 1, 1] u ∧ triple.Tangent [1, 1, 1] v ∧
      ∃ r, triple.inner [1, -1, 1] u = .ok r ∧ triple.inner v [1, 0, -1] = .ok r := by
  have hx : triple.OnSphere ([1, 1, 1] : Vec ℚ) := eq_ok_of_yields (by decide +kernel)
  have hη : triple.Tangent ([1, 1, 1] : Vec ℚ) [1, 0, -1] := eq_ok_of_yields (by decide +kernel)
  have hζ : triple.Tangent ([1, 1, 1] : Vec ℚ) [1, -1, 1] := eq_ok_of_yields (by decide +kernel)
  have hkept : (({} : Cache ℚ).keepGradient [1, 1, 1] [3, 0, 1]).gradientFor? [1, 1, 1] =
      some [3, 0, 1] := by decide +kernel
  obtain ⟨H, hH, -, hadjoint⟩ := convertHessian_selfAdjoint hx
    (selfAdjoint_products (s := triple) (d := [1, 2, 3]) rfl) rfl hkept
  have hfirst : Vec.products [1, 2, 3] ([1, 0, -1] : Vec ℚ) = [1, 0, -3] := by decide +kernel
  have hsecond : Vec.products [1, 2, 3] ([1, -1, 1] : Vec ℚ) = [1, -2, 3] := by decide +kernel
  obtain ⟨hu, htangent⟩ := hH [1, 0, -1] rfl
  obtain ⟨hv, htangent'⟩ := hH [1, -1, 1] rfl
  rw [hfirst] at hu
  rw [hsecond] at hv
  exact ⟨_, _, _, hkept, hu, hv, htangent, htangent', hadjoint _ _ hη hζ⟩

end GeodesicDescent.Sphere
