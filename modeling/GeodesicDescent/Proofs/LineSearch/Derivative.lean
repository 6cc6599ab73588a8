import GeodesicDescent.Proofs.Partials
import GeodesicDescent.Proofs.Spaces
import GeodesicDescent.Proofs.Sphere.Geodesic
import GeodesicDescent.Proofs.LineSearch.Workspace

/-!
# The slope and the derivative

A search takes the inner product of the gradient with its direction for the derivative of the
objective along its curve. From partial derivatives a space makes a gradient by projection alone,
whose inner products weigh each partial derivative as the space weighs a coordinate. Where all
weights are one this is the derivative, and on a sphere only by chance.

* `Space.Point`, `Space.TangentAt`, `Space.curve`: points, tangent vectors, and the curve along
  which steps lead;
* `Space.retract_eq_curve`, **`Space.hasDerivAt_curve`**: where a step leads, and the derivative
  along the curve;
* **`Space.inner_convertGradient`**: the inner products of a converted gradient;
* **`Problem.slope_of_partials`**: what a search takes for the derivative, and where it is;
* `Problem.slope_misses_derivative`: a direction that leads uphill is taken for one that leads
  downhill.
-/

namespace GeodesicDescent

open Stateful Finset

namespace Space

section Tangent

variable {K : Type} [Scalar K]

/-- A point of a space. -/
def Point : (S : Space) → (x : Vec K) → Prop
  | sphere s, x => s.OnSphere x
  | flat s, x => x.length = s.dimension

/-- A tangent vector at a point. -/
def TangentAt : (S : Space) → (x η : Vec K) → Prop
  | sphere s, x, η => s.Tangent x η
  | flat s, _, η => η.length = s.dimension

end Tangent

section Gradient

variable {K : Type} [Field K] [LinearOrder K] [Elementary K] [Tolerances K]
variable {S : Space} {x η g u : Vec K}

theorem sum_sub_form (g η : Vec K) : ∑ i ∈ range S.size, g.getD i 0 * η.getD i 0 - S.form g η =
    ∑ i ∈ range S.size, (1 - S.weight i) * (g.getD i 0 * η.getD i 0) := by
  rw [form, Vec.weightedSum, ← sum_sub_distrib]
  exact sum_congr rfl fun i _ => by ring

theorem form_eq_sum_iff (g η : Vec K) : S.form g η = ∑ i ∈ range S.size, g.getD i 0 * η.getD i 0 ↔
    ∑ i ∈ range S.size, (1 - S.weight i) * (g.getD i 0 * η.getD i 0) = 0 := by
  rw [← sum_sub_form, sub_eq_zero, eq_comm]

theorem convertGradient_eq_ok (h : S.manifold.projectTangent x g = .ok u) (usage : Usage)
    (c : Cache K) : ∃ c', S.manifold.convertGradient x g usage c = (.ok u, c') := by
  have hkept := (Cached.keepGradient_apply usage (S.manifold.projectTangent x g) x g c).trans
    (congrArg (·, _) h)
  cases S with
  | sphere s => exact ⟨_, hkept⟩
  | flat s => exact ⟨_, hkept⟩

variable [IsStrictOrderedRing K]

theorem Point.length_eq (hx : S.Point x) : x.length = S.size := by
  cases S with
  | sphere s => exact Sphere.OnSphere.length_eq hx
  | flat s => exact hx

theorem TangentAt.length_eq (hη : S.TangentAt x η) : η.length = S.size := by
  cases S with
  | sphere s => exact Sphere.Tangent.length_eq hη
  | flat s => exact hη

theorem exists_projectTangent (hx : S.Point x) (hg : g.length = S.size) :
    ∃ u, S.manifold.projectTangent x g = .ok u ∧ u.length = S.size ∧
      ∀ η, S.TangentAt x η → S.form u η = S.form g η := by
  cases S with
  | sphere s =>
    have hlength := Sphere.OnSphere.length_eq hx
    exact ⟨_, Sphere.projectTangent_eq hlength hg, (Sphere.tangent_tangentPart hx hg).length_eq,
      fun η => Sphere.form_tangentPart hlength hg⟩
  | flat s =>
    exact ⟨g, checked_bind_eq_ok.2 ⟨(), Flat.requireLength_eq_ok.2 hg, rfl⟩, hg, fun η _ => rfl⟩

/-- **A converted gradient gives the weighted sums**, whatever the gradient stands for. -/
theorem inner_convertGradient (hx : S.Point x) (hg : g.length = S.size) (usage : Usage)
    (c : Cache K) : ∃ u c', S.manifold.convertGradient x g usage c = (.ok u, c') ∧
      ∀ η, S.TangentAt x η → S.manifold.inner x u η = .ok (S.form g η) := by
  obtain ⟨u, hu, hlength, hform⟩ := exists_projectTangent hx hg
  obtain ⟨c', hc'⟩ := convertGradient_eq_ok hu usage c
  exact ⟨u, c', hc', fun η hη => inner_eq_ok.2 ⟨hlength, hη.length_eq, hform η hη⟩⟩

end Gradient

/-! ## Curves -/

section Curve

variable [Tolerances ℝ] {S : Space} {x η : Vec ℝ} {a r : ℝ}

/-- The point after a multiple of a tangent vector: on its great circle, or straight on. -/
noncomputable def curve : (S : Space) → (x η : Vec ℝ) → (a : ℝ) → Vec ℝ
  | sphere s, x, η, a => s.geodesic x η a
  | flat _, x, η, a => x.zipWith (· + ·) (Vec.scale η a)

theorem combines_curve_flat {s : Flat} (hx : x.length = s.dimension) (hη : η.length = s.dimension)
    (a : ℝ) : Vec.Combines 1 x 1 (Vec.scale η a) ((flat s).curve x η a) :=
  Vec.combines_add (Vec.combine_of_length (hx.trans (hη.symm.trans (Vec.length_scale _ _).symm)))

theorem length_curve (hx : S.Point x) (hη : S.TangentAt x η) (a : ℝ) :
    (S.curve x η a).length = S.size := by
  cases S with
  | sphere s => exact (Sphere.combines_geodesic hx hη a).length_left.trans hx.length_eq
  | flat s => exact (combines_curve_flat hx hη a).length_left.trans hx

theorem curve_zero (hx : S.Point x) (hη : S.TangentAt x η) : S.curve x η 0 = x := by
  cases S with
  | sphere s => exact Sphere.geodesic_zero hx hη
  | flat s =>
    refine Vec.ext_getD (combines_curve_flat hx hη 0).length_left fun i => ?_
    rw [(combines_curve_flat hx hη 0).entry, Vec.getD_scale]
    ring

/-- A step leads along the curve, unless it is shorter than the precision. -/
theorem retract_eq_curve (hx : S.Point x) (hη : S.TangentAt x η)
    (hnorm : S.manifold.norm x (Vec.scale η a) = .ok r) (hlong : Scalar.epsilon ≤ r) :
    S.manifold.retract x (Vec.scale η a) = .ok (S.curve x η a) := by
  have hstep : (Vec.scale η a).length = S.size := (Vec.length_scale _ _).trans hη.length_eq
  cases S with
  | sphere s =>
    have hr : |a| * s.speed η = r := by
      rw [← Sphere.speed_scale]
      exact Except.ok.inj ((Sphere.norm_of_length x hstep).symm.trans hnorm)
    exact Sphere.retract_eq_geodesic hx hη (hr ▸ hlong)
  | flat s =>
    exact checked_bind_eq_ok.2 ⟨(), Flat.requireLength_eq_ok.2 hstep,
      Vec.combine_of_length (hx.trans hstep.symm)⟩

theorem hasDerivAt_curve_entry (hx : S.Point x) (hη : S.TangentAt x η) (i : Nat) :
    HasDerivAt (fun a => (S.curve x η a).getD i 0) (η.getD i 0) 0 := by
  cases S with
  | sphere s => exact Sphere.hasDerivAt_geodesic hx hη i
  | flat s =>
    have hentry : (fun a => ((flat s).curve x η a).getD i 0) = fun a =>
        x.getD i 0 + a * η.getD i 0 := by
      funext a
      rw [(combines_curve_flat hx hη a).entry, Vec.getD_scale, one_mul, one_mul]
    rw [hentry]
    exact (hasDerivAt_mul_const _).const_add _

/-- **The derivative along the curve** is the sum of the products of the partial derivatives with
the entries of the tangent vector. -/
theorem hasDerivAt_curve {φ : Vec ℝ → ℝ} {g : Vec ℝ} (hx : S.Point x) (hη : S.TangentAt x η)
    (hg : PartialsAt φ x g) (hφ : DifferentiableAt ℝ
      (fun u : Fin S.size → ℝ => φ (List.ofFn u)) fun i => x.getD i 0) :
    HasDerivAt (fun a => φ (S.curve x η a)) (∑ i ∈ range S.size, g.getD i 0 * η.getD i 0) 0 :=
  hg.hasDerivAt_along hx.length_eq hφ (length_curve hx hη) (curve_zero hx hη)
    (hasDerivAt_curve_entry hx hη)

end Curve

end Space

/-! ## Three samples -/

namespace Sphere

/-- The sphere of the functions with three samples. -/
def triple : Sphere := ⟨{ samples := 3 }, rfl⟩

theorem form_triple (a b c d e f : ℝ) :
    triple.form [a, b, c] [d, e, f] = (a * d + 2 * (b * e) + c * f) / 4 := by
  norm_num [form, weight, spacing, triple, samples, sum_range_succ]
  ring

theorem onSphere_triple : triple.OnSphere ([1, 1, 1] : Vec ℝ) := by
  refine inner_eq_ok.2 ⟨rfl, rfl, ?_⟩
  rw [form_triple]
  norm_num

theorem tangent_triple : triple.Tangent ([1, 1, 1] : Vec ℝ) [1, -1, 1] := by
  refine inner_eq_ok.2 ⟨rfl, rfl, ?_⟩
  rw [form_triple]
  norm_num

end Sphere

namespace Quadratic

/-- The sum of the products with three numbers. -/
noncomputable def slant (b : Vec ℝ) : Quadratic ℝ := ⟨.ofFn 3 3 fun _ _ => 0, b, 0⟩

variable {b x : Vec ℝ}

theorem fits_slant (hb : b.length = 3) : (slant b).Fits 3 := ⟨rfl, rfl, hb⟩

theorem entry_slant (b : Vec ℝ) (i j : Nat) : (slant b).a.entry i j = 0 := by
  rw [slant, Matrix.entry_ofFn, ite_self]

theorem evalWithGradient_slant (hb : b.length = 3) (hx : x.length = 3) (s : Unit) :
    (slant b).objective.evalWithGradient x s = (.ok ((slant b).valueAt x, b), s) := by
  have hlength : ((slant b).a.product x).length = b.length :=
    (Matrix.length_product _ _).trans hb.symm
  have hproduct (i : Nat) : ((slant b).a.product x).getD i 0 = 0 := by
    rw [Matrix.getD_product]
    exact sum_eq_zero fun j _ => by rw [entry_slant, zero_mul]
  have hadd := Vec.combines_add (Vec.combine_of_length hlength)
  refine evalWithGradient_eq_ok.2 ⟨hx ▸ fits_slant hb, rfl, ?_, rfl⟩
  show Vec.add _ b = _
  rw [Vec.add, Vec.combine_of_length hlength, Except.ok.injEq]
  refine Vec.ext_getD hadd.length_right fun i => ?_
  rw [hadd.entry, hproduct, mul_zero, zero_add, one_mul]

theorem partialsAt_slant (hb : b.length = 3) (hx : x.length = 3) :
    PartialsAt (slant b).valueAt x b :=
  partialsAt (fun i j => by rw [entry_slant, entry_slant]) (evalWithGradient_slant hb hx ())

theorem differentiableAt_slant (hb : b.length = 3) (u : Fin 3 → ℝ) :
    DifferentiableAt ℝ (fun u : Fin 3 → ℝ => (slant b).valueAt (List.ofFn u)) u :=
  differentiable_valueAt (fits_slant hb) u

end Quadratic

/-! ## The slope of a search -/

open Sphere Quadratic

namespace Problem

section Slope

variable [Tolerances ℝ] {σ : Type} {S : Space} {p : Problem ℝ σ} {φ : Vec ℝ → ℝ}
variable {x η ambient : Vec ℝ} {value : ℝ} {w : Workspace ℝ σ} {o : σ}

/-- **The slope that a search takes for the derivative** is it exactly where the weights of the
inner product do not show. -/
theorem slope_of_partials (hmanifold : p.manifold = S.manifold) (hvalues : p.objective.HasValues φ)
    (hx : S.Point x) (hη : S.TangentAt x η)
    (hanswer : p.objective.evalWithGradient x w.objective = (.ok (value, ambient), o))
    (hpartials : PartialsAt φ x ambient) :
    (∃ g w', p.evaluate x w = (.ok (φ x, g), w') ∧
      p.manifold.inner x g η = .ok (∑ i ∈ range S.size,
        S.weight i * (ambient.getD i 0 * η.getD i 0)) ∧
      (p.manifold.inner x g η = .ok (∑ i ∈ range S.size, ambient.getD i 0 * η.getD i 0) ↔
        ∑ i ∈ range S.size, (1 - S.weight i) * (ambient.getD i 0 * η.getD i 0) = 0) ∧
      ∀ s : Flat, S = .flat s →
        p.manifold.inner x g η = .ok (∑ i ∈ range S.size, ambient.getD i 0 * η.getD i 0)) ∧
    (∀ a r, p.manifold.norm x (Vec.scale η a) = .ok r → Scalar.epsilon ≤ r →
      p.manifold.retract x (Vec.scale η a) = .ok (S.curve x η a)) ∧
    (DifferentiableAt ℝ (fun u : Fin S.size → ℝ => φ (List.ofFn u)) (fun i => x.getD i 0) →
      HasDerivAt (fun a => φ (S.curve x η a))
        (∑ i ∈ range S.size, ambient.getD i 0 * η.getD i 0) 0) := by
  rw [hmanifold]
  refine ⟨?_, fun a r => Space.retract_eq_curve hx hη, Space.hasDerivAt_curve hx hη hpartials⟩
  obtain ⟨g, c, hg, hinner⟩ := Space.inner_convertGradient hx
    (hpartials.length_eq.trans hx.length_eq) p.usage w.cache
  obtain rfl := hvalues.evalWithGradient hanswer
  refine ⟨g, _, evaluate_eq_ok.2 ⟨ambient, o, c, hanswer, hmanifold ▸ hg, rfl⟩, hinner η hη, ?_, ?_⟩
  · rw [hinner η hη, Except.ok.injEq, Space.form_eq_sum_iff]
  · rintro s rfl
    rw [hinner η hη, Except.ok.injEq, Space.form_eq_sum_iff]
    exact sum_eq_zero fun i _ => by rw [Space.weight, sub_self, zero_mul]

end Slope

/-- A sum of products on the sphere of the functions with three samples. -/
noncomputable def slanted (b : Vec ℝ) : Problem ℝ Unit where
  objective := (slant b).objective
  manifold := triple.manifold
  usage := .firstOrder

theorem slope_of_partials_slanted :
    ∃ g w', (slanted [2, 6, 2]).evaluate [1, 1, 1] { objective := () } =
        (.ok ((slant [2, 6, 2]).valueAt [1, 1, 1], g), w') ∧
      triple.inner g [1, -1, 1] = .ok (-2) ∧
      HasDerivAt (fun a => (slant [2, 6, 2]).valueAt (triple.geodesic [1, 1, 1] [1, -1, 1] a))
        (-2) 0 := by
  have hderivative : ∑ i ∈ range 3, ([2, 6, 2] : Vec ℝ).getD i 0 *
      ([1, -1, 1] : Vec ℝ).getD i 0 = -2 := by
    norm_num [sum_range_succ]
  obtain ⟨⟨g, w', hg, hslope, -⟩, -, hderiv⟩ := slope_of_partials (S := .sphere triple)
    (p := slanted [2, 6, 2]) (w := { objective := () }) rfl (slant _).objective_hasValues
    onSphere_triple tangent_triple (evalWithGradient_slant rfl rfl ()) (partialsAt_slant rfl rfl)
  refine ⟨g, w', hg, ?_, ?_⟩
  · have hform : triple.form [2, 6, 2] [1, -1, 1] = (-2 : ℝ) := by
      rw [form_triple]
      norm_num
    exact hslope.trans (congrArg _ hform)
  · exact (hderiv (differentiableAt_slant rfl _)).congr_deriv hderivative

/-- **Uphill is taken for downhill**: the objective rises along the great circle. -/
theorem slope_misses_derivative :
    triple.OnSphere ([1, 1, 1] : Vec ℝ) ∧ triple.Tangent ([1, 1, 1] : Vec ℝ) [1, -1, 1] ∧
      PartialsAt (slant [2, 3, 2]).valueAt [1, 1, 1] [2, 3, 2] ∧
      (∃ g w', (slanted [2, 3, 2]).evaluate [1, 1, 1] { objective := () } =
          (.ok ((slant [2, 3, 2]).valueAt [1, 1, 1], g), w') ∧
        triple.inner g [1, -1, 1] = .ok (-1 / 2)) ∧
      ∑ i ∈ range 3, ([2, 3, 2] : Vec ℝ).getD i 0 * ([1, -1, 1] : Vec ℝ).getD i 0 = 1 ∧
      HasDerivAt (fun a => (slant [2, 3, 2]).valueAt (triple.geodesic [1, 1, 1] [1, -1, 1] a))
        1 0 := by
  have hpartials : PartialsAt (slant [2, 3, 2]).valueAt [1, 1, 1] [2, 3, 2] :=
    partialsAt_slant rfl rfl
  have hderivative : ∑ i ∈ range 3, ([2, 3, 2] : Vec ℝ).getD i 0 *
      ([1, -1, 1] : Vec ℝ).getD i 0 = 1 := by
    norm_num [sum_range_succ]
  have hderiv := Space.hasDerivAt_curve (S := .sphere triple) onSphere_triple tangent_triple
    hpartials (differentiableAt_slant rfl _)
  obtain ⟨g, c, hg, hinner⟩ := Space.inner_convertGradient (S := .sphere triple) onSphere_triple
    (g := [2, 3, 2]) rfl .firstOrder {}
  refine ⟨onSphere_triple, tangent_triple, hpartials,
    ⟨g, { objective := (), cache := c }, ?_, ?_⟩, hderivative, hderiv.congr_deriv hderivative⟩
  · exact evaluate_eq_ok.2 ⟨_, (), c, evalWithGradient_slant rfl rfl (), hg, rfl⟩
  · have hform : triple.form [2, 3, 2] [1, -1, 1] = (-1 / 2 : ℝ) := by
      rw [form_triple]
      norm_num
    exact (hinner _ tangent_triple).trans (congrArg _ hform)

end Problem

end GeodesicDescent
