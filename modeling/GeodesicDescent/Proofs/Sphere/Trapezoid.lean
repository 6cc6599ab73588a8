import GeodesicDescent.Proofs.Spaces
import GeodesicDescent.Proofs.Sphere.Operators

/-!
# The inner product is the trapezoid rule

The inner product is computed as a full sum of products less half of what the two ends add to it,
and the flat vector of a function by halving two of its entries. Both are the trapezoid rule, for
any number of samples, also for two, where every sample is an end.

* `Sphere.form_eq_trapezoid`: the form of the sphere is the trapezoid rule;
* `inner_of_short`: the lengths that are refused, in any arithmetic;
* `Manifold.DefiniteForm`: a form that is positive definite and comes with flat vectors;
* **`inner_trapezoid`**: what the inner product of a sphere is.
-/

namespace GeodesicDescent

open Stateful Finset

/-- At a point the inner products are given by a form that is positive definite, and that a vector
has with another as the dot product of its flat vector. -/
structure Manifold.DefiniteForm {K : Type} [Field K] [LinearOrder K] [Elementary K] [Tolerances K]
    (M : Manifold K) (x : Vec K) (n : Nat) (form : Vec K → Vec K → K) : Prop extends
    M.HasForm x n form where
  combines_right : ∀ {u v w : Vec K} {a b : K}, Vec.Combines a u b v w → ∀ z,
    form z w = a * form z u + b * form z v
  self_pos : ∀ {u : Vec K}, u.length = n → (∃ t ∈ u, t ≠ 0) → 0 < form u u
  flat_eq : ∀ {u v : Vec K}, u.length = n → v.length = n → ∃ flat, M.flat x u = .ok flat ∧
    flat.length = n ∧ Vec.dot? flat v = .ok (form u v)

namespace Sphere

theorem inner_of_short {F : Type} [Scalar F] {s : Sphere} (u v : Vec F) :
    (u.length ≠ s.samples → s.inner u v = refuse (.lengths s.samples u.length)) ∧
    (u.length = s.samples → v.length ≠ s.samples →
      s.inner u v = refuse (.lengths s.samples v.length)) := by
  constructor
  · intro hu
    rw [inner, requireLength, if_neg hu]
    rfl
  · intro hu hv
    have hdot : Vec.dot? u v = .error (.lengths u.length v.length) :=
      if_neg fun h => hv (h.symm.trans hu)
    rw [inner, (requireLength_eq_ok (r := ())).2 hu, hdot, hu]
    rfl

variable {K : Type} [Field K] [LinearOrder K] [IsStrictOrderedRing K] [Elementary K] [Tolerances K]
variable {s : Sphere} {u v : Vec K}

theorem weight_eq_ite (i : Nat) : s.weight i =
    (if i = 0 ∨ i = s.samples - 1 then 1 / 2 else 1) * (1 / ((s.samples : K) - 1)) := by
  have hsamples := s.two_le_samples
  rw [weight, spacing, Nat.cast_pred (by omega)]
  by_cases hfirst : i = 0
  · rw [if_pos hfirst, if_neg (by omega), if_pos (.inl hfirst)]
    ring
  · rw [if_neg hfirst, if_congr (or_iff_right hfirst) rfl rfl]
    split_ifs
    all_goals ring

theorem form_eq_trapezoid (u v : Vec K) : s.form u v = trapezoid s.samples u v :=
  sum_congr rfl fun i _ => by rw [weight_eq_ite]

theorem exists_flat_dot (hu : u.length = s.samples) (hv : v.length = s.samples) : ∃ flat,
    s.obtainFlat u = .ok flat ∧ flat.length = s.samples ∧ Vec.dot? flat v = .ok (s.form u v) := by
  obtain ⟨flat, hflat, hlength, hentries⟩ := flat_eq_ok hu
  have hsame : flat.length = v.length := hlength.trans hv.symm
  refine ⟨flat, ?_, hlength, ?_⟩
  · rw [obtainFlat, (requireLength_eq_ok (r := ())).2 hu]
    exact hflat
  · rw [Vec.dot?, if_pos hsame, Vec.rawDot_eq_sum hsame, hlength, form_comm,
      ← sum_flat hentries v]
    congr 1
    exact sum_congr rfl fun i _ => mul_comm _ _

/-- **The inner product of a sphere is the trapezoid rule**, the same at every point. -/
theorem inner_trapezoid (s : Sphere) (x : Vec K) :
    s.manifold.DefiniteForm x s.samples (trapezoid s.samples) ∧
    (∀ y u v : Vec K, s.manifold.inner y u v = s.manifold.inner x u v) ∧
    ∀ u v : Vec K,
      (u.length ≠ s.samples →
        s.manifold.inner x u v = refuse (.lengths s.samples u.length)) ∧
      (u.length = s.samples → v.length ≠ s.samples →
        s.manifold.inner x u v = refuse (.lengths s.samples v.length)) := by
  have hform : trapezoid s.samples = s.form (K := K) :=
    funext₂ fun u v => (form_eq_trapezoid u v).symm
  refine ⟨?_, fun _ _ _ => rfl, inner_of_short⟩
  rw [hform]
  exact {
    toHasForm := (Space.sphere s).hasForm x
    combines_right := fun h z => by
      rw [form_comm, form_combines h, form_comm _ z, form_comm _ z]
    self_pos := fun hlength => Space.form_self_pos (S := .sphere s) hlength
    flat_eq := exists_flat_dot }

/-- At two samples both are ends: `(1·4 + 3·(-2)) / 2 = -1`. A third value is refused. -/
theorem inner_trapezoid_segment :
    segment.manifold.inner [] [1, 3] [4, -2] = .ok (-1 : ℚ) ∧
    trapezoid 2 [1, 3] [4, -2] = (-1 : ℚ) ∧ (0 : ℚ) < trapezoid 2 [1, 3] [1, 3] ∧
    (∃ flat, segment.manifold.flat [] [1, 3] = .ok flat ∧
      Vec.dot? flat [4, -2] = .ok (-1 : ℚ)) ∧
    segment.manifold.inner [] [1, 3] [4, -2, 0] = (refuse (.lengths 2 3) : Checked ℚ) := by
  have hvalue : trapezoid 2 [1, 3] [4, -2] = (-1 : ℚ) := by
    norm_num [trapezoid, sum_range_succ]
  obtain ⟨hform, -, hrefused⟩ := inner_trapezoid segment ([] : Vec ℚ)
  obtain ⟨flat, hflat, -, hdot⟩ := hform.flat_eq (u := [1, 3]) (v := [4, -2]) rfl rfl
  have hinner := hform.inner_eq (u := [1, 3]) (v := [4, -2]) rfl rfl
  refine ⟨hinner.trans (congrArg _ hvalue), hvalue, ?_, ⟨flat, hflat, ?_⟩, ?_⟩
  · exact hform.self_pos rfl ⟨1, by simp, one_ne_zero⟩
  · exact hdot.trans (congrArg _ hvalue)
  · exact (hrefused [1, 3] [4, -2, 0]).2 rfl (by decide)

end Sphere

end GeodesicDescent
