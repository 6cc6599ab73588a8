import GeodesicDescent.Proofs.Sphere.Transparency
import GeodesicDescent.Proofs.Vec

/-!
# The inner product as a bilinear form

Over an ordered field the inner product of sampled functions is a weighted sum over the samples,
linear in each function.

* `Sphere.weight`, `Sphere.form`: the weights of the trapezoid rule, and the weighted sum;
* **`inner_eq_ok`**: the inner product is that sum, for functions with one value per sample;
* `form_combines`, `form_of_getD`, `form_comm`: it is bilinear and symmetric.
-/

namespace GeodesicDescent.Sphere

open Finset

/-- The trapezoid rule for the integral of a product over the unit interval, at `n` samples. -/
def trapezoid {K : Type} [Field K] (n : Nat) (u v : Vec K) : K :=
  ∑ i ∈ range n, (if i = 0 ∨ i = n - 1 then 1 / 2 else 1) * (1 / (n - 1)) *
    (u.getD i 0 * v.getD i 0)

variable {K : Type} [Field K] [LinearOrder K] [Elementary K] [Tolerances K] {s : Sphere}

/-- The weight of a sample: the spacing, half of it at both ends. -/
def weight (s : Sphere) (i : Nat) : K :=
  s.spacing * (1 - (if i = 0 then 1 / 2 else 0) - (if i = s.samples - 1 then 1 / 2 else 0))

/-- The weighted sum of the products of the values of two functions. -/
def form (s : Sphere) (u v : Vec K) : K :=
  ∑ i ∈ range s.samples, s.weight i * (u.getD i 0 * v.getD i 0)

/-! ## Linearity -/

theorem form_comm (u v : Vec K) : s.form u v = s.form v u := Vec.weightedSum_comm _ _ u v

theorem form_combines {a b : K} {u v w : Vec K} (h : Vec.Combines a u b v w) (z : Vec K) :
    s.form w z = a * s.form u z + b * s.form v z := Vec.weightedSum_combines _ _ h z

theorem form_of_getD {c : K} {v w : Vec K} (h : ∀ i, w.getD i 0 = c * v.getD i 0) (z : Vec K) :
    s.form w z = c * s.form v z := Vec.weightedSum_of_getD _ _ h z

theorem form_scale (v : Vec K) (c : K) (z : Vec K) : s.form (Vec.scale v c) z = c * s.form v z :=
  form_of_getD (Vec.getD_scale v c) z

theorem form_divide (v : Vec K) (c : K) (z : Vec K) :
    s.form (Vec.divide v c) z = c⁻¹ * s.form v z :=
  form_of_getD (Vec.getD_divide v c) z

theorem form_neg (v z : Vec K) : s.form (Vec.neg v) z = -s.form v z := by
  rw [form_of_getD (Vec.getD_neg v) z, neg_one_mul]

/-! ## The inner product -/

omit [Field K] [LinearOrder K] [Elementary K] [Tolerances K] in
theorem entry_of_lt [Zero K] {v : Vec K} {i : Nat} (h : i < v.length) :
    Vec.entry v i = .ok (v.getD i 0) := by
  simp [Vec.entry, h]

variable [IsStrictOrderedRing K]

theorem form_eq (u v : Vec K) : s.form u v =
    (∑ i ∈ range s.samples, u.getD i 0 * v.getD i 0 -
      (u.getD 0 0 * v.getD 0 0 + u.getD (s.samples - 1) 0 * v.getD (s.samples - 1) 0) * 0.5) *
        s.spacing := by
  have hends (j : Nat) (hj : j ∈ range s.samples) :
      ∑ i ∈ range s.samples, (if i = j then (1 / 2 : K) else 0) * (u.getD i 0 * v.getD i 0) =
        1 / 2 * (u.getD j 0 * v.getD j 0) := by
    rw [sum_eq_single_of_mem j hj fun i _ hij => by rw [if_neg hij, zero_mul], if_pos rfl]
  have h := s.two_le_samples
  have hfirst := hends 0 (mem_range.2 (by omega))
  have hlast := hends (s.samples - 1) (mem_range.2 (by omega))
  have hsplit : s.form u v = s.spacing * (∑ i ∈ range s.samples, u.getD i 0 * v.getD i 0 -
      ∑ i ∈ range s.samples, (if i = 0 then (1 / 2 : K) else 0) * (u.getD i 0 * v.getD i 0) -
      ∑ i ∈ range s.samples,
        (if i = s.samples - 1 then (1 / 2 : K) else 0) * (u.getD i 0 * v.getD i 0)) := by
    rw [← sum_sub_distrib, ← sum_sub_distrib, mul_sum]
    refine sum_congr rfl fun i _ => ?_
    unfold weight
    ring
  rw [hsplit, hfirst, hlast, scientific_half]
  ring

theorem inner_of_length {u v : Vec K} (hu : u.length = s.samples) (hv : v.length = s.samples) :
    s.inner u v = .ok (s.form u v) := by
  have hsamples := s.two_le_samples
  have hdot : Vec.dot? u v = .ok (∑ i ∈ range s.samples, u.getD i 0 * v.getD i 0) := by
    rw [Vec.dot?, if_pos (hu.trans hv.symm), Vec.rawDot_eq_sum (hu.trans hv.symm), hu]
  have hentry {w : Vec K} {i : Nat} (hw : w.length = s.samples) (hi : i < s.samples) :
      Vec.entry w i = .ok (w.getD i 0) := entry_of_lt (by omega)
  unfold inner
  rw [(requireLength_eq_ok (r := ())).2 hu, hdot, hentry hu (by omega), hentry hv (by omega),
    form_eq]
  simp only [hentry hu (show s.samples - 1 < s.samples by omega),
    hentry hv (show s.samples - 1 < s.samples by omega)]
  rfl

/-- **The inner product is the weighted sum**, for functions with one value per sample. -/
theorem inner_eq_ok {u v : Vec K} {r : K} : s.inner u v = .ok r ↔
    u.length = s.samples ∧ v.length = s.samples ∧ s.form u v = r := by
  by_cases hu : u.length = s.samples
  · by_cases hv : v.length = s.samples
    · rw [inner_of_length hu hv, Except.ok.injEq]
      exact ⟨fun h => ⟨hu, hv, h⟩, fun h => h.2.2⟩
    · have hdot : Vec.dot? u v = .error (.lengths u.length v.length) :=
        if_neg fun h => hv (h.symm.trans hu)
      rw [inner, (requireLength_eq_ok (r := ())).2 hu, hdot]
      exact ⟨by rintro ⟨⟩, fun h => absurd h.2.1 hv⟩
  · rw [inner, requireLength, if_neg hu]
    exact ⟨by rintro ⟨⟩, fun h => absurd h.1 hu⟩

theorem form_segment (a b c d : K) : segment.form [a, b] [c, d] = (a * c + b * d) / 2 := by
  simp [form, weight, spacing, segment, samples, sum_range_succ]
  ring

end GeodesicDescent.Sphere
