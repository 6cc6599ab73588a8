import Mathlib
import GeodesicDescent.Proofs.Matrix
import GeodesicDescent.Proofs.LineSearch.Workspace

/-!
# Partial derivatives

What an objective calls its gradient is the vector of the partial derivatives of its value, which
says how fast the value changes along any curve.

* **`PartialsAt`**: the vector of the partial derivatives of a function at a point;
* **`PartialsAt.hasDerivAt_along`**: the derivative along a curve;
* `Quadratic.valueAt_set`: what a change of one entry does to the value of a quadratic;
* **`Quadratic.partialsAt`**: what the quadratic of a symmetric matrix answers as its gradient.
-/

namespace GeodesicDescent

open Stateful Finset

/-- The vector `g` holds the partial derivatives of `φ` at `x`. -/
structure PartialsAt (φ : Vec ℝ → ℝ) (x g : Vec ℝ) : Prop where
  length_eq : g.length = x.length
  hasDerivAt : ∀ i, i < x.length →
    HasDerivAt (fun t => φ (x.set i t)) (g.getD i 0) (x.getD i 0)

namespace PartialsAt

variable {φ : Vec ℝ → ℝ} {x g η : Vec ℝ} {γ : ℝ → Vec ℝ} {n : Nat}

theorem ofFn_getD {v : Vec ℝ} (h : v.length = n) :
    List.ofFn (fun i : Fin n => v.getD i 0) = v := by
  subst h
  refine List.ext_getElem List.length_ofFn fun i hi hi' => ?_
  rw [List.getElem_ofFn, List.getD_eq_getElem _ _ hi']

theorem ofFn_update {v : Vec ℝ} (h : v.length = n) (i : Fin n) (t : ℝ) :
    List.ofFn (Function.update (fun j : Fin n => v.getD j 0) i t) = v.set i t := by
  subst h
  refine List.ext_getElem (by rw [List.length_ofFn, List.length_set]) fun j hj hj' => ?_
  rw [List.length_set] at hj'
  rw [List.getElem_ofFn, List.getElem_set, Function.update_apply]
  by_cases hij : i.val = j
  · rw [if_pos hij, if_pos (Fin.ext hij.symm)]
  · rw [if_neg hij, if_neg (fun h => hij (congrArg Fin.val h).symm), List.getD_eq_getElem _ _ hj']

/-- **The derivative along a curve** that sets out from `x` in the direction `η`. -/
theorem hasDerivAt_along (h : PartialsAt φ x g) (hx : x.length = n)
    (hφ : DifferentiableAt ℝ (fun u : Fin n → ℝ => φ (List.ofFn u)) fun i => x.getD i 0)
    (hlength : ∀ a, (γ a).length = n) (hstart : γ 0 = x)
    (hγ : ∀ i, HasDerivAt (fun a => (γ a).getD i 0) (η.getD i 0) 0) :
    HasDerivAt (fun a => φ (γ a)) (∑ i ∈ range n, g.getD i 0 * η.getD i 0) 0 := by
  -- the derivative at `x` in the coordinate directions
  have hfirst (i : Fin n) : fderiv ℝ (fun u : Fin n → ℝ => φ (List.ofFn u))
      (fun i => x.getD i 0) (Pi.single i 1) = g.getD i 0 := by
    have hupdate := hasDerivAt_update (fun i : Fin n => x.getD i 0) i (x.getD i 0)
    have hcomp := hφ.hasFDerivAt.comp_hasDerivAt_of_eq (x.getD i 0) hupdate
      (Function.update_eq_self i _).symm
    have hfunction : (fun u : Fin n → ℝ => φ (List.ofFn u)) ∘
        Function.update (fun i : Fin n => x.getD i 0) i = fun t => φ (x.set i t) :=
      funext fun t => congrArg φ (ofFn_update hx i t)
    rw [hfunction] at hcomp
    exact hcomp.unique (h.hasDerivAt i (hx ▸ i.isLt))
  have hcurve : HasDerivAt (fun a (i : Fin n) => (γ a).getD i 0) (fun i => η.getD i 0) 0 :=
    hasDerivAt_pi.2 fun i => hγ i
  have hcomp := hφ.hasFDerivAt.comp_hasDerivAt_of_eq 0 hcurve (by rw [hstart])
  have hfunction : (fun u : Fin n → ℝ => φ (List.ofFn u)) ∘
      (fun a (i : Fin n) => (γ a).getD i 0) = fun a => φ (γ a) :=
    funext fun a => congrArg φ (ofFn_getD (hlength a))
  rw [hfunction] at hcomp
  refine hcomp.congr_deriv ?_
  rw [pi_eq_sum_univ' (fun i : Fin n => η.getD i 0), map_sum, sum_range]
  refine sum_congr rfl fun i _ => ?_
  rw [map_smul, hfirst, smul_eq_mul, mul_comm]

end PartialsAt

/-! ## Changing one entry -/

section Replacing

theorem getD_set_eq {x : Vec ℝ} {i : Nat} (hi : i < x.length) (t : ℝ) (j : Nat) :
    (x.set i t).getD j 0 = x.getD j 0 + (t - x.getD i 0) * Vec.placed i [1] j := by
  rw [List.getD_eq_getElem?_getD, List.getElem?_set, Vec.placed]
  by_cases hij : i = j
  · subst hij
    simp [hi]
  · rw [if_neg hij, ← List.getD_eq_getElem?_getD]
    split_ifs with hle
    · rw [Vec.getD_of_le (show ([1] : Vec ℝ).length ≤ j - i by rw [List.length_singleton]; omega),
        mul_zero, add_zero]
    · rw [mul_zero, add_zero]

theorem sum_mul_set {x : Vec ℝ} {i n : Nat} (hn : x.length = n) (hi : i < n) (t : ℝ)
    (f : Nat → ℝ) : ∑ j ∈ range n, f j * (x.set i t).getD j 0 =
      ∑ j ∈ range n, f j * x.getD j 0 + (t - x.getD i 0) * f i := by
  have hplaced : ∑ j ∈ range n, f j * Vec.placed i [1] j = f i := by
    rw [Matrix.sum_mul_placed f (show i + ([1] : Vec ℝ).length ≤ n from hi), List.length_singleton,
      sum_range_one, List.getD_cons_zero, mul_one, Nat.add_zero]
  rw [← hplaced, mul_sum, ← sum_add_distrib]
  refine sum_congr rfl fun j _ => ?_
  rw [getD_set_eq (hn ▸ hi)]
  ring

end Replacing

/-! ## Quadratics -/

namespace Quadratic

variable [Tolerances ℝ] {σ : Type} {q : Quadratic ℝ} {x : Vec ℝ} {n : Nat}

/-- The quadratic is one of vectors of a length. -/
structure Fits (q : Quadratic ℝ) (n : Nat) : Prop where
  rows_eq : q.a.rows = n
  width_eq : q.a.width = n
  length_eq : q.b.length = n

theorem valueWith_eq_sum (h : q.Fits n) (hx : x.length = n) : q.valueWith x (q.a.product x) =
    .ok (1 / 2 * ∑ j ∈ range n, (q.a.product x).getD j 0 * x.getD j 0 +
      ∑ j ∈ range n, q.b.getD j 0 * x.getD j 0 + q.c) := by
  have hproduct : x.length = (q.a.product x).length :=
    hx.trans (h.rows_eq.symm.trans (Matrix.length_product _ _).symm)
  have hb : q.b.length = x.length := h.length_eq.trans hx.symm
  rw [valueWith, Vec.dot, if_pos hproduct, Vec.dot, if_pos hb, Vec.rawDot_eq_sum hproduct,
    Vec.rawDot_eq_sum hb, scientific_half, hx, h.length_eq]
  refine congrArg Except.ok ?_
  rw [mul_comm (1 / 2 : ℝ)]
  simp only [mul_comm (x.getD _ 0)]

theorem valueAt_eq_sum (h : q.Fits n) (hx : x.length = n) : q.valueAt x =
    1 / 2 * ∑ j ∈ range n, (q.a.product x).getD j 0 * x.getD j 0 +
      ∑ j ∈ range n, q.b.getD j 0 * x.getD j 0 + q.c :=
  (valueAt_eq (Matrix.mulVec_eq_product (h.width_eq.trans hx.symm)) (valueWith_eq_sum h hx)).symm

theorem evalWithGradient_eq_ok {g : Vec ℝ} {v : ℝ} {s s' : σ} :
    q.objective.evalWithGradient x s = (.ok (v, g), s') ↔ q.Fits x.length ∧ v = q.valueAt x ∧
      Vec.add (q.a.product x) q.b = .ok g ∧ s' = s := by
  simp only [objective, bind_eq_ok, lift_eq_ok, pure_apply, ok_eq_ok, Prod.mk.injEq]
  constructor
  · rintro ⟨product, _, ⟨hp, rfl⟩, value, _, ⟨hv, rfl⟩, _, _, ⟨hg, rfl⟩, ⟨rfl, rfl⟩, rfl⟩
    have hwidth : q.a.width = x.length := by
      by_contra hne
      rw [Matrix.mulVec, if_neg hne] at hp
      cases hp
    have hvalue := valueAt_eq hp hv
    rw [Matrix.mulVec_eq_product hwidth, Except.ok.injEq] at hp
    subst hp
    simp only [valueWith, checked_bind_eq_ok] at hv
    obtain ⟨_, hdot, _, hdot', -⟩ := hv
    have hrows : x.length = (q.a.product x).length := by
      by_contra hne
      rw [Vec.dot, if_neg hne] at hdot
      cases hdot
    have hb : q.b.length = x.length := by
      by_contra hne
      rw [Vec.dot, if_neg hne] at hdot'
      cases hdot'
    exact ⟨⟨(hrows.trans (Matrix.length_product _ _)).symm, hwidth, hb⟩, hvalue, hg, rfl⟩
  · rintro ⟨h, rfl, hg, rfl⟩
    have hvalue := valueWith_eq_sum h rfl
    rw [← valueAt_eq_sum h rfl] at hvalue
    exact ⟨_, _, ⟨Matrix.mulVec_eq_product h.width_eq, rfl⟩, _, _, ⟨hvalue, rfl⟩, g, _, ⟨hg, rfl⟩,
      ⟨rfl, rfl⟩, rfl⟩

/-- What a change of one entry does to the value: the rate is the entry of the gradient. -/
theorem valueAt_set {g : Vec ℝ} {i : Nat} (h : q.Fits n) (hx : x.length = n) (hi : i < n)
    (hsymmetric : ∀ i j, q.a.entry i j = q.a.entry j i)
    (hg : Vec.Combines 1 (q.a.product x) 1 q.b g) (t : ℝ) :
    q.valueAt (x.set i t) = q.valueAt x + (t - x.getD i 0) * g.getD i 0 +
      (t - x.getD i 0) ^ 2 * (q.a.entry i i / 2) := by
  have hproduct (j : Nat) : (q.a.product (x.set i t)).getD j 0 =
      (q.a.product x).getD j 0 + (t - x.getD i 0) * q.a.entry i j := by
    rw [Matrix.getD_product, Matrix.getD_product, h.width_eq, sum_mul_set hx hi, hsymmetric i j]
  have hrow : ∑ j ∈ range n, q.a.entry i j * x.getD j 0 = (q.a.product x).getD i 0 := by
    rw [Matrix.getD_product, h.width_eq]
  have hform : ∑ j ∈ range n, (q.a.product (x.set i t)).getD j 0 * x.getD j 0 =
      ∑ j ∈ range n, (q.a.product x).getD j 0 * x.getD j 0 +
        (t - x.getD i 0) * (q.a.product x).getD i 0 := by
    rw [← hrow, mul_sum, ← sum_add_distrib]
    refine sum_congr rfl fun j _ => ?_
    rw [hproduct]
    ring
  rw [valueAt_eq_sum h ((List.length_set).trans hx), valueAt_eq_sum h hx, sum_mul_set hx hi,
    sum_mul_set hx hi, hform, hproduct, hg.entry]
  ring

/-- **A quadratic of a symmetric matrix answers its partial derivatives.** -/
theorem partialsAt {g : Vec ℝ} {v : ℝ} {s s' : σ}
    (hsymmetric : ∀ i j, q.a.entry i j = q.a.entry j i)
    (h : q.objective.evalWithGradient x s = (.ok (v, g), s')) : PartialsAt q.valueAt x g := by
  obtain ⟨hfits, -, hadd, -⟩ := evalWithGradient_eq_ok.1 h
  have hg := Vec.combines_add hadd
  refine ⟨hg.length_right.trans hfits.length_eq, fun i hi => ?_⟩
  have hvalue : (fun t => q.valueAt (x.set i t)) = fun t => q.valueAt x +
      (t - x.getD i 0) * g.getD i 0 + (t - x.getD i 0) ^ 2 * (q.a.entry i i / 2) :=
    funext fun t => valueAt_set hfits rfl hi hsymmetric hg t
  have hstep : HasDerivAt (fun t => t - x.getD i 0) 1 (x.getD i 0) :=
    (hasDerivAt_id _).sub_const _
  rw [hvalue]
  refine (((hstep.mul_const _).const_add _).add ((hstep.pow 2).mul_const _)).congr_deriv ?_
  rw [sub_self]
  ring

theorem eval_eq_ok (h : q.Fits x.length) (s : σ) :
    q.objective.eval x s = (.ok (q.valueAt x), s) := by
  refine bind_eq_ok.2 ⟨_, s, lift_eq_ok.2 ⟨Matrix.mulVec_eq_product h.width_eq, rfl⟩, ?_⟩
  rw [valueAt_eq_sum h rfl]
  exact lift_eq_ok.2 ⟨valueWith_eq_sum h rfl, rfl⟩

theorem differentiable_valueAt (h : q.Fits n) :
    Differentiable ℝ fun u : Fin n → ℝ => q.valueAt (List.ofFn u) := by
  have hentry (j : Nat) : Differentiable ℝ fun u : Fin n → ℝ => (List.ofFn u).getD j 0 := by
    by_cases hj : j < n
    · have hcoordinate : (fun u : Fin n → ℝ => (List.ofFn u).getD j 0) = fun u => u ⟨j, hj⟩ := by
        funext u
        rw [List.getD_eq_getElem _ _ (by rwa [List.length_ofFn]), List.getElem_ofFn]
      rw [hcoordinate]
      exact differentiable_apply _
    · have hzero : (fun u : Fin n → ℝ => (List.ofFn u).getD j 0) = fun _ => 0 :=
        funext fun u => Vec.getD_of_le (by rw [List.length_ofFn]; omega)
      rw [hzero]
      exact differentiable_const _
  have hvalue : (fun u : Fin n → ℝ => q.valueAt (List.ofFn u)) = fun u => 1 / 2 *
      ∑ j ∈ range n, (∑ k ∈ range n, q.a.entry j k * (List.ofFn u).getD k 0) *
        (List.ofFn u).getD j 0 + ∑ j ∈ range n, q.b.getD j 0 * (List.ofFn u).getD j 0 + q.c := by
    funext u
    simp only [valueAt_eq_sum h List.length_ofFn, Matrix.getD_product, h.width_eq]
  rw [hvalue]
  fun_prop

end Quadratic

end GeodesicDescent
