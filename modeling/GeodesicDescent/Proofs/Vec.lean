import Mathlib.Algebra.BigOperators.Group.Finset.Basic
import Mathlib.Data.List.GetD
import GeodesicDescent.Proofs.Exact
import GeodesicDescent.Vec

/-!
# Exact arithmetic of vectors

Over a field the order in which products are summed does not matter, and entrywise operations act
on the entries.

* **`rawDot_eq_sum`**: the sum of products taken in eight lanes is the sum of products;
* `combines_add`, `combines_sub`, `combines_axpy`, `combines_neg`: what an entrywise operation does
  to the entries, and `getD_products`;
* `weightedSum`: a weighted sum of products, symmetric and linear in each vector.
-/

namespace GeodesicDescent.Vec

open Finset

variable {K : Type} [Field K]

/-! ## Sums of products -/

theorem sum_eq_sum_getD (v : Vec K) : v.sum = ∑ i ∈ range v.length, v.getD i 0 := by
  induction v with
  | nil => rfl
  | cons x v ih =>
    rw [List.sum_cons, List.length_cons, sum_range_succ', ih]
    simp only [List.getD_cons_succ, List.getD_cons_zero]
    exact add_comm _ _

theorem foldl_add_eq (v : Vec K) (x : K) : v.foldl (· + ·) x = x + v.sum := by
  induction v generalizing x with
  | nil => exact (add_zero x).symm
  | cons y v ih => rw [List.foldl_cons, ih, List.sum_cons, add_assoc]

theorem sum_zipWith_add (u v : Vec K) (h : u.length = v.length) :
    (u.zipWith (· + ·) v).sum = u.sum + v.sum := by
  induction u generalizing v with
  | nil =>
    rw [List.eq_nil_of_length_eq_zero h.symm]
    exact (add_zero 0).symm
  | cons x u ih =>
    obtain ⟨y, v, rfl⟩ := List.exists_cons_of_length_eq_add_one h.symm
    rw [List.zipWith_cons_cons, List.sum_cons, List.sum_cons, List.sum_cons,
      ih v (Nat.succ.inj h)]
    exact add_add_add_comm ..

variable [LinearOrder K] [Elementary K] [Tolerances K]

theorem joinLanes_eq_sum {lanes : Vec K} (h : lanes.length = 8) : joinLanes lanes = lanes.sum := by
  match lanes, h with
  | [a, b, c, d, e, f, g, h], _ =>
    simp only [joinLanes, List.sum_cons, List.sum_nil]
    ring

theorem laneSums_spec (blocks : Nat) (ps lanes : Vec K) (hps : 8 * blocks ≤ ps.length)
    (hlanes : lanes.length = 8) : (laneSums blocks ps lanes).length = 8 ∧
      (laneSums blocks ps lanes).sum = lanes.sum + (ps.take (8 * blocks)).sum := by
  induction blocks generalizing ps lanes with
  | zero => simp [laneSums, hlanes]
  | succ blocks ih =>
    have hblock : (ps.take 8).length = 8 := List.length_take_of_le (by omega)
    obtain ⟨hlength, hsum⟩ := ih (ps.drop 8) (lanes.zipWith (· + ·) (ps.take 8))
      (by rw [List.length_drop]; omega) (by rw [List.length_zipWith, hlanes, hblock]; rfl)
    refine ⟨hlength, ?_⟩
    rw [laneSums, hsum, sum_zipWith_add _ _ (hlanes.trans hblock.symm), add_assoc,
      show 8 * (blocks + 1) = 8 + 8 * blocks by omega, List.take_add, List.sum_append]

theorem sum_zeros (n : Nat) : (zeros n : Vec K).sum = 0 := by
  rw [zeros, List.sum_replicate]
  exact smul_zero n

theorem rawDot_eq_sum_products (x y : Vec K) : rawDot x y = (products x y).sum := by
  unfold rawDot
  have hps : 8 * ((products x y).length / 8) ≤ (products x y).length := Nat.mul_div_le _ _
  obtain ⟨hlength, hsum⟩ := laneSums_spec _ (products x y) (zeros 8) hps (length_zeros 8)
  rw [foldl_add_eq, joinLanes_eq_sum hlength, hsum, sum_zeros, zero_add, ← List.sum_append,
    List.take_append_drop]

omit [Field K] [LinearOrder K] [Elementary K] [Tolerances K] in
theorem getD_zipWith [Zero K] {f : K → K → K} (hf : f 0 0 = 0) {u v : Vec K}
    (h : u.length = v.length) (i : Nat) :
    (u.zipWith f v).getD i 0 = f (u.getD i 0) (v.getD i 0) := by
  by_cases hi : i < u.length
  · have hi' : i < v.length := h ▸ hi
    simp [List.getD_eq_getElem?_getD, hi, hi']
  · have hi' : ¬ i < v.length := h ▸ hi
    simp [List.getD_eq_getElem?_getD, hi, hi', hf]

/-- **The sum of products taken in eight lanes is the sum of products.** -/
theorem rawDot_eq_sum {x y : Vec K} (h : x.length = y.length) :
    rawDot x y = ∑ i ∈ range x.length, x.getD i 0 * y.getD i 0 := by
  rw [rawDot_eq_sum_products, sum_eq_sum_getD, products, List.length_zipWith, ← h, min_self]
  exact sum_congr rfl fun i _ => getD_zipWith (mul_zero 0) h i

/-! ## Entrywise operations -/

/-- The vector `w` is `a * u + b * v`, all of one length. -/
structure Combines (a : K) (u : Vec K) (b : K) (v w : Vec K) : Prop where
  length_left : w.length = u.length
  length_right : w.length = v.length
  entry : ∀ i, w.getD i 0 = a * u.getD i 0 + b * v.getD i 0

variable {u v w : Vec K} {a b : K}

omit [Field K] [LinearOrder K] [Elementary K] [Tolerances K] in
theorem combine_eq_ok {f : K → K → K} :
    combine f u v = .ok w ↔ u.length = v.length ∧ w = u.zipWith f v := by
  unfold combine
  split_ifs with h
  · simp [h, eq_comm]
  · simp [h]

theorem combines_of_combine {f : K → K → K} (hf : ∀ s t, f s t = a * s + b * t)
    (h : combine f u v = .ok w) : Combines a u b v w := by
  obtain ⟨hlength, rfl⟩ := combine_eq_ok.1 h
  refine ⟨?_, ?_, fun i => ?_⟩
  · rw [List.length_zipWith, ← hlength, min_self]
  · rw [List.length_zipWith, hlength, min_self]
  · rw [getD_zipWith (by rw [hf, mul_zero, mul_zero, add_zero]) hlength, hf]

theorem combines_add (h : add u v = .ok w) : Combines 1 u 1 v w :=
  combines_of_combine (fun s t => by ring) h

theorem combines_sub (h : sub u v = .ok w) : Combines 1 u (-1) v w :=
  combines_of_combine (fun s t => by ring) h

theorem combines_axpy (h : axpy a u b v = .ok w) : Combines a u b v w := by
  refine combines_of_combine (fun s t => ?_) h
  by_cases hb : (b == 0) = true
  · rw [if_pos hb, ExactEquality.eq_of_beq hb, zero_mul, add_zero]
  · rw [if_neg hb]

omit [Field K] [LinearOrder K] [Elementary K] [Tolerances K] in
theorem getD_map [Zero K] {f : K → K} (hf : f 0 = 0) (v : Vec K) (i : Nat) :
    (v.map f).getD i 0 = f (v.getD i 0) := by
  have h : (v.map f).getD i (f 0) = f (v.getD i 0) := List.getD_map v 0 f
  rwa [hf] at h

theorem getD_scale (v : Vec K) (c : K) (i : Nat) : (scale v c).getD i 0 = c * v.getD i 0 := by
  rw [scale, getD_map (zero_mul c)]
  exact mul_comm _ _

theorem getD_divide (v : Vec K) (c : K) (i : Nat) : (divide v c).getD i 0 = c⁻¹ * v.getD i 0 := by
  rw [divide, getD_map (zero_div c)]
  exact div_eq_inv_mul _ _

theorem getD_neg (v : Vec K) (i : Nat) : (neg v).getD i 0 = -1 * v.getD i 0 := by
  rw [neg, getD_map neg_zero]
  exact (neg_one_mul _).symm

theorem combines_neg (u : Vec K) : Combines (-1) u 0 u (neg u) where
  length_left := length_neg u
  length_right := length_neg u
  entry i := by rw [getD_neg, zero_mul, add_zero]

theorem getD_zeros (n i : Nat) : (zeros n : Vec K).getD i 0 = 0 := by
  rw [zeros, List.getD_eq_getElem?_getD, List.getElem?_getD_replicate_default_eq]

omit [Field K] [LinearOrder K] [Elementary K] [Tolerances K] in
theorem getD_of_le [Zero K] {v : Vec K} {i : Nat} (h : v.length ≤ i) : v.getD i 0 = 0 :=
  List.getD_eq_default _ _ h

omit [Field K] [LinearOrder K] [Elementary K] [Tolerances K] in
theorem getD_of_forall [Zero K] {v : Vec K} (h : ∀ t ∈ v, t = 0) (i : Nat) : v.getD i 0 = 0 := by
  rw [List.getD_eq_getElem?_getD]
  cases hi : v[i]? with
  | none => rfl
  | some t => exact h t (List.mem_of_getElem? hi)

omit [Field K] [LinearOrder K] [Elementary K] [Tolerances K] in
theorem ext_getD [Zero K] {u v : Vec K} (hlength : u.length = v.length)
    (h : ∀ i, u.getD i 0 = v.getD i 0) : u = v := by
  refine List.ext_getElem hlength fun i hu hv => ?_
  have := h i
  rwa [List.getD_eq_getElem _ _ hu, List.getD_eq_getElem _ _ hv] at this

theorem scale_one (v : Vec K) : scale v 1 = v :=
  ext_getD (length_scale _ _) fun i => by rw [getD_scale, one_mul]

theorem divide_one (v : Vec K) : divide v 1 = v :=
  ext_getD (length_divide _ _) fun i => by rw [getD_divide, inv_one, one_mul]

theorem Combines.unique {w' : Vec K} (h : Combines a u b v w) (h' : Combines a u b v w') :
    w = w' := by
  refine ext_getD (h.length_left.trans h'.length_left.symm) fun i => ?_
  rw [h.entry, h'.entry]

theorem combines_difference (h : u.length = v.length) :
    Combines 1 u (-1) v (u.zipWith (· - ·) v) :=
  combines_sub (combine_of_length h)

theorem combines_sub_scale (h : u.length = v.length) (c : K) :
    Combines 1 u (-c) v (u.zipWith (· - ·) (scale v c)) := by
  have hsub := combines_difference (h.trans (length_scale v c).symm)
  refine ⟨hsub.length_left, hsub.length_left.trans h, fun i => ?_⟩
  rw [hsub.entry, getD_scale]
  ring

theorem length_products (h : u.length = v.length) : (products u v).length = u.length := by
  rw [products, List.length_zipWith, ← h, min_self]

theorem getD_products (h : u.length = v.length) (i : Nat) :
    (products u v).getD i 0 = u.getD i 0 * v.getD i 0 :=
  getD_zipWith (mul_zero 0) h i

theorem exists_axpy (a b : K) (h : u.length = v.length) :
    ∃ w, axpy a u b v = .ok w ∧ Combines a u b v w :=
  ⟨_, combine_of_length h, combines_axpy (combine_of_length h)⟩

/-! ## Weighted sums of products -/

/-- The sum of the products of the first entries, each with its weight. -/
def weightedSum (n : Nat) (weight : Nat → K) (u v : Vec K) : K :=
  ∑ i ∈ range n, weight i * (u.getD i 0 * v.getD i 0)

variable (n : Nat) (weight : Nat → K)

theorem weightedSum_comm (u v : Vec K) : weightedSum n weight u v = weightedSum n weight v u :=
  sum_congr rfl fun i _ => by rw [mul_comm (u.getD i 0)]

theorem weightedSum_combines (h : Combines a u b v w) (z : Vec K) :
    weightedSum n weight w z = a * weightedSum n weight u z + b * weightedSum n weight v z := by
  unfold weightedSum
  rw [mul_sum, mul_sum, ← sum_add_distrib]
  refine sum_congr rfl fun i _ => ?_
  rw [h.entry]
  ring

theorem weightedSum_of_getD (h : ∀ i, w.getD i 0 = a * v.getD i 0) (z : Vec K) :
    weightedSum n weight w z = a * weightedSum n weight v z := by
  unfold weightedSum
  rw [mul_sum]
  refine sum_congr rfl fun i _ => ?_
  rw [h]
  ring

theorem weightedSum_self_nonneg [IsStrictOrderedRing K] (hweight : ∀ i, 0 ≤ weight i)
    (u : Vec K) : 0 ≤ weightedSum n weight u u :=
  sum_nonneg fun i _ => mul_nonneg (hweight i) (mul_self_nonneg _)

theorem weightedSum_self_pos [IsStrictOrderedRing K] (hweight : ∀ i, 0 < weight i)
    (hlength : u.length ≤ n) (hu : ∃ t ∈ u, t ≠ 0) : 0 < weightedSum n weight u u := by
  obtain ⟨t, hmem, hne⟩ := hu
  obtain ⟨i, hi, rfl⟩ := List.getElem_of_mem hmem
  refine sum_pos' (fun j _ => mul_nonneg (hweight j).le (mul_self_nonneg _))
    ⟨i, mem_range.2 (hi.trans_le hlength), ?_⟩
  rw [List.getD_eq_getElem _ _ hi]
  exact mul_pos (hweight i) (mul_self_pos.2 hne)

end GeodesicDescent.Vec
