import GeodesicDescent.Proofs.Vec
import GeodesicDescent.Matrix

/-!
# Matrices by their entries

Over a field a product is a sum over the columns, in whichever order its terms are added, and an
update changes the entries of its block alone.

* `Vec.slice`, `Vec.splice`, `Vec.placed`: a part of a vector, the vector with that part replaced,
  and a part among zeros;
* `Matrix.entry`, `Matrix.product`, `Matrix.transposedProduct`: entries, and the products as sums;
* **`mulVec_eq_product`**, `accumulate_eq_product`, `accumulate_eq_transposedProduct`: what the
  products by columns compute;
* `block_eq_ok`, **`rankOne_eq_ok`**, `AddsOuter.getD_product`: a block, its update by a product of
  two vectors, and what the update adds to a product;
* `getD_splice_of_combines`, `getD_product_of_placed`: the same for a vector with a part replaced;
* **`sameOutside_of_rankOne`**: whatever the arithmetic is, no other entry changes.
-/

namespace GeodesicDescent

open Finset

/-! ## Parts of vectors -/

namespace Vec

variable {K : Type}

/-- The entries from a position up to another. -/
def slice (v : Vec K) (start stop : Nat) : Vec K := (v.drop start).take (stop - start)

/-- The vector with the entries from a position on replaced. -/
def splice (v : Vec K) (start : Nat) (part : Vec K) : Vec K :=
  v.take start ++ part ++ v.drop (start + part.length)

theorem length_slice {v : Vec K} {start stop : Nat} (h : stop ≤ v.length) :
    (v.slice start stop).length = stop - start := by
  rw [slice, List.length_take, List.length_drop]
  omega

theorem length_splice {v part : Vec K} {start : Nat} (h : start + part.length ≤ v.length) :
    (v.splice start part).length = v.length := by
  simp only [splice, List.length_append, List.length_take, List.length_drop]
  omega

theorem slice_whole {v : Vec K} {n : Nat} (h : v.length = n) : v.slice 0 (0 + n) = v := by
  simp [slice, ← h]

theorem splice_whole {v part : Vec K} (h : part.length = v.length) : v.splice 0 part = part := by
  simp [splice, h]

variable [Zero K]

/-- The entry at a position of the vector that holds a part from `start` on and zeros elsewhere. -/
def placed (start : Nat) (part : Vec K) (i : Nat) : K :=
  if start ≤ i then part.getD (i - start) 0 else 0

theorem placed_eq (start : Nat) (part : Vec K) (i : Nat) :
    placed start part i = (if start ≤ i then part[i - start]? else none).getD 0 := by
  rw [placed]
  split_ifs
  · exact List.getD_eq_getElem?_getD
  · rfl

theorem placed_add (start : Nat) (part : Vec K) (i : Nat) :
    placed start part (start + i) = part.getD i 0 := by
  rw [placed, if_pos (Nat.le_add_right start i), Nat.add_sub_cancel_left]

theorem getD_slice {v : Vec K} {start stop i : Nat} (h : i < stop - start) :
    (v.slice start stop).getD i 0 = v.getD (start + i) 0 := by
  rw [slice, List.getD_eq_getElem?_getD, List.getElem?_take_of_lt h, List.getElem?_drop,
    ← List.getD_eq_getElem?_getD]

theorem getD_splice {v part : Vec K} {start : Nat} (h : start + part.length ≤ v.length) (i : Nat) :
    (v.splice start part).getD i 0 =
      if start ≤ i ∧ i < start + part.length then part.getD (i - start) 0 else v.getD i 0 := by
  have hstart : (v.take start).length = start := List.length_take_of_le (by omega)
  rw [splice, List.append_assoc]
  by_cases hlow : i < start
  · rw [List.getD_append _ _ _ _ (by omega), if_neg (by omega), List.getD_eq_getElem?_getD,
      List.getElem?_take_of_lt hlow, ← List.getD_eq_getElem?_getD]
  rw [List.getD_append_right _ _ _ _ (by omega), hstart]
  by_cases hhigh : i < start + part.length
  · rw [List.getD_append _ _ _ _ (by omega), if_pos ⟨by omega, hhigh⟩]
  · rw [List.getD_append_right _ _ _ _ (by omega), if_neg (by omega), List.getD_eq_getElem?_getD,
      List.getElem?_drop, ← List.getD_eq_getElem?_getD]
    congr 1
    omega

end Vec

/-! ## Entries -/

namespace Matrix

variable {K : Type}

/-- The entry at a row and a column, if there is one. -/
def cell? (A : Matrix K) (i j : Nat) : Option K := A.columns[j]?.bind (·[i]?)

theorem cell?_of_lt {A : Matrix K} {i j : Nat} (hi : i < A.rows) (hj : j < A.width) :
    ∃ a, A.cell? i j = some a := by
  have hlength : A.columns[j].length = A.rows := A.length_columns _ (List.getElem_mem hj)
  refine ⟨A.columns[j][i], ?_⟩
  rw [cell?, List.getElem?_eq_getElem hj, Option.bind_some, List.getElem?_eq_getElem]

/-- Two matrices of one shape with the same entries outside a block. -/
structure SameOutside (b : Block) (A B : Matrix K) : Prop where
  rows_eq : B.rows = A.rows
  width_eq : B.width = A.width
  entry_eq : ∀ i j, ¬ (b.row ≤ i ∧ i < b.row + b.rows ∧ b.column ≤ j ∧ j < b.column + b.columns) →
    B.cell? i j = A.cell? i j

theorem cell?_addOuter [Scalar K] (A : Matrix K) (alpha : K) (x y : Vec K) (row column i j : Nat) :
    (A.addOuter alpha x y row column).cell? i j =
      match if column ≤ j then y[j - column]? else none, if row ≤ i then x[i - row]? else none with
      | some t, some s => (A.cell? i j).map (alpha * t * s + ·)
      | _, _ => A.cell? i j := by
  simp only [cell?, addOuter, List.getElem?_mapIdx]
  rcases A.columns[j]? with _ | c
  · split
    all_goals split <;> rfl
  generalize (if column ≤ j then y[j - column]? else none) = t?
  rcases t? with _ | t
  · rfl
  simp only [Option.map_some, Option.bind_some, List.getElem?_mapIdx]
  generalize (if row ≤ i then x[i - row]? else none) = s?
  rcases s? with _ | s
  · exact Option.map_id'
  · rfl

/-- **An update changes no entry outside its block**, whatever the arithmetic is. -/
theorem sameOutside_of_rankOne [Scalar K] {alpha : K} {x y : Vec K} {A B : Matrix K} {b : Block}
    (h : rankOne alpha x y A b = .ok B) : SameOutside b A B := by
  unfold rankOne at h
  split_ifs at h with hshape
  cases h
  rw [not_or, not_not, not_not] at hshape
  refine ⟨rfl, List.length_mapIdx, fun i j hout => ?_⟩
  rw [cell?_addOuter]
  split
  · next t s ht hs =>
    exfalso
    apply hout
    rw [Option.ite_none_right_eq_some] at ht hs
    have hj := (List.getElem?_eq_some_iff.1 ht.2).1
    have hi := (List.getElem?_eq_some_iff.1 hs.2).1
    omega
  · rfl

variable [Field K]

/-- The entry at a row and a column, zero where there is none. -/
def entry (A : Matrix K) (i j : Nat) : K := (A.cell? i j).getD 0

theorem entry_eq (A : Matrix K) (i j : Nat) : A.entry i j = (A.columns.getD j []).getD i 0 := by
  rw [entry, cell?, List.getD_eq_getElem?_getD, List.getD_eq_getElem?_getD]
  cases A.columns[j]? <;> rfl

theorem entry_of_le {A : Matrix K} {i : Nat} (h : A.rows ≤ i) (j : Nat) : A.entry i j = 0 := by
  rw [entry, cell?]
  cases hc : A.columns[j]? with
  | none => rfl
  | some c =>
    have hlength := A.length_columns c (List.mem_of_getElem? hc)
    rw [Option.bind_some, List.getElem?_eq_none (by omega)]
    rfl

theorem entry_ofFn (rows columns : Nat) (f : Nat → Nat → K) (i j : Nat) :
    (ofFn rows columns f).entry i j = if i < rows ∧ j < columns then f i j else 0 := by
  rw [entry, cell?, ofFn, List.getElem?_map]
  by_cases hj : j < columns
  · rw [List.getElem?_range hj, Option.map_some, Option.bind_some, List.getElem?_map]
    by_cases hi : i < rows
    · rw [List.getElem?_range hi, if_pos ⟨hi, hj⟩]
      rfl
    · rw [List.getElem?_eq_none (by rw [List.length_range]; omega), if_neg fun h => hi h.1]
      rfl
  · rw [List.getElem?_eq_none (by rw [List.length_range]; omega), if_neg fun h => hj h.2]
    rfl

/-- The product with a vector. -/
def product (A : Matrix K) (x : Vec K) : Vec K :=
  (List.range A.rows).map fun i => ∑ j ∈ range A.width, A.entry i j * x.getD j 0

/-- The product of the transposed matrix with a vector. -/
def transposedProduct (A : Matrix K) (x : Vec K) : Vec K :=
  (List.range A.width).map fun j => ∑ i ∈ range A.rows, A.entry i j * x.getD i 0

theorem length_product (A : Matrix K) (x : Vec K) : (A.product x).length = A.rows := by
  rw [product, List.length_map, List.length_range]

theorem getD_product (A : Matrix K) (x : Vec K) (i : Nat) :
    (A.product x).getD i 0 = ∑ j ∈ range A.width, A.entry i j * x.getD j 0 := by
  by_cases hi : i < A.rows
  · rw [product, List.getD_eq_getElem _ _ (by rwa [List.length_map, List.length_range]),
      List.getElem_map, List.getElem_range]
  · rw [Vec.getD_of_le (by rw [length_product]; omega)]
    exact (sum_eq_zero fun j _ => by rw [entry_of_le (by omega), zero_mul]).symm

theorem length_transposedProduct (A : Matrix K) (x : Vec K) :
    (A.transposedProduct x).length = A.width := by
  rw [transposedProduct, List.length_map, List.length_range]

theorem getD_transposedProduct {A : Matrix K} {j : Nat} (h : j < A.width) (x : Vec K) :
    (A.transposedProduct x).getD j 0 = ∑ i ∈ range A.rows, A.entry i j * x.getD i 0 := by
  rw [transposedProduct, List.getD_eq_getElem _ _ (by rwa [List.length_map, List.length_range]),
    List.getElem_map, List.getElem_range]

theorem sum_mul_placed {n start : Nat} (f : Nat → K) {part : Vec K}
    (h : start + part.length ≤ n) :
    ∑ j ∈ range n, f j * Vec.placed start part j =
      ∑ k ∈ range part.length, f (start + k) * part.getD k 0 := by
  obtain ⟨rest, rfl⟩ := Nat.exists_eq_add_of_le h
  have hbefore : ∑ j ∈ range start, f j * Vec.placed start part j = 0 :=
    sum_eq_zero fun j hj => by
      rw [Vec.placed, if_neg (not_le.2 (mem_range.1 hj)), mul_zero]
  have hafter : ∑ j ∈ range rest, f (start + part.length + j) *
      Vec.placed start part (start + part.length + j) = 0 :=
    sum_eq_zero fun j _ => by
      rw [add_assoc, Vec.placed_add, Vec.getD_of_le (Nat.le_add_right _ _), mul_zero]
  rw [sum_range_add, sum_range_add, hbefore, hafter, zero_add, add_zero]
  exact sum_congr rfl fun k _ => by rw [Vec.placed_add]

theorem getD_product_of_placed {A : Matrix K} {w w' part : Vec K} {c : K} {start : Nat}
    (h : ∀ j, w'.getD j 0 = w.getD j 0 + c * Vec.placed start part j)
    (hstop : start + part.length ≤ A.width) (i : Nat) : (A.product w').getD i 0 =
      (A.product w).getD i 0 +
        c * ∑ k ∈ range part.length, A.entry i (start + k) * part.getD k 0 := by
  rw [getD_product, getD_product, ← sum_mul_placed (A.entry i) hstop, mul_sum, ← sum_add_distrib]
  refine sum_congr rfl fun j _ => ?_
  rw [h]
  ring

/-! ## Products -/

variable [LinearOrder K] [Elementary K] [Tolerances K]

theorem foldl_columns (columns : List (Vec K × K)) (acc : Vec K)
    (h : ∀ c ∈ columns, c.1.length = acc.length) :
    (columns.foldl (fun acc (column, s) => column.zipWith (fun a t => 1 * a * s + t) acc)
      acc).length = acc.length ∧ ∀ i,
    (columns.foldl (fun acc (column, s) => column.zipWith (fun a t => 1 * a * s + t) acc)
      acc).getD i 0 = acc.getD i 0 + (columns.map fun c => c.1.getD i 0 * c.2).sum := by
  induction columns generalizing acc with
  | nil => exact ⟨rfl, fun i => (add_zero _).symm⟩
  | cons c columns ih =>
    have hc := h c List.mem_cons_self
    have hlength : (c.1.zipWith (fun a t => 1 * a * c.2 + t) acc).length = acc.length := by
      rw [List.length_zipWith, hc, min_self]
    obtain ⟨hout, hentry⟩ := ih _ fun c' hc' =>
      (h c' (List.mem_cons_of_mem _ hc')).trans hlength.symm
    refine ⟨hout.trans hlength, fun i => ?_⟩
    rw [List.foldl_cons, hentry, Vec.getD_zipWith (by ring) hc, List.map_cons, List.sum_cons]
    ring

theorem sum_columns (A : Matrix K) {x : Vec K} (h : A.width = x.length) (i : Nat) :
    ((A.columns.zip x).map fun c => c.1.getD i 0 * c.2).sum =
      ∑ j ∈ range A.width, A.entry i j * x.getD j 0 := by
  have hrow : (A.columns.map (·.getD i 0)).length = x.length := (List.length_map _).trans h
  have hproducts : (A.columns.zip x).map (fun c => c.1.getD i 0 * c.2) =
      Vec.products (A.columns.map (·.getD i 0)) x := by
    rw [List.map_zip_eq_zipWith, Vec.products, List.zipWith_map_left]
    rfl
  rw [hproducts, ← Vec.rawDot_eq_sum_products, Vec.rawDot_eq_sum hrow, List.length_map]
  refine sum_congr rfl fun j _ => ?_
  rw [entry_eq]
  congr 1
  exact List.getD_map A.columns [] (·.getD i 0)

/-- That the first column overwrites what was there does not show. -/
theorem apply_eq_foldl {A : Matrix K} (x : Vec K) : apply 1 A x 0 (Vec.zeros A.rows) =
    (A.columns.zip x).foldl
      (fun acc (column, s) => column.zipWith (fun a t => 1 * a * s + t) acc)
      (Vec.zeros A.rows) := by
  have hzero : ((0 : K) == 0) = true := beq_self_eq_true 0
  have hlength : ∀ c ∈ A.columns.zip x, c.1.length = A.rows := fun c hc =>
    A.length_columns _ (List.of_mem_zip hc).1
  unfold apply
  generalize A.columns.zip x = columns at hlength
  cases columns with
  | nil =>
    rw [List.foldl_nil, Vec.zeros, List.map_replicate, if_pos hzero]
  | cons c rest =>
    have hc : c.1.length = (Vec.zeros A.rows : Vec K).length :=
      (hlength c List.mem_cons_self).trans (Vec.length_zeros _).symm
    have hfirst : applyFirst 1 c.1 c.2 0 (Vec.zeros A.rows) =
        c.1.zipWith (fun a t => 1 * a * c.2 + t) (Vec.zeros A.rows) := by
      refine Vec.ext_getD ?_ fun i => ?_
      · rw [applyFirst, if_pos hzero, List.length_map, List.length_zipWith, ← hc, min_self]
      · rw [applyFirst, if_pos hzero, Vec.getD_map (by ring),
          Vec.getD_zipWith (by ring) hc, Vec.getD_zeros, add_zero]
    exact congrArg (rest.foldl _) hfirst

theorem apply_eq_product {A : Matrix K} {x : Vec K} (h : A.width = x.length) :
    apply 1 A x 0 (Vec.zeros A.rows) = A.product x := by
  obtain ⟨hlength, hentry⟩ := foldl_columns (A.columns.zip x) (Vec.zeros A.rows) fun c hc =>
    (A.length_columns _ (List.of_mem_zip hc).1).trans (Vec.length_zeros _).symm
  rw [apply_eq_foldl]
  refine Vec.ext_getD ?_ fun i => ?_
  · rw [hlength, Vec.length_zeros, length_product]
  · rw [hentry, Vec.getD_zeros, zero_add, sum_columns A h, getD_product]

/-- **The product by columns is the product.** -/
theorem mulVec_eq_product {A : Matrix K} {x : Vec K} (h : A.width = x.length) :
    A.mulVec x = .ok (A.product x) := by
  rw [mulVec, if_pos h, apply_eq_product h]

theorem accumulate_eq_product {A : Matrix K} {x : Vec K} {n : Nat} (h : A.width = x.length)
    (hn : n = A.rows) : accumulate false 1 A x 0 (Vec.zeros n) = .ok (A.product x) := by
  subst hn
  simp only [accumulate, Bool.false_eq_true, if_false]
  rw [if_neg (not_not.2 h.symm), if_neg (not_not.2 (Vec.length_zeros _)), apply_eq_product h]

theorem accumulate_eq_transposedProduct {A : Matrix K} {x : Vec K} {n : Nat}
    (h : A.rows = x.length) (hn : n = A.width) :
    accumulate true 1 A x 0 (Vec.zeros n) = .ok (A.transposedProduct x) := by
  subst hn
  have hzero : ((0 : K) == 0) = true := beq_self_eq_true 0
  simp only [accumulate, if_true]
  rw [if_neg (not_not.2 h.symm), if_neg (not_not.2 (Vec.length_zeros _))]
  congr 1
  have hlength : A.columns.length = (Vec.zeros A.width : Vec K).length :=
    (Vec.length_zeros _).symm
  refine List.ext_getElem ?_ fun j hj hj' => ?_
  · rw [applyTransposed, List.length_zipWith, ← hlength, min_self, length_transposedProduct]
    rfl
  · have hcolumn : j < A.columns.length := by rwa [length_transposedProduct] at hj'
    have hrows := A.length_columns _ (List.getElem_mem hcolumn)
    simp only [applyTransposed, List.getElem_zipWith, if_pos hzero, transposedProduct,
      List.getElem_map, List.getElem_range]
    rw [one_mul, Vec.rawDot_eq_sum (hrows.trans h), hrows]
    refine sum_congr rfl fun i _ => ?_
    rw [entry_eq, List.getD_eq_getElem _ _ hcolumn]

/-! ## Blocks -/

omit [LinearOrder K] [Elementary K] [Tolerances K] in
theorem block_eq_ok {A : Matrix K} {b : Block}
    (h : b.row + b.rows ≤ A.rows ∧ b.column + b.columns ≤ A.width) :
    ∃ B : Matrix K, A.block b = .ok B ∧ B.rows = b.rows ∧ B.width = b.columns ∧
      ∀ i j, i < b.rows → j < b.columns → B.entry i j = A.entry (b.row + i) (b.column + j) := by
  refine ⟨_, dif_pos h, rfl, ?_, fun i j hi hj => ?_⟩
  · have : b.column + b.columns ≤ A.columns.length := h.2
    simp only [width, List.length_map, List.length_take, List.length_drop]
    omega
  · simp only [entry, cell?, List.getElem?_map, List.getElem?_take_of_lt hj, List.getElem?_drop]
    cases A.columns[b.column + j]? with
    | none => rfl
    | some c =>
      simp only [Option.map_some, Option.bind_some, List.getElem?_take_of_lt hi,
        List.getElem?_drop]

/-- The matrix `B` is `A` with a multiple of a product of two vectors added, one of them placed
among the rows and one among the columns. -/
structure AddsOuter (alpha : K) (x y : Vec K) (row column : Nat) (A B : Matrix K) : Prop where
  rows_eq : B.rows = A.rows
  width_eq : B.width = A.width
  entry_eq : ∀ i j, i < A.rows → j < A.width →
    B.entry i j = A.entry i j + alpha * Vec.placed row x i * Vec.placed column y j

/-- **An update of a block** adds a multiple of a product of two vectors. -/
theorem rankOne_eq_ok (alpha : K) {x y : Vec K} {A : Matrix K} {b : Block}
    (h : b.rows = x.length ∧ b.columns = y.length) :
    ∃ B : Matrix K, rankOne alpha x y A b = .ok B ∧ AddsOuter alpha x y b.row b.column A B := by
  refine ⟨A.addOuter alpha x y b.row b.column, ?_, rfl, List.length_mapIdx, fun i j hi hj => ?_⟩
  · rw [rankOne, if_neg (by rw [h.1, h.2]; simp)]
  · obtain ⟨a, ha⟩ := cell?_of_lt hi hj
    rw [entry, entry, cell?_addOuter, ha, Vec.placed_eq, Vec.placed_eq]
    split
    · next t s ht hs =>
      rw [ht, hs]
      show alpha * t * s + a = a + alpha * s * t
      ring
    · next hnone =>
      rw [Option.getD_some, left_eq_add]
      generalize (if b.column ≤ j then y[j - b.column]? else none) = t? at hnone
      generalize (if b.row ≤ i then x[i - b.row]? else none) = s? at hnone
      rcases t? with _ | t
      · exact mul_zero _
      rcases s? with _ | s
      · rw [Option.getD_none, mul_zero, zero_mul]
      · exact absurd rfl (hnone t s rfl)

theorem getD_splice_of_combines {v image d : Vec K} {c : K} {start n : Nat} (hd : d.length = n)
    (hstop : start + n ≤ v.length) (h : Vec.Combines 1 (v.slice start (start + n)) c d image)
    (j : Nat) : (v.splice start image).getD j 0 = v.getD j 0 + c * Vec.placed start d j := by
  have himage : image.length = n := h.length_right.trans hd
  rw [Vec.getD_splice (by rw [himage]; exact hstop), himage, Vec.placed]
  by_cases hlow : start ≤ j
  · rw [if_pos hlow]
    by_cases hhigh : j < start + n
    · rw [if_pos ⟨hlow, hhigh⟩, h.entry, Vec.getD_slice (by omega), Nat.add_sub_cancel' hlow,
        one_mul]
    · rw [if_neg (fun hj => hhigh hj.2), Vec.getD_of_le (show d.length ≤ j - start by omega),
        mul_zero, add_zero]
  · rw [if_neg (fun hj => hlow hj.1), if_neg hlow, mul_zero, add_zero]

theorem AddsOuter.getD_product {alpha : K} {x y : Vec K} {row column : Nat} {A B : Matrix K}
    (h : AddsOuter alpha x y row column A B) (hy : column + y.length ≤ A.width) (w : Vec K)
    {i : Nat} (hi : i < A.rows) : (B.product w).getD i 0 = (A.product w).getD i 0 +
      alpha * Vec.placed row x i *
        ∑ k ∈ range y.length, w.getD (column + k) 0 * y.getD k 0 := by
  rw [Matrix.getD_product, Matrix.getD_product, h.width_eq, ← sum_mul_placed (w.getD · 0) hy,
    mul_sum, ← sum_add_distrib]
  refine sum_congr rfl fun j hj => ?_
  rw [h.entry_eq i j hi (mem_range.1 hj)]
  ring

end Matrix

end GeodesicDescent
