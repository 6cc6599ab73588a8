import GeodesicDescent.Proofs.Matrix
import GeodesicDescent.Proofs.Sphere.Reflection

/-!
# Operators are carried as vectors are

An operator that is carried from one tangent space to another is updated by a product of two
vectors. The update is what transport does to the vectors that the operator is applied to and to
the ones it gives.

* `flat_eq_ok`: the vector whose dot products are the inner products;
* `Sphere.PullsBack`, `Sphere.PushesForward`: an operator after the inverse transport of a block of
  what it is applied to, and the transport of a block of what an operator gives;
* **`answers_operatorInverseTransport`**, **`answers_operatorTransport`**: the updates are those;
* `sameOutside_of_operatorInverseTransport`, `sameOutside_of_operatorTransport`: outside the block
  nothing changes, in any arithmetic;
* **`operators_carried`**: the two operations and their composition.
-/

namespace GeodesicDescent.Sphere

open Stateful Finset

/-! ## Outside the block -/

section AnyScalar

variable {F : Type} [Scalar F] {s : Sphere} {x η y : Vec F} {h h' : Matrix F} {start stop : Nat}
variable {c c' : Cache F}

theorem sameOutside_of_operatorInverseTransport
    (hrun : s.manifold.operatorInverseTransport x η y h start stop c = (.ok h', c')) :
    Matrix.SameOutside ⟨0, h.rows, start, stop - start⟩ h h' := by
  simp only [manifold, operatorInverseTransport, bind_eq_ok, lift_eq_ok] at hrun
  obtain ⟨_, _, -, _, _, -, _, _, -, _, _, -, _, _, -, _, _, -, _, _, -, hupdate, -⟩ := hrun
  exact Matrix.sameOutside_of_rankOne (ofExcept_eq_ok.1 hupdate)

theorem sameOutside_of_operatorTransport
    (hrun : s.manifold.operatorTransport x η y h start stop c = (.ok h', c')) :
    Matrix.SameOutside ⟨start, stop - start, 0, h.width⟩ h h' := by
  simp only [manifold, operatorTransport, bind_eq_ok, lift_eq_ok] at hrun
  obtain ⟨_, _, -, _, _, -, _, _, -, _, _, -, _, _, -, _, _, -, _, _, -, hupdate, -⟩ := hrun
  exact Matrix.sameOutside_of_rankOne (ofExcept_eq_ok.1 hupdate)

/-- Of the two blocks that an operator is carried on, one has its first columns, the other its first
rows. -/
theorem cell?_of_conjugateOperator
    (hrun : s.manifold.conjugateOperator x η y h c = (.ok h', c')) :
    h'.rows = h.rows ∧ h'.width = h.width ∧
      ∀ i j, s.samples ≤ i → s.samples ≤ j → h'.cell? i j = h.cell? i j := by
  obtain ⟨right, c₁, hright, hleft⟩ := bind_eq_ok.1 hrun
  have hcolumns := sameOutside_of_operatorInverseTransport hright
  have hrows := sameOutside_of_operatorTransport hleft
  refine ⟨hrows.rows_eq.trans hcolumns.rows_eq, hrows.width_eq.trans hcolumns.width_eq,
    fun i j hi hj => ?_⟩
  have hambient : (s.manifold : Manifold F).ambientDimension = s.samples := rfl
  rw [hrows.entry_eq i j (by simp only [hambient]; omega),
    hcolumns.entry_eq i j (by simp only [hambient]; omega)]

end AnyScalar

variable {K : Type} [Field K] [LinearOrder K] [IsStrictOrderedRing K] [Elementary K] [Tolerances K]
variable {s : Sphere} {x y d u v : Vec K}

/-! ## Flat vectors -/

omit [IsStrictOrderedRing K] in
theorem getD_modify_mul (v : Vec K) (c : K) (i j : Nat) :
    (v.modify i (· * c)).getD j 0 = (if i = j then c else 1) * v.getD j 0 := by
  rw [List.getD_eq_getElem?_getD, List.getD_eq_getElem?_getD, List.getElem?_modify]
  split_ifs with h
  · cases v[j]? with
    | none => exact (mul_zero c).symm
    | some a => exact mul_comm a c
  · rw [one_mul]
    cases v[j]? <;> rfl

/-- **The vector whose dot products are the inner products**: the entries with their weights. -/
theorem flat_eq_ok (hv : v.length = s.samples) : ∃ flat, s.flat v = .ok flat ∧
    flat.length = s.samples ∧ ∀ i, flat.getD i 0 = s.weight i * v.getD i 0 := by
  have hsamples := s.two_le_samples
  have hscale : (Vec.scale v s.spacing).length = s.samples := (Vec.length_scale _ _).trans hv
  have hfirst : Vec.modifyEntry (Vec.scale v s.spacing) 0 (· * 0.5) =
      .ok ((Vec.scale v s.spacing).modify 0 (· * 0.5)) := if_pos (by omega)
  have hlength : ((Vec.scale v s.spacing).modify 0 (· * 0.5)).length = s.samples := by
    rw [List.length_modify, hscale]
  refine ⟨((Vec.scale v s.spacing).modify 0 (· * 0.5)).modify (s.samples - 1) (· * 0.5), ?_, ?_,
    fun i => ?_⟩
  · rw [flat, hfirst]
    exact if_pos (by omega)
  · rw [List.length_modify, hlength]
  · rw [getD_modify_mul, getD_modify_mul, Vec.getD_scale, weight, scientific_half,
      if_congr (eq_comm (a := 0)) rfl rfl, if_congr (eq_comm (a := s.samples - 1)) rfl rfl]
    by_cases h0 : i = 0
    · rw [if_pos h0, if_pos h0, if_neg (by omega), if_neg (by omega)]
      ring
    · rw [if_neg h0, if_neg h0]
      split_ifs
      all_goals ring

omit [IsStrictOrderedRing K] in
theorem sum_flat {flat : Vec K} (h : ∀ i, flat.getD i 0 = s.weight i * v.getD i 0) (u : Vec K) :
    ∑ i ∈ range s.samples, u.getD i 0 * flat.getD i 0 = s.form u v := by
  refine sum_congr rfl fun i _ => ?_
  rw [h]
  ring

/-! ## Operators on blocks -/

/-- The operator `h'` is the operator `h` applied after the inverse transport of a block of the
vector. -/
def PullsBack (s : Sphere) (x η y : Vec K) (start : Nat) (h h' : Matrix K) : Prop :=
  ∀ w : Vec K, w.length = h.width → ∃ back product,
    Answers (s.manifold.inverseTransport x η y (w.slice start (start + s.samples))) back ∧
    h.mulVec (w.splice start back) = .ok product ∧ h'.mulVec w = .ok product

/-- The operator `h'` is the operator `h` followed by the transport of a block of what it gives. -/
def PushesForward (s : Sphere) (x η y : Vec K) (start : Nat) (h h' : Matrix K) : Prop :=
  ∀ w : Vec K, w.length = h.width → ∃ product image, h.mulVec w = .ok product ∧
    Answers (s.manifold.transport x η y (product.slice start (start + s.samples))) image ∧
    h'.mulVec w = .ok (product.splice start image)

theorem pullsBack_of_addsOuter {h h' : Matrix K} {start : Nat} {image flat : Vec K} (η : Vec K)
    (hd : s.reflection x y = .ok d) (hreflects : s.Reflects x y d)
    (hstop : start + s.samples ≤ h.width)
    (himage : ∀ i, i < h.rows → image.getD i 0 =
      ∑ k ∈ range s.samples, h.entry i (start + k) * d.getD k 0)
    (hflat : flat.length = s.samples ∧ ∀ i, flat.getD i 0 = s.weight i * x.getD i 0)
    (hadds : Matrix.AddsOuter (-2) image flat 0 start h h') : s.PullsBack x η y start h h' := by
  intro w hw
  have hslice : (w.slice start (start + s.samples)).length = s.samples := by
    rw [Vec.length_slice (by omega)]
    omega
  obtain ⟨back, hback, hcombines⟩ := answers_inverseTransport hd hreflects hslice
  have hlength : (w.splice start back).length = w.length :=
    Vec.length_splice (by rw [hcombines.length_left, hslice]; omega)
  have hspliced := Matrix.getD_splice_of_combines hreflects.length_eq (by omega) hcombines
  refine ⟨back, h.product (w.splice start back), hback,
    Matrix.mulVec_eq_product (hw.symm.trans hlength.symm), ?_⟩
  rw [Matrix.mulVec_eq_product (hadds.width_eq.trans hw.symm), Except.ok.injEq]
  refine Vec.ext_getD ?_ fun i => ?_
  · rw [Matrix.length_product, Matrix.length_product, hadds.rows_eq]
  by_cases hi : i < h.rows
  · have hform : ∑ k ∈ range s.samples, w.getD (start + k) 0 * flat.getD k 0 =
        s.form (w.slice start (start + s.samples)) x := by
      rw [← sum_flat hflat.2]
      refine sum_congr rfl fun k hk => ?_
      have := mem_range.1 hk
      rw [Vec.getD_slice (by omega)]
    have hplaced : Vec.placed 0 image i = image.getD i 0 := if_pos (Nat.zero_le i)
    rw [hadds.getD_product (by rw [hflat.1]; exact hstop) w hi, hflat.1, hform, hplaced,
      himage i hi,
      Matrix.getD_product_of_placed hspliced (by rw [hreflects.length_eq]; exact hstop),
      hreflects.length_eq]
    ring
  · rw [Vec.getD_of_le (by rw [Matrix.length_product, hadds.rows_eq]; omega),
      Vec.getD_of_le (by rw [Matrix.length_product]; omega)]

/-- **An operator is composed with the inverse transport.** -/
theorem answers_operatorInverseTransport (hxy : s.Apart x y) (η : Vec K) {h : Matrix K}
    {start : Nat} (hstop : start + s.samples ≤ h.width) : ∃ h' : Matrix K,
      Answers (s.manifold.operatorInverseTransport x η y h start (start + s.samples)) h' ∧
      h'.rows = h.rows ∧ h'.width = h.width ∧ s.PullsBack x η y start h h' := by
  obtain ⟨d, hd, hreflects⟩ := hxy.reflects
  obtain ⟨flat, hflat, hflatLength, hentries⟩ := flat_eq_ok hreflects.length_left
  have hextent : start + s.samples - start = s.samples := Nat.add_sub_cancel_left _ _
  have hrequire : s.requireBlock h start (start + s.samples) h.width = .ok () := by
    rw [requireBlock, if_neg (by omega), if_neg (by omega)]
  obtain ⟨part, hpart, hrows, hwidth, hpartEntry⟩ := Matrix.block_eq_ok (A := h)
    (b := ⟨0, h.rows, start, start + s.samples - start⟩) ⟨by simp, by simp; omega⟩
  have hproduct := Matrix.accumulate_eq_product (A := part) (x := d) (n := h.rows)
    (by rw [hwidth, hreflects.length_eq]; exact hextent) hrows.symm
  obtain ⟨h', hupdate, hadds⟩ := Matrix.rankOne_eq_ok (-2.0 : K) (A := h)
    (x := part.product d) (y := flat) (b := ⟨0, h.rows, start, start + s.samples - start⟩)
    ⟨by rw [Matrix.length_product, hrows], by rw [hflatLength]; exact hextent⟩
  refine ⟨h', ?_, hadds.rows_eq, hadds.width_eq, ?_⟩
  · refine answers_reflected hd hreflects hrequire ?_
    refine answers_bind (answers_lift hflat) (answers_bind (answers_lift hpart) ?_)
    refine answers_bind (answers_lift (ofExcept_eq_ok.2 hproduct)) (answers_lift ?_)
    exact ofExcept_eq_ok.2 hupdate
  · rw [scientific_two] at hadds
    refine pullsBack_of_addsOuter η hd hreflects hstop (fun i hi => ?_) ⟨hflatLength, hentries⟩
      hadds
    rw [Matrix.getD_product, hwidth, hextent]
    refine sum_congr rfl fun k hk => ?_
    rw [hpartEntry i k hi (by rw [hextent]; exact mem_range.1 hk), Nat.zero_add]

theorem pushesForward_of_addsOuter {h h' : Matrix K} {start : Nat} {image flat : Vec K} (η : Vec K)
    (hd : s.reflection x y = .ok d) (hreflects : s.Reflects x y d)
    (hstop : start + s.samples ≤ h.rows) (hlength : image.length = h.width)
    (himage : ∀ j, j < h.width → image.getD j 0 =
      ∑ k ∈ range s.samples, h.entry (start + k) j * flat.getD k 0)
    (hflat : ∀ i, flat.getD i 0 = s.weight i * y.getD i 0)
    (hadds : Matrix.AddsOuter (-2) d image start 0 h h') : s.PushesForward x η y start h h' := by
  intro w hw
  have hproduct := h.length_product w
  have hslice : ((h.product w).slice start (start + s.samples)).length = s.samples := by
    rw [Vec.length_slice (by omega)]
    omega
  obtain ⟨moved, hmoved, hcombines⟩ := answers_transport hd hreflects hslice
  have hspliced := Matrix.getD_splice_of_combines hreflects.length_eq (by omega) hcombines
  have hrows : ((h.product w).splice start moved).length = h.rows := by
    rw [Vec.length_splice (by rw [hcombines.length_left, hslice]; omega), hproduct]
  refine ⟨h.product w, moved, Matrix.mulVec_eq_product hw.symm, hmoved, ?_⟩
  rw [Matrix.mulVec_eq_product (hadds.width_eq.trans hw.symm), Except.ok.injEq]
  refine Vec.ext_getD ?_ fun i => ?_
  · rw [Matrix.length_product, hadds.rows_eq, hrows]
  by_cases hi : i < h.rows
  · have hform : ∑ j ∈ range h.width, w.getD (0 + j) 0 * image.getD j 0 =
        s.form ((h.product w).slice start (start + s.samples)) y := by
      rw [← sum_flat hflat]
      calc ∑ j ∈ range h.width, w.getD (0 + j) 0 * image.getD j 0
          = ∑ j ∈ range h.width, ∑ k ∈ range s.samples,
              h.entry (start + k) j * w.getD j 0 * flat.getD k 0 := by
            refine sum_congr rfl fun j hj => ?_
            rw [himage j (mem_range.1 hj), Nat.zero_add, mul_sum]
            exact sum_congr rfl fun k _ => by ring
        _ = ∑ k ∈ range s.samples, (h.product w).getD (start + k) 0 * flat.getD k 0 := by
            rw [sum_comm]
            refine sum_congr rfl fun k _ => ?_
            rw [Matrix.getD_product, sum_mul]
        _ = _ := by
            refine sum_congr rfl fun k hk => ?_
            have := mem_range.1 hk
            rw [Vec.getD_slice (by omega)]
    rw [hadds.getD_product (by rw [hlength]; omega) w hi, hlength, hform, hspliced]
    ring
  · rw [Vec.getD_of_le (by rw [Matrix.length_product, hadds.rows_eq]; omega),
      Vec.getD_of_le (by rw [hrows]; omega)]

/-- **The transport is composed with an operator** by one update of the block's rows. -/
theorem answers_operatorTransport (hxy : s.Apart x y) (η : Vec K) {h : Matrix K}
    {start : Nat} (hstop : start + s.samples ≤ h.rows) : ∃ h' : Matrix K,
      Answers (s.manifold.operatorTransport x η y h start (start + s.samples)) h' ∧
      h'.rows = h.rows ∧ h'.width = h.width ∧ s.PushesForward x η y start h h' := by
  obtain ⟨d, hd, hreflects⟩ := hxy.reflects
  obtain ⟨flat, hflat, hflatLength, hentries⟩ := flat_eq_ok hreflects.length_right
  have hextent : start + s.samples - start = s.samples := Nat.add_sub_cancel_left _ _
  have hrequire : s.requireBlock h start (start + s.samples) h.rows = .ok () := by
    rw [requireBlock, if_neg (by omega), if_neg (by omega)]
  obtain ⟨part, hpart, hrows, hwidth, hpartEntry⟩ := Matrix.block_eq_ok (A := h)
    (b := ⟨start, start + s.samples - start, 0, h.width⟩) ⟨by simp; omega, by simp⟩
  have hproduct := Matrix.accumulate_eq_transposedProduct (A := part) (x := flat) (n := h.width)
    (by rw [hrows, hflatLength]; exact hextent) hwidth.symm
  obtain ⟨h', hupdate, hadds⟩ := Matrix.rankOne_eq_ok (-2.0 : K) (A := h)
    (x := d) (y := part.transposedProduct flat)
    (b := ⟨start, start + s.samples - start, 0, h.width⟩)
    ⟨by rw [hreflects.length_eq]; exact hextent, by rw [Matrix.length_transposedProduct, hwidth]⟩
  refine ⟨h', ?_, hadds.rows_eq, hadds.width_eq, ?_⟩
  · refine answers_reflected hd hreflects hrequire ?_
    refine answers_bind (answers_lift hflat) (answers_bind (answers_lift hpart) ?_)
    refine answers_bind (answers_lift (ofExcept_eq_ok.2 hproduct)) (answers_lift ?_)
    exact ofExcept_eq_ok.2 hupdate
  · rw [scientific_two] at hadds
    refine pushesForward_of_addsOuter η hd hreflects hstop
      (by rw [Matrix.length_transposedProduct, hwidth]) (fun j hj => ?_) hentries hadds
    rw [Matrix.getD_transposedProduct (by rw [hwidth]; exact hj), hrows, hextent]
    refine sum_congr rfl fun k hk => ?_
    rw [hpartEntry k j (by rw [hextent]; exact mem_range.1 hk) hj, Nat.zero_add]

/-- **Operators are carried as vectors are**, and no entry outside the block changes. -/
theorem operators_carried (hxy : s.Apart x y) (η : Vec K) (h : Matrix K) :
    (∀ start, start + s.samples ≤ h.width → ∃ h' : Matrix K,
      Answers (s.manifold.operatorInverseTransport x η y h start (start + s.samples)) h' ∧
      h'.rows = h.rows ∧ h'.width = h.width ∧ s.PullsBack x η y start h h') ∧
    (∀ start, start + s.samples ≤ h.rows → ∃ h' : Matrix K,
      Answers (s.manifold.operatorTransport x η y h start (start + s.samples)) h' ∧
      h'.rows = h.rows ∧ h'.width = h.width ∧ s.PushesForward x η y start h h') ∧
    (s.samples ≤ h.rows → s.samples ≤ h.width → ∃ right h' : Matrix K,
      Answers (s.manifold.conjugateOperator x η y h) h' ∧
      Answers (s.manifold.operatorInverseTransport x η y h 0 s.samples) right ∧
      Answers (s.manifold.operatorTransport x η y right 0 s.samples) h' ∧
      s.PullsBack x η y 0 h right ∧ s.PushesForward x η y 0 right h') ∧
    ∀ (F : Type) [Scalar F] (x η y : Vec F) (h h' : Matrix F) (c c' : Cache F),
      (∀ start stop, s.manifold.operatorInverseTransport x η y h start stop c = (.ok h', c') →
        Matrix.SameOutside ⟨0, h.rows, start, stop - start⟩ h h') ∧
      (∀ start stop, s.manifold.operatorTransport x η y h start stop c = (.ok h', c') →
        Matrix.SameOutside ⟨start, stop - start, 0, h.width⟩ h h') ∧
      (s.manifold.conjugateOperator x η y h c = (.ok h', c') →
        h'.rows = h.rows ∧ h'.width = h.width ∧
          ∀ i j, s.samples ≤ i → s.samples ≤ j → h'.cell? i j = h.cell? i j) := by
  refine ⟨fun start hstop => answers_operatorInverseTransport hxy η hstop,
    fun start hstop => answers_operatorTransport hxy η hstop, fun hrows hwidth => ?_,
    fun F _ x η y h h' c c' => ⟨fun start stop => sameOutside_of_operatorInverseTransport,
      fun start stop => sameOutside_of_operatorTransport, cell?_of_conjugateOperator⟩⟩
  have hzero : 0 + s.samples = s.samples := Nat.zero_add _
  obtain ⟨right, hright, hrightRows, -, hpulls⟩ := answers_operatorInverseTransport hxy η
    (show 0 + s.samples ≤ h.width by omega)
  obtain ⟨h', hh', -, -, hpushes⟩ := answers_operatorTransport hxy η
    (show 0 + s.samples ≤ right.rows by omega)
  rw [hzero] at hright hh'
  exact ⟨right, h', answers_bind hright hh', hright, hh', hpulls, hpushes⟩

/-- An operator with two rows and three columns. -/
def wide : Matrix ℚ := .ofFn 2 3 fun i j => i + 2 * j

theorem operators_carried_wide : segment.Apart ([1, 1] : Vec ℚ) [1, -1] ∧
    (∃ h' : Matrix ℚ,
      Answers (segment.manifold.operatorInverseTransport [1, 1] [] [1, -1] wide 1 3) h' ∧
      segment.PullsBack [1, 1] [] [1, -1] 1 wide h') ∧
    ∃ right h' : Matrix ℚ,
      Answers (segment.manifold.conjugateOperator [1, 1] [] [1, -1] wide) h' ∧
      segment.PullsBack [1, 1] [] [1, -1] 0 wide right ∧
      segment.PushesForward [1, 1] [] [1, -1] 0 right h' := by
  have hxy : segment.Apart ([1, 1] : Vec ℚ) [1, -1] :=
    ⟨[2, 0], 2, eq_ok_of_yields (by decide +kernel), eq_ok_of_yields (by decide +kernel),
      by decide +kernel⟩
  obtain ⟨hright, -, hboth, -⟩ := operators_carried hxy [] wide
  obtain ⟨h', hanswer, -, -, hpulls⟩ := hright 1 (by decide)
  obtain ⟨right, h'', hconjugate, -, -, hback, hon⟩ := hboth (by decide) (by decide)
  exact ⟨hxy, ⟨h', hanswer, hpulls⟩, right, h'', hconjugate, hback, hon⟩

end GeodesicDescent.Sphere
