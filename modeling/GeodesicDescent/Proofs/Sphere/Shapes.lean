import GeodesicDescent.Proofs.Sphere.Transparency

/-!
# Shapes fit together

An entrywise operation faults where lengths differ, and so does an entry or a block that lies
outside. On a sphere the lengths that are not checked follow from those that are, in any
arithmetic.

* `Checked.Orderly`: a computation that gives a value or a refusal, and does not fault otherwise;
* `Matrix.exists_block`, `exists_accumulate`, `exists_rankOne`: blocks, products and updates of
  shapes that fit;
* `Sphere.exists_inner`, `exists_flat`, `length_of_reflection`: inner products, flat vectors and
  reflections of vectors with one entry per sample;
* `Sphere.orderly_inner`, `Sphere.orderly_reflection`: that nothing but a refusal is left
  otherwise;
* `Sphere.requireBlock_eq_ok`: what the check of a block ensures.
-/

namespace GeodesicDescent

open Stateful

/-! ## Values and refusals -/

section Orderly

variable {α β : Type} {r : Checked α}

/-- The result is a value or a refusal, and no other fault. -/
def Checked.Orderly (r : Checked α) : Prop := ∃ x, r = Checked.ofExcept x

namespace Checked

theorem orderly_ok (a : α) : Orderly (.ok a) := ⟨.ok a, rfl⟩

theorem orderly_refuse (e : GeometryError) : Orderly (GeodesicDescent.refuse e : Checked α) :=
  ⟨.error e, rfl⟩

theorem Orderly.exists_refused {fault : Fault GeometryError} (h : Orderly r)
    (hr : r = .error fault) : ∃ e, fault = .refused e := by
  obtain ⟨_ | a, rfl⟩ := h
  · cases hr
    exact ⟨_, rfl⟩
  · cases hr

theorem orderly_of_eq_ok {a : α} (h : r = .ok a) : Orderly r := h ▸ orderly_ok a

theorem Orderly.bind {f : α → Checked β} (h : Orderly r) (hf : ∀ a, r = .ok a → Orderly (f a)) :
    Orderly (r >>= f) := by
  obtain ⟨e | a, rfl⟩ := h
  · exact ⟨.error e, rfl⟩
  · exact hf a rfl

theorem Orderly.map (f : α → β) (h : Orderly r) : Orderly (f <$> r) := by
  obtain ⟨e | a, rfl⟩ := h
  · exact ⟨.error e, rfl⟩
  · exact orderly_ok (f a)

end Checked

end Orderly

open Checked

variable {K : Type} [Scalar K]

/-! ## Vectors and matrices -/

namespace Vec

omit [Scalar K] in
theorem exists_entry {v : Vec K} {i : Nat} (h : i < v.length) : ∃ t, entry v i = .ok t :=
  ⟨v[i], by simp [entry, h]⟩

omit [Scalar K] in
theorem exists_modifyEntry {v : Vec K} {i : Nat} (h : i < v.length) (f : K → K) :
    ∃ w, modifyEntry v i f = .ok w ∧ w.length = v.length :=
  ⟨v.modify i f, if_pos h, List.length_modify ..⟩

omit [Scalar K] in
theorem exists_combine {f : K → K → K} {u v : Vec K} (h : u.length = v.length) :
    ∃ w, combine f u v = .ok w ∧ w.length = u.length :=
  ⟨u.zipWith f v, combine_of_length h, by rw [List.length_zipWith, ← h, Nat.min_self]⟩

end Vec

namespace Matrix

theorem length_foldl_columns {n : Nat} (alpha : K) (columns : List (Vec K × K)) {acc : Vec K}
    (hcolumns : ∀ p ∈ columns, p.1.length = n) (hacc : acc.length = n) :
    (columns.foldl (fun acc (column, s) => column.zipWith (fun a t => alpha * a * s + t) acc)
      acc).length = n := by
  induction columns generalizing acc with
  | nil => exact hacc
  | cons p columns ih =>
    refine ih (fun q hq => hcolumns q (List.mem_cons_of_mem p hq)) ?_
    rw [List.length_zipWith, hcolumns p List.mem_cons_self, hacc, Nat.min_self]

theorem length_apply {A : Matrix K} {alpha beta : K} {x y : Vec K} (hy : y.length = A.rows) :
    (apply alpha A x beta y).length = A.rows := by
  have hcolumns (p : Vec K × K) (hp : p ∈ A.columns.zip x) : p.1.length = A.rows :=
    A.length_columns _ (List.of_mem_zip hp).1
  unfold apply
  split
  · rw [List.length_map, hy]
  · next column t rest hzip =>
    rw [hzip] at hcolumns
    have hcolumn : column.length = A.rows := hcolumns _ List.mem_cons_self
    refine length_foldl_columns _ _ (fun p hp => hcolumns p (List.mem_cons_of_mem _ hp)) ?_
    unfold applyFirst
    split_ifs
    · rw [List.length_map, hcolumn]
    · rw [List.length_zipWith, hcolumn, hy, Nat.min_self]

theorem length_applyTransposed {A : Matrix K} {alpha beta : K} {x y : Vec K}
    (hy : y.length = A.width) : (applyTransposed alpha A x beta y).length = A.width := by
  rw [applyTransposed, List.length_zipWith, hy]
  exact Nat.min_self _

omit [Scalar K] in
theorem exists_block {A : Matrix K} {b : Block}
    (h : b.row + b.rows ≤ A.rows ∧ b.column + b.columns ≤ A.width) :
    ∃ B, A.block b = .ok B ∧ B.rows = b.rows ∧ B.width = b.columns := by
  refine ⟨_, dif_pos h, rfl, ?_⟩
  have : b.column + b.columns ≤ A.columns.length := h.2
  simp only [width, List.length_map, List.length_take, List.length_drop]
  omega

theorem exists_accumulate {A : Matrix K} {x : Vec K} (alpha beta : K) (h : x.length = A.width) :
    ∃ w, accumulate false alpha A x beta (Vec.zeros A.rows) = .ok w ∧ w.length = A.rows :=
  ⟨apply alpha A x beta (Vec.zeros A.rows), by simp [accumulate, h],
    length_apply (Vec.length_zeros _)⟩

theorem exists_accumulate_transposed {A : Matrix K} {x : Vec K} (alpha beta : K)
    (h : x.length = A.rows) :
    ∃ w, accumulate true alpha A x beta (Vec.zeros A.width) = .ok w ∧ w.length = A.width :=
  ⟨applyTransposed alpha A x beta (Vec.zeros A.width), by simp [accumulate, h],
    length_applyTransposed (Vec.length_zeros _)⟩

theorem exists_rankOne (alpha : K) {x y : Vec K} {A : Matrix K} {b : Block}
    (hx : b.rows = x.length) (hy : b.columns = y.length) :
    ∃ B, rankOne alpha x y A b = .ok B ∧ B.rows = A.rows ∧ B.width = A.width := by
  refine ⟨A.addOuter alpha x y b.row b.column, ?_, rfl, List.length_mapIdx⟩
  simp [rankOne, hx, hy]

end Matrix

/-! ## The sphere -/

namespace Sphere

variable {s : Sphere} {x y u v d : Vec K}

omit [Scalar K] in
theorem orderly_requireLength (v : Vec K) : Orderly (s.requireLength v) := by
  unfold requireLength
  split_ifs
  · exact orderly_ok _
  · exact orderly_refuse _

theorem exists_inner (hu : u.length = s.samples) (hv : v.length = s.samples) :
    ∃ t, s.inner u v = .ok t := by
  have hsamples := s.two_le_samples
  obtain ⟨u₀, hu₀⟩ := Vec.exists_entry (v := u) (i := 0) (by omega)
  obtain ⟨v₀, hv₀⟩ := Vec.exists_entry (v := v) (i := 0) (by omega)
  obtain ⟨u₁, hu₁⟩ := Vec.exists_entry (v := u) (i := s.samples - 1) (by omega)
  obtain ⟨v₁, hv₁⟩ := Vec.exists_entry (v := v) (i := s.samples - 1) (by omega)
  have hdot : Vec.dot? u v = .ok (Vec.rawDot u v) := if_pos (hu.trans hv.symm)
  refine ⟨(Vec.rawDot u v - (u₀ * v₀ + u₁ * v₁) * 0.5) * s.spacing, ?_⟩
  rw [inner, requireLength_eq_ok (r := ()) |>.2 hu, hdot, hu₀, hv₀]
  simp only [hu₁, hv₁]
  rfl

theorem inner_cases (u v : Vec K) :
    u.length = s.samples ∧ v.length = s.samples ∧ (∃ t, s.inner u v = .ok t) ∨
      ∃ e, s.inner u v = .error (.refused e) := by
  by_cases hu : u.length = s.samples
  · by_cases hv : v.length = s.samples
    · exact .inl ⟨hu, hv, exists_inner hu hv⟩
    · have hdot : Vec.dot? u v = .error (.lengths u.length v.length) :=
        if_neg fun h => hv (h.symm.trans hu)
      refine .inr ⟨.lengths u.length v.length, ?_⟩
      rw [inner, requireLength_eq_ok (r := ()) |>.2 hu, hdot]
      rfl
  · refine .inr ⟨.lengths s.samples u.length, ?_⟩
    rw [inner, requireLength, if_neg hu]
    rfl

theorem orderly_inner (u v : Vec K) : Orderly (s.inner u v) := by
  obtain ⟨-, -, t, h⟩ | ⟨e, h⟩ := inner_cases (s := s) u v
  · exact orderly_of_eq_ok h
  · rw [h]
    exact orderly_refuse e

theorem length_of_inner {t : K} (h : s.inner u v = .ok t) :
    u.length = s.samples ∧ v.length = s.samples := by
  obtain ⟨hu, hv, -⟩ | ⟨e, he⟩ := inner_cases (s := s) u v
  · exact ⟨hu, hv⟩
  · cases h.symm.trans he

theorem exists_flat (hv : v.length = s.samples) :
    ∃ w, s.flat v = .ok w ∧ w.length = s.samples := by
  have hsamples := s.two_le_samples
  have hscale : (Vec.scale v s.spacing).length = s.samples := (Vec.length_scale _ _).trans hv
  obtain ⟨w₁, hw₁, hlength₁⟩ := Vec.exists_modifyEntry (v := Vec.scale v s.spacing) (i := 0)
    (by omega) (· * 0.5)
  obtain ⟨w₂, hw₂, hlength₂⟩ := Vec.exists_modifyEntry (v := w₁) (i := s.samples - 1)
    (by omega) (· * 0.5)
  refine ⟨w₂, ?_, hlength₂.trans (hlength₁.trans hscale)⟩
  rw [flat, hw₁]
  exact hw₂

theorem length_of_reflection (h : s.reflection x y = .ok d) : d.length = s.samples := by
  obtain ⟨sum, -, h⟩ := checked_bind_eq_ok.1 h
  obtain ⟨squared, hinner, h⟩ := checked_bind_eq_ok.1 h
  split_ifs at h
  · cases h
  · cases h
    exact (Vec.length_divide _ _).trans (length_of_inner hinner).1

theorem orderly_reflection (hx : x.length = s.samples) (hy : y.length = s.samples) :
    Orderly (s.reflection x y) := by
  obtain ⟨sum, hsum, -⟩ := Vec.exists_combine (f := (· + ·)) (hx.trans hy.symm)
  refine (orderly_of_eq_ok hsum).bind fun sum _ => (orderly_inner sum sum).bind fun squared _ => ?_
  split_ifs
  · exact orderly_refuse _
  · exact orderly_ok _

theorem exists_tangentPart (hx : x.length = s.samples) (hv : v.length = s.samples) :
    ∃ w, (do
      let along ← s.inner x v
      Vec.sub v (Vec.scale x along) : Checked (Vec K)) = .ok w := by
  obtain ⟨t, ht⟩ := exists_inner hx hv
  obtain ⟨w, hw, -⟩ := Vec.exists_combine (f := (· - ·)) (u := v) (v := Vec.scale x t)
    (by rw [Vec.length_scale, hv, hx])
  refine ⟨w, ?_⟩
  rw [ht]
  exact hw

theorem projectTangent_of_length (hx : x.length = s.samples) (hv : v.length = s.samples) :
    ∃ w, s.projectTangent x v = .ok w := by
  rw [projectTangent, requireLength_eq_ok (r := ()) |>.2 hx, requireLength_eq_ok (r := ()) |>.2 hv]
  exact exists_tangentPart hx hv

theorem exists_scaling {η ξ image : Vec K} (hη : η.length = s.samples) (hξ : ξ.length = s.samples)
    (himage : image.length = s.samples) : ∃ entry, s.scaling η ξ image = .ok entry := by
  obtain ⟨ηη, hηη⟩ := exists_inner hη hη
  obtain ⟨ξξ, hξξ⟩ := exists_inner hξ hξ
  obtain ⟨squared, hsquared⟩ := exists_inner himage himage
  unfold scaling
  rw [hηη, hξξ, hsquared]
  exact ⟨_, rfl⟩

/-! ## Operators -/

omit [Scalar K] in
theorem requireBlock_eq_ok {h : Matrix K} {start stop extent : Nat}
    (hcheck : s.requireBlock h start stop extent = .ok ()) :
    start ≤ stop ∧ stop ≤ extent ∧ stop - start = s.samples := by
  unfold requireBlock at hcheck
  split_ifs at hcheck with houtside hlength
  · cases hcheck
  · cases hcheck
  · omega

omit [Scalar K] in
theorem requireBlock_of_le {h : Matrix K} {extent : Nat} (hle : s.samples ≤ extent) :
    s.requireBlock h 0 s.samples extent = .ok () := by
  unfold requireBlock
  rw [if_neg (by omega), if_neg (by omega)]

omit [Scalar K] in
theorem orderly_requireBlock (h : Matrix K) (start stop extent : Nat) :
    Orderly (s.requireBlock h start stop extent) := by
  unfold requireBlock
  split_ifs
  · exact orderly_refuse _
  · exact orderly_refuse _
  · exact orderly_ok _

end Sphere

end GeodesicDescent
