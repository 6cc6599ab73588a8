import GeodesicDescent.Proofs.Sphere.Geometry

/-!
# Transport is an isometry

The reflection that swaps `x` and `-y` swaps their tangent spaces too. Transport multiplies the
direction of the reflection by the inner product with `y` alone, which is right for tangent vectors
at `x`; the inverse transport multiplies it by the one with `x`.

* **`Answers`**: what a computation answers on every faithful cache;
* `Sphere.Apart`, `Sphere.Reflects`: points that are not antipodal, and what their reflection is;
* `answers_transport`, `answers_inverseTransport`: the two directions, for any vectors;
* `Reflects.tangent`, `Reflects.inner_eq`, `Reflects.undone`: what one direction does;
* **`transport_isometric`**: transport is an isometric bijection of two tangent spaces.
-/

namespace GeodesicDescent

open Stateful

/-! ## Answers -/

section Answers

variable {K : Type} [Scalar K] {α β : Type} {m : Cached K α} {f : α → Cached K β} {a : α} {b : β}

/-- On every faithful cache the computation answers `a`, and the cache stays faithful. -/
def Answers (m : Cached K α) (a : α) : Prop :=
  ∀ c : Cache K, c.Faithful → (m c).1 = .ok a ∧ (m c).2.Faithful

theorem Answers.after [ExactEquality K] (h : Answers m a) (calls : List (Call K)) :
    (m (Call.performAll calls {}).2).1 = .ok a :=
  (h _ (performAll_answers calls Cache.faithful_empty).2).1

theorem answers_lift {x : Checked α} (h : x = .ok a) : Answers (liftM x : Cached K α) a :=
  gives_lift h

theorem answers_bind (hm : Answers m a) (hf : Answers (f a) b) : Answers (m >>= f) b :=
  gives_bind hm hf

theorem Answers.unique {a' : α} (h : Answers m a) (h' : Answers m a') : a = a' := by
  have := (h {} Cache.faithful_empty).1.symm.trans (h' {} Cache.faithful_empty).1
  exact Except.ok.inj this

theorem Answers.eq_of_yields [DecidableEq α] (h : Answers m a) {a' : α}
    (h' : yields (· = a') (m {}).1 = true) : a = a' :=
  Except.ok.inj ((h {} Cache.faithful_empty).1.symm.trans (eq_ok_of_yields h'))

end Answers

namespace Sphere

variable {K : Type} [Field K] [LinearOrder K] [IsStrictOrderedRing K] [Elementary K] [Tolerances K]
variable {s : Sphere} {x y d u v w : Vec K}

/-! ## Reflections -/

/-- Two functions whose sum is long enough: the reflection that swaps one and the opposite of the
other is computed. -/
def Apart {K : Type} [Scalar K] (s : Sphere) (x y : Vec K) : Prop :=
  ∃ sum squared, Vec.add x y = .ok sum ∧ s.inner sum sum = .ok squared ∧ Scalar.epsilon < squared

/-- The function `d` is the direction of the reflection that swaps `x` and `-y`. -/
structure Reflects (s : Sphere) (x y d : Vec K) : Prop where
  length_left : x.length = s.samples
  length_right : y.length = s.samples
  length_eq : d.length = s.samples
  squared_pos : 0 < s.form x x + 2 * s.form x y + s.form y y
  form_eq : ∀ z, (s.form x x + 2 * s.form x y + s.form y y) * s.form d z =
    s.form x z + s.form y z

omit [IsStrictOrderedRing K] in
theorem Reflects.symm (h : s.Reflects x y d) : s.Reflects y x d := by
  have hsquared : s.form y y + 2 * s.form y x + s.form x x =
      s.form x x + 2 * s.form x y + s.form y y := by
    rw [form_comm y x]
    ring
  refine ⟨h.length_right, h.length_left, h.length_eq, ?_, fun z => ?_⟩
  · rw [hsquared]
    exact h.squared_pos
  · rw [hsquared, h.form_eq, add_comm]

/-- **The reflection of two functions that are apart is computed.** -/
theorem Apart.reflects (h : s.Apart x y) : ∃ d, s.reflection x y = .ok d ∧ s.Reflects x y d := by
  obtain ⟨sum, squared, hsum, hsquared, hlong⟩ := h
  obtain ⟨hlength, -, hvalue⟩ := inner_eq_ok.1 hsquared
  have hadd := Vec.combines_add hsum
  have hform (z : Vec K) : s.form sum z = s.form x z + s.form y z := by
    rw [form_combines hadd, one_mul, one_mul]
  have hsquares : s.form x x + 2 * s.form x y + s.form y y = squared := by
    rw [← hvalue, hform, form_comm x sum, form_comm y sum, hform, hform, form_comm y x]
    ring
  have hpos : 0 < squared := Tolerances.epsilon_pos.trans hlong
  refine ⟨Vec.divide sum squared, ?_, hadd.length_left.symm.trans hlength,
    hadd.length_right.symm.trans hlength, (Vec.length_divide _ _).trans hlength, ?_, fun z => ?_⟩
  · rw [reflection, hsum]
    show (s.inner sum sum >>= _) = _
    rw [hsquared]
    exact if_neg (not_le.2 hlong)
  · rw [hsquares]
    exact hpos
  · rw [hsquares, form_divide, hform, mul_inv_cancel_left₀ hpos.ne']

/-! ## Transport of any vector -/

omit [IsStrictOrderedRing K] in
theorem answers_reflected {α : Type} {check : Checked Unit} {f : Vec K → Cached K α} {a : α}
    (hd : s.reflection x y = .ok d) (h : s.Reflects x y d) (hcheck : check = .ok ())
    (hf : Answers (f d) a) : Answers (do
      s.requireLength x
      s.requireLength y
      check
      let d ← s.cachedReflection x y
      f d) a := by
  have hleft : s.requireLength x = .ok () := requireLength_eq_ok.2 h.length_left
  have hright : s.requireLength y = .ok () := requireLength_eq_ok.2 h.length_right
  refine answers_bind (answers_lift hleft) (answers_bind (answers_lift hright) ?_)
  refine answers_bind (answers_lift hcheck) (answers_bind (fun c hc => ?_) hf)
  obtain ⟨heq, hk⟩ := cachedReflection_apply hc h.length_left h.length_right
  exact ⟨heq.trans hd, hk⟩

theorem answers_subtract {z : Vec K} (hd : d.length = s.samples) (hz : z.length = s.samples)
    (hu : u.length = s.samples) : ∃ image,
      Answers (do
        let coefficient := (← s.inner u z) * 2.0
        Vec.sub u (Vec.scale d coefficient) : Cached K (Vec K)) image ∧
      Vec.Combines 1 u (-(2 * s.form u z)) d image := by
  have hlength : u.length = (Vec.scale d (s.form u z * 2)).length :=
    hu.trans (hd.symm.trans (Vec.length_scale _ _).symm)
  refine ⟨u.zipWith (· - ·) (Vec.scale d (s.form u z * 2)),
    answers_bind (answers_lift (inner_of_length hu hz)) (answers_lift ?_), ?_⟩
  · rw [scientific_two]
    exact Vec.combine_of_length hlength
  · have hsub := Vec.combines_sub (Vec.combine_of_length hlength)
    refine ⟨hsub.length_left, hsub.length_right.trans (Vec.length_scale _ _), fun i => ?_⟩
    rw [hsub.entry, Vec.getD_scale]
    ring

theorem answers_transport (hd : s.reflection x y = .ok d) (h : s.Reflects x y d)
    (hu : u.length = s.samples) : ∃ image, Answers (s.transport x y u) image ∧
      Vec.Combines 1 u (-(2 * s.form u y)) d image := by
  obtain ⟨image, hsubtract, himage⟩ := answers_subtract h.length_eq h.length_right hu
  exact ⟨image, answers_reflected hd h (requireLength_eq_ok.2 hu) hsubtract, himage⟩

theorem answers_inverseTransport (hd : s.reflection x y = .ok d) (h : s.Reflects x y d)
    (hu : u.length = s.samples) : ∃ image, Answers (s.inverseTransport x y u) image ∧
      Vec.Combines 1 u (-(2 * s.form u x)) d image := by
  obtain ⟨image, hsubtract, himage⟩ := answers_subtract h.length_eq h.length_left hu
  exact ⟨image, answers_reflected hd h (requireLength_eq_ok.2 hu) hsubtract, himage⟩

/-! ## Transport of tangent vectors -/

namespace Reflects

variable {u' v' : Vec K}

theorem form_right (hx : s.OnSphere x) (hy : s.OnSphere y) (h : s.Reflects x y d) :
    s.form d y = 1 / 2 := by
  have hpos := h.squared_pos
  have hform := h.form_eq y
  rw [hx.form_eq_one, hy.form_eq_one] at hpos hform
  have hne : 2 * (1 + s.form x y) ≠ 0 := by
    refine ne_of_gt ?_
    linarith
  refine mul_left_cancel₀ hne ?_
  linarith

theorem form_left (hx : s.OnSphere x) (hy : s.OnSphere y) (h : s.Reflects x y d) :
    s.form d x = 1 / 2 := h.symm.form_right hy hx

theorem tangent (hx : s.OnSphere x) (hy : s.OnSphere y) (h : s.Reflects x y d)
    (hv : Vec.Combines 1 u (-(2 * s.form u y)) d v) : s.Tangent y v := by
  refine inner_eq_ok.2 ⟨h.length_right, hv.length_right.trans h.length_eq, ?_⟩
  rw [form_comm, form_combines hv, h.form_right hx hy]
  ring

theorem form_eq_form (h : s.Reflects x y d) (hu : s.Tangent x u) (hu' : s.Tangent x u')
    (hv : Vec.Combines 1 u (-(2 * s.form u y)) d v)
    (hv' : Vec.Combines 1 u' (-(2 * s.form u' y)) d v') : s.form v v' = s.form u u' := by
  have hne := h.squared_pos.ne'
  set q := s.form x x + 2 * s.form x y + s.form y y with hq
  have hdu : q * s.form d u = s.form u y := by
    rw [h.form_eq, hu.form_eq_zero, zero_add, form_comm]
  have hdu' : q * s.form d u' = s.form u' y := by
    rw [h.form_eq, hu'.form_eq_zero, zero_add, form_comm]
  have hdd : q * s.form d d = 1 := by
    refine mul_left_cancel₀ hne ?_
    have hdx := h.form_eq x
    have hdy := h.form_eq y
    rw [h.form_eq d, form_comm x d, form_comm y d, mul_add, hdx, hdy, form_comm y x, hq]
    ring
  rw [form_combines hv, form_comm u v', form_comm d v', form_combines hv', form_combines hv',
    form_comm u' u, form_comm u' d, ← hdu, ← hdu']
  linear_combination 4 * q * s.form d u * s.form d u' * hdd

theorem undone (hx : s.OnSphere x) (hy : s.OnSphere y) (h : s.Reflects x y d)
    (hu : s.Tangent x u) (hv : Vec.Combines 1 u (-(2 * s.form u y)) d v)
    (hw : Vec.Combines 1 v (-(2 * s.form v x)) d w) : w = u := by
  have hvx : s.form v x = -s.form u y := by
    rw [form_combines hv, h.form_left hx hy, form_comm u x, hu.form_eq_zero]
    ring
  refine Vec.ext_getD (hw.length_left.trans hv.length_left) fun i => ?_
  rw [hw.entry, hv.entry, hvx]
  ring

end Reflects

/-- **Transport is an isometric bijection of two tangent spaces**, between points that are apart. -/
theorem transport_isometric (η : Vec K) (hx : s.OnSphere x) (hy : s.OnSphere y)
    (hxy : s.Apart x y) :
    (∀ ξ, s.Tangent x ξ → ∃ image, Answers (s.manifold.transport x η y ξ) image ∧
      s.Tangent y image ∧ Answers (s.manifold.inverseTransport x η y image) ξ) ∧
    (∀ ζ, s.Tangent y ζ → ∃ source, Answers (s.manifold.inverseTransport x η y ζ) source ∧
      s.Tangent x source ∧ Answers (s.manifold.transport x η y source) ζ) ∧
    ∀ ξ ξ' image image', s.Tangent x ξ → s.Tangent x ξ' →
      Answers (s.manifold.transport x η y ξ) image →
      Answers (s.manifold.transport x η y ξ') image' →
      s.inner image image' = s.inner ξ ξ' := by
  obtain ⟨d, hd, h⟩ := hxy.reflects
  refine ⟨fun ξ hξ => ?_, fun ζ hζ => ?_, fun ξ ξ' image image' hξ hξ' hanswer hanswer' => ?_⟩
  · obtain ⟨image, hanswer, himage⟩ := answers_transport hd h hξ.length_eq
    have htangent := h.tangent hx hy himage
    obtain ⟨back, hback, hcombines⟩ := answers_inverseTransport hd h htangent.length_eq
    obtain rfl := h.undone hx hy hξ himage hcombines
    exact ⟨image, hanswer, htangent, hback⟩
  · obtain ⟨source, hanswer, hsource⟩ := answers_inverseTransport hd h hζ.length_eq
    have htangent := h.symm.tangent hy hx hsource
    obtain ⟨back, hback, hcombines⟩ := answers_transport hd h htangent.length_eq
    obtain rfl := h.symm.undone hy hx hζ hsource hcombines
    exact ⟨source, hanswer, htangent, hback⟩
  · obtain ⟨v, hv, hcombines⟩ := answers_transport hd h hξ.length_eq
    obtain ⟨v', hv', hcombines'⟩ := answers_transport hd h hξ'.length_eq
    obtain rfl := hanswer.unique hv
    obtain rfl := hanswer'.unique hv'
    rw [inner_of_length (hcombines.length_right.trans h.length_eq)
      (hcombines'.length_right.trans h.length_eq), inner_of_length hξ.length_eq hξ'.length_eq,
      h.form_eq_form hξ hξ' hcombines hcombines']

/-- The reflection that swaps `(1, 1)` and `(-1, 1)`. -/
theorem transport_isometric_segment : segment.Apart ([1, 1] : Vec ℚ) [1, -1] ∧
    ∃ image : Vec ℚ, Answers (segment.manifold.transport [1, 1] [] [1, -1] [1, -1]) image ∧
      segment.Tangent [1, -1] image ∧
      Answers (segment.manifold.inverseTransport [1, 1] [] [1, -1] image) [1, -1] ∧
      segment.inner image image = .ok 1 := by
  have hx : segment.OnSphere ([1, 1] : Vec ℚ) := eq_ok_of_yields (by decide +kernel)
  have hy : segment.OnSphere ([1, -1] : Vec ℚ) := eq_ok_of_yields (by decide +kernel)
  have hxy : segment.Apart ([1, 1] : Vec ℚ) [1, -1] :=
    ⟨[2, 0], 2, eq_ok_of_yields (by decide +kernel), eq_ok_of_yields (by decide +kernel),
      by decide +kernel⟩
  have hξ : segment.Tangent ([1, 1] : Vec ℚ) [1, -1] := eq_ok_of_yields (by decide +kernel)
  obtain ⟨hthere, -, hinner⟩ := transport_isometric [] hx hy hxy
  obtain ⟨image, hanswer, htangent, hback⟩ := hthere _ hξ
  exact ⟨hxy, image, hanswer, htangent, hback, (hinner _ _ _ _ hξ hξ hanswer hanswer).trans hy⟩

end Sphere

end GeodesicDescent
