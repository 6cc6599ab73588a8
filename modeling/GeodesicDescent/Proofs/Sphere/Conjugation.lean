import GeodesicDescent.Proofs.Sphere.Operators

/-!
# Operators that are carried stay self-adjoint and definite

An operator on one tangent space is carried to another by two updates, each against the flat vector
of one of the points. Transport and its inverse undo each other on tangent vectors alone, and keep
inner products there alone. That is enough: what the carried operator does to a tangent vector is
the image of what the operator does to the vector it came from.

* `Sphere.MapsTangent`, `Sphere.SelfAdjointAt`, `Sphere.DefiniteAt`: operators on a tangent space,
  the self-adjoint and the positive definite ones among them;
* `Sphere.Carries`: two tangent vectors, one of which is carried to the other;
* `Reflects.exists_image`, **`Reflects.exists_source`**: every tangent vector at either point is one
  of two such vectors;
* `Sphere.Conjugates`, **`exists_conjugateOperator`**: the carried operator by what it does to
  tangent vectors;
* **`conjugateOperator_definite`**: it is an operator on the other tangent space, and is
  self-adjoint or positive definite there if the operator was.
-/

namespace GeodesicDescent.Sphere

open Stateful Finset

/-! ## Operators on a tangent space -/

section Operators

variable {K : Type} [Scalar K]

/-- The operator maps the tangent space at a point into itself. -/
def MapsTangent (s : Sphere) (x : Vec K) (h : Matrix K) : Prop :=
  ∀ u, s.Tangent x u → ∃ u', h.mulVec u = .ok u' ∧ s.Tangent x u'

/-- The operator is self-adjoint on the tangent space at a point. -/
def SelfAdjointAt (s : Sphere) (x : Vec K) (h : Matrix K) : Prop :=
  ∀ u v u' v', s.Tangent x u → s.Tangent x v → h.mulVec u = .ok u' → h.mulVec v = .ok v' →
    s.inner u' v = s.inner u v'

/-- The operator is positive definite on the tangent space at a point. -/
def DefiniteAt (s : Sphere) (x : Vec K) (h : Matrix K) : Prop :=
  ∀ u u', s.Tangent x u → (∃ t ∈ u, t ≠ 0) → h.mulVec u = .ok u' →
    ∃ r, s.inner u u' = .ok r ∧ 0 < r

end Operators

variable {K : Type} [Field K] [LinearOrder K] [IsStrictOrderedRing K] [Elementary K] [Tolerances K]
variable {s : Sphere} {x y d u v u' v' : Vec K} {h h' : Matrix K}

/-! ## Vectors that are carried -/

/-- The tangent vector `v` at `y` is what the tangent vector `u` at `x` is carried to. -/
structure Carries (s : Sphere) (x y d u v : Vec K) : Prop where
  source : s.Tangent x u
  target : s.Tangent y v
  combines : Vec.Combines 1 u (-(2 * s.form u y)) d v

theorem Carries.inner_eq (hreflects : s.Reflects x y d) (huv : s.Carries x y d u v)
    (huv' : s.Carries x y d u' v') : s.inner v v' = s.inner u u' := by
  rw [inner_of_length huv.target.length_eq huv'.target.length_eq,
    inner_of_length huv.source.length_eq huv'.source.length_eq,
    hreflects.form_eq_form huv.source huv'.source huv.combines huv'.combines]

omit [IsStrictOrderedRing K] in
theorem Carries.exists_ne_zero (huv : s.Carries x y d u v) (hv : ∃ t ∈ v, t ≠ 0) :
    ∃ t ∈ u, t ≠ 0 := by
  by_contra hzero
  have hentry : ∀ i, u.getD i 0 = 0 := by
    apply Vec.getD_of_forall
    intro t ht
    by_contra hne
    exact hzero ⟨t, ht, hne⟩
  have hform : s.form u y = 0 := sum_eq_zero fun i _ => by rw [hentry, zero_mul, mul_zero]
  obtain ⟨t, hmem, hne⟩ := hv
  obtain ⟨i, hi, rfl⟩ := List.getElem_of_mem hmem
  apply hne
  rw [← List.getD_eq_getElem _ 0 hi, huv.combines.entry, hentry, hform]
  ring

theorem Reflects.exists_image (hx : s.OnSphere x) (hy : s.OnSphere y)
    (hd : s.reflection x y = .ok d) (hreflects : s.Reflects x y d) (hu : s.Tangent x u) :
    ∃ v, Answers (s.transport x y u) v ∧ s.Carries x y d u v := by
  obtain ⟨v, hanswer, hv⟩ := answers_transport hd hreflects hu.length_eq
  exact ⟨v, hanswer, hu, hreflects.tangent hx hy hv, hv⟩

/-- **Every tangent vector at `y` is what one at `x` is carried to.** -/
theorem Reflects.exists_source (hx : s.OnSphere x) (hy : s.OnSphere y)
    (hd : s.reflection x y = .ok d) (hreflects : s.Reflects x y d) (hv : s.Tangent y v) :
    ∃ u, Answers (s.inverseTransport x y v) u ∧ s.Carries x y d u v := by
  obtain ⟨u, hanswer, hu⟩ := answers_inverseTransport hd hreflects hv.length_eq
  have htangent := hreflects.symm.tangent hy hx hu
  -- carried there and back, a tangent vector is itself
  obtain ⟨back, -, hback⟩ := hreflects.exists_image hx hy hd htangent
  obtain rfl := hreflects.symm.undone hy hx hv hu hback.combines
  exact ⟨u, hanswer, hback⟩

/-! ## Operators that are carried -/

/-- What the operator `h'` does to a tangent vector at `y` is what the operator `h` does to the
vector at `x` that it came from, carried to `y`. -/
def Conjugates (s : Sphere) (x y d : Vec K) (h h' : Matrix K) : Prop :=
  ∀ v, s.Tangent y v → ∃ u u' v', s.Carries x y d u v ∧ h.mulVec u = .ok u' ∧
    s.Carries x y d u' v' ∧ h'.mulVec v = .ok v'

/-- **An operator on a tangent space is carried as its vectors are.** -/
theorem exists_conjugateOperator (η : Vec K) (hx : s.OnSphere x) (hy : s.OnSphere y)
    (hxy : s.Apart x y) (hrows : h.rows = s.samples) (hwidth : h.width = s.samples)
    (hmaps : s.MapsTangent x h) : ∃ (d : Vec K) (h' : Matrix K),
      Answers (s.manifold.conjugateOperator x η y h) h' ∧ h'.rows = s.samples ∧
        h'.width = s.samples ∧ s.Reflects x y d ∧ s.Conjugates x y d h h' := by
  obtain ⟨d, hd, hreflects⟩ := hxy.reflects
  have hfits : 0 + s.samples ≤ h.width := by omega
  obtain ⟨right, hright, hrightRows, hrightWidth, hpulls⟩ :=
    answers_operatorInverseTransport hxy η hfits
  have hfits' : 0 + s.samples ≤ right.rows := by omega
  obtain ⟨h', hleft, hleftRows, hleftWidth, hpushes⟩ := answers_operatorTransport hxy η hfits'
  rw [Nat.zero_add] at hright hleft
  refine ⟨d, h', answers_bind hright hleft, by omega, by omega, hreflects, fun v hv => ?_⟩
  obtain ⟨u, hback, hcarries⟩ := hreflects.exists_source hx hy hd hv
  obtain ⟨u', hu', htangent⟩ := hmaps u hcarries.source
  obtain ⟨v', himage, hcarries'⟩ := hreflects.exists_image hx hy hd htangent
  refine ⟨u, u', v', hcarries, hu', hcarries', ?_⟩
  -- the blocks are the whole vectors, so that the two updates carry what they are applied to
  obtain ⟨u₁, u₁', hback₁, hproduct, hright'⟩ := hpulls v (by rw [hv.length_eq, hwidth])
  rw [Vec.slice_whole hv.length_eq] at hback₁
  obtain rfl := hback.unique hback₁
  rw [Vec.splice_whole (hcarries.source.length_eq.trans hv.length_eq.symm)] at hproduct
  obtain rfl := Except.ok.inj (hu'.symm.trans hproduct)
  obtain ⟨u₂', v₁', hright'', himage₁, hleft'⟩ :=
    hpushes v (by rw [hv.length_eq, hrightWidth, hwidth])
  obtain rfl := Except.ok.inj (hright'.symm.trans hright'')
  rw [Vec.slice_whole htangent.length_eq] at himage₁
  obtain rfl := himage.unique himage₁
  rwa [Vec.splice_whole (hcarries'.target.length_eq.trans htangent.length_eq.symm)] at hleft'

namespace Conjugates

omit [IsStrictOrderedRing K] in
theorem mapsTangent (hconjugates : s.Conjugates x y d h h') : s.MapsTangent y h' := by
  intro v hv
  obtain ⟨u, u', v', -, -, hcarries, hv'⟩ := hconjugates v hv
  exact ⟨v', hv', hcarries.target⟩

theorem selfAdjointAt (hreflects : s.Reflects x y d) (hconjugates : s.Conjugates x y d h h')
    (hself : s.SelfAdjointAt x h) : s.SelfAdjointAt y h' := by
  intro v w v' w' hv hw hv' hw'
  obtain ⟨u, u', image, hcarries, hu', hcarries', himage⟩ := hconjugates v hv
  obtain rfl := Except.ok.inj (hv'.symm.trans himage)
  obtain ⟨z, z', image, hcarriesw, hz', hcarriesw', himage⟩ := hconjugates w hw
  obtain rfl := Except.ok.inj (hw'.symm.trans himage)
  calc s.inner v' w
      = s.inner u' z := hcarries'.inner_eq hreflects hcarriesw
    _ = s.inner u z' := hself u z u' z' hcarries.source hcarriesw.source hu' hz'
    _ = s.inner v w' := (hcarries.inner_eq hreflects hcarriesw').symm

theorem definiteAt (hreflects : s.Reflects x y d) (hconjugates : s.Conjugates x y d h h')
    (hdefinite : s.DefiniteAt x h) : s.DefiniteAt y h' := by
  intro v v' hv hne hv'
  obtain ⟨u, u', image, hcarries, hu', hcarries', himage⟩ := hconjugates v hv
  obtain rfl := Except.ok.inj (hv'.symm.trans himage)
  obtain ⟨r, hr, hpos⟩ := hdefinite u u' hcarries.source (hcarries.exists_ne_zero hne) hu'
  exact ⟨r, (hcarries.inner_eq hreflects hcarries').trans hr, hpos⟩

end Conjugates

/-- **Carried operators stay self-adjoint and positive definite**, between points that are apart. -/
theorem conjugateOperator_definite (η : Vec K) (hx : s.OnSphere x) (hy : s.OnSphere y)
    (hxy : s.Apart x y) (hrows : h.rows = s.samples) (hwidth : h.width = s.samples)
    (hmaps : s.MapsTangent x h) : ∃ h' : Matrix K,
      Answers (s.manifold.conjugateOperator x η y h) h' ∧ h'.rows = s.samples ∧
      h'.width = s.samples ∧ s.MapsTangent y h' ∧ (s.SelfAdjointAt x h → s.SelfAdjointAt y h') ∧
      (s.DefiniteAt x h → s.DefiniteAt y h') := by
  obtain ⟨d, h', hanswer, hrows', hwidth', hreflects, hconjugates⟩ :=
    exists_conjugateOperator η hx hy hxy hrows hwidth hmaps
  exact ⟨h', hanswer, hrows', hwidth', hconjugates.mapsTangent,
    hconjugates.selfAdjointAt hreflects, hconjugates.definiteAt hreflects⟩

/-! ## An operator on the smallest sphere -/

/-- An operator that doubles the tangent vectors at `(1, 1)`. -/
def doubling : Matrix ℚ := ⟨2, [[3, 0], [1, 2]], by simp⟩

theorem tangent_segment_iff {u : Vec ℚ} : segment.Tangent [1, 1] u ↔ ∃ a : ℚ, u = [a, -a] := by
  constructor
  · intro hu
    obtain ⟨a, b, rfl⟩ := List.length_eq_two.1 hu.length_eq
    have hzero := hu.form_eq_zero
    rw [form_segment] at hzero
    exact ⟨a, by rw [show b = -a by linarith]⟩
  · rintro ⟨a, rfl⟩
    refine inner_eq_ok.2 ⟨rfl, rfl, ?_⟩
    rw [form_segment]
    ring

theorem mulVec_doubling (a : ℚ) : doubling.mulVec [a, -a] = .ok [2 * a, -(2 * a)] := by
  rw [Matrix.mulVec_eq_product rfl]
  simp [Matrix.product, Matrix.entry, Matrix.cell?, doubling, Matrix.width, List.range_succ,
    sum_range_succ]
  ring

theorem inner_segment_opposite (a b : ℚ) : segment.inner [a, -a] [b, -b] = .ok (a * b) := by
  refine inner_eq_ok.2 ⟨rfl, rfl, ?_⟩
  rw [form_segment]
  ring

theorem mapsTangent_doubling : segment.MapsTangent [1, 1] doubling := by
  intro u hu
  obtain ⟨a, rfl⟩ := tangent_segment_iff.1 hu
  exact ⟨_, mulVec_doubling a, tangent_segment_iff.2 ⟨2 * a, rfl⟩⟩

theorem selfAdjointAt_doubling : segment.SelfAdjointAt [1, 1] doubling := by
  intro u v u' v' hu hv hu' hv'
  obtain ⟨a, rfl⟩ := tangent_segment_iff.1 hu
  obtain ⟨b, rfl⟩ := tangent_segment_iff.1 hv
  obtain rfl := Except.ok.inj (hu'.symm.trans (mulVec_doubling a))
  obtain rfl := Except.ok.inj (hv'.symm.trans (mulVec_doubling b))
  rw [inner_segment_opposite, inner_segment_opposite, mul_left_comm, mul_assoc]

theorem definiteAt_doubling : segment.DefiniteAt [1, 1] doubling := by
  intro u u' hu hne hu'
  obtain ⟨a, rfl⟩ := tangent_segment_iff.1 hu
  obtain rfl := Except.ok.inj (hu'.symm.trans (mulVec_doubling a))
  have ha : a ≠ 0 := by simpa using hne
  refine ⟨_, inner_segment_opposite a (2 * a), ?_⟩
  rw [mul_left_comm]
  exact mul_pos two_pos (mul_self_pos.2 ha)

theorem conjugateOperator_definite_doubling : segment.MapsTangent [1, 1] doubling ∧
    segment.SelfAdjointAt [1, 1] doubling ∧ segment.DefiniteAt [1, 1] doubling ∧
    ∃ h' : Matrix ℚ,
      Answers (segment.manifold.conjugateOperator [1, 1] [] [1, -1] doubling) h' ∧
      segment.MapsTangent [1, -1] h' ∧ segment.SelfAdjointAt [1, -1] h' ∧
      segment.DefiniteAt [1, -1] h' := by
  have hx : segment.OnSphere ([1, 1] : Vec ℚ) := eq_ok_of_yields (by decide +kernel)
  have hy : segment.OnSphere ([1, -1] : Vec ℚ) := eq_ok_of_yields (by decide +kernel)
  have hxy : segment.Apart ([1, 1] : Vec ℚ) [1, -1] :=
    ⟨[2, 0], 2, eq_ok_of_yields (by decide +kernel), eq_ok_of_yields (by decide +kernel),
      by decide +kernel⟩
  obtain ⟨h', hanswer, -, -, hmaps, hself, hdefinite⟩ :=
    conjugateOperator_definite [] hx hy hxy rfl rfl mapsTangent_doubling
  exact ⟨mapsTangent_doubling, selfAdjointAt_doubling, definiteAt_doubling, h', hanswer, hmaps,
    hself selfAdjointAt_doubling, hdefinite definiteAt_doubling⟩

end GeodesicDescent.Sphere
