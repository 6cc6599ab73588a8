import GeodesicDescent.Proofs.Sphere.Nearest
import GeodesicDescent.Proofs.Sphere.Reflection
import GeodesicDescent.Proofs.Sphere.Shapes

/-!
# The scale factors of a differentiated retraction

Where they are asked for, the derivative of the retraction along a displacement keeps three scale
factors with the vector it answers, and the displacement itself carried to the other point. The
factors are quotients of roots of quotients. Transport keeps the length of a tangent vector, so that
these cancel: what is left are one and the square of the displacement.

* `differential_eq_ok`: where factors are kept, the derivative is a transport that also keeps them;
* **`scaling_of_isometric`**: the factors of a vector that is carried without a change of length;
* `Sphere.Scales`, `scales_of_reflects`: the entry that belongs to a displacement;
* **`differential_keeps_scaling`**: that this is the entry which is kept.
-/

namespace GeodesicDescent.Sphere

open Stateful

theorem apart_of_reflection {K : Type} [Field K] [LinearOrder K] [Elementary K] [Tolerances K]
    {s : Sphere} {x y d : Vec K} (h : s.reflection x y = .ok d) : s.Apart x y := by
  simp only [reflection, checked_bind_eq_ok] at h
  obtain ⟨sum, hsum, squared, hsquared, h⟩ := h
  split_ifs at h with hshort
  · cases h
  · exact ⟨sum, squared, hsum, hsquared, not_le.1 hshort⟩

section Differential

variable {K : Type} [Scalar K] {s : Sphere} {x y η ξ image : Vec K} {c c' : Cache K}

theorem differential_eq_ok
    (hkeep : (s.config.keepTransported || s.config.keepFactors) = true) :
    s.manifold.differential x η y ξ true c = (.ok image, c') ↔
      ∃ c₁ entry, s.manifold.transport x η y ξ c = (.ok image, c₁) ∧
        s.scaling η ξ image = .ok entry ∧ c' = c₁.keepScaling entry := by
  have hdifferential : s.manifold.differential x η y ξ true = (do
      let image ← s.manifold.transport x η y ξ
      let entry ← s.scaling η ξ image
      modify (·.keepScaling entry)
      return image : Cached K (Vec K)) := by
    simp [manifold, differential, hkeep]
  rw [hdifferential]
  simp only [bind_eq_ok, lift_eq_ok, modify_apply, pure_apply, ok_eq_ok]
  constructor
  · rintro ⟨_, c₁, htransport, entry, _, ⟨hentry, rfl⟩, _, _, ⟨-, rfl⟩, rfl, rfl⟩
    exact ⟨c₁, entry, htransport, hentry, rfl⟩
  · rintro ⟨c₁, entry, htransport, hentry, rfl⟩
    exact ⟨image, c₁, htransport, entry, c₁, ⟨hentry, rfl⟩, ⟨⟩, _, ⟨trivial, rfl⟩, rfl, rfl⟩

end Differential

section Factors

variable [Tolerances ℝ] {s : Sphere} {x y η ξ d image carried : Vec ℝ} {t : ℝ}

/-! ## Factors -/

theorem form_self_pos (hη : η.length = s.samples) (hne : ∃ t ∈ η, t ≠ 0) : 0 < s.form η η :=
  Vec.weightedSum_self_pos _ _ s.weight_pos hη.le hne

theorem scaling_of_length (hη : η.length = s.samples) (hξ : ξ.length = s.samples)
    (himage : image.length = s.samples) : s.scaling η ξ image = .ok {
      displacement := η
      factors := (√(s.form η η / s.form image image) / √(s.form η η / s.form ξ ξ), s.form η η,
        s.form image image * √(s.form η η / s.form ξ ξ) * √(s.form η η / s.form ξ ξ))
      transported := if s.config.keepTransported then
          some (Vec.scale image (√(s.form η η / s.form image image) / √(s.form η η / s.form ξ ξ) *
            √(s.form η η / s.form ξ ξ)))
        else none } := by
  rw [scaling, inner_of_length hη hη, inner_of_length hξ hξ, inner_of_length himage himage]
  rfl

/-- **The roots cancel where the length is kept.** -/
theorem scaling_of_isometric (hη : η.length = s.samples) (hξ : ξ.length = s.samples)
    (himage : image.length = s.samples) (hηpos : 0 < s.form η η) (hξpos : 0 < s.form ξ ξ)
    (hsame : s.form image image = s.form ξ ξ) : s.scaling η ξ image = .ok {
      displacement := η
      factors := (1, s.form η η, s.form η η)
      transported := if s.config.keepTransported then
          some (Vec.scale image (s.speed η / s.speed ξ))
        else none } := by
  have hratio : √(s.form η η / s.form ξ ξ) = s.speed η / s.speed ξ := Real.sqrt_div hηpos.le _
  have hfirst : √(s.form η η / s.form ξ ξ) / √(s.form η η / s.form ξ ξ) = 1 :=
    div_self (Real.sqrt_pos.2 (div_pos hηpos hξpos)).ne'
  have hthird : s.form ξ ξ * √(s.form η η / s.form ξ ξ) * √(s.form η η / s.form ξ ξ) =
      s.form η η := by
    rw [mul_assoc, Real.mul_self_sqrt (div_pos hηpos hξpos).le]
    field_simp
  rw [scaling_of_length hη hξ himage, hsame, hfirst, hthird, one_mul, hratio]

theorem eq_scale_of_combines (hmultiple : ξ = Vec.scale η t)
    (himage : Vec.Combines 1 ξ (-(2 * s.form ξ y)) d image)
    (hcarried : Vec.Combines 1 η (-(2 * s.form η y)) d carried) :
    image = Vec.scale carried t := by
  subst hmultiple
  refine Vec.ext_getD ?_ fun i => ?_
  · rw [Vec.length_scale, himage.length_left, hcarried.length_left, Vec.length_scale]
  · rw [himage.entry, Vec.getD_scale, Vec.getD_scale, hcarried.entry, form_scale]
    ring

/-! ## The entry that is kept -/

/-- The entry holds the scale factors of the displacement `η`, for a vector `ξ` that was carried to
`image`: one and twice the square of `η`. Only where it is asked for it also holds `image` scaled to
the length of `η`, which for a positive multiple of `η` is what `η` is carried to. -/
structure Scales (s : Sphere) (x η y ξ image : Vec ℝ) (entry : KnownScaling ℝ) : Prop where
  displacement_eq : entry.displacement = η
  factors_eq : ∃ square, s.manifold.inner x η η = .ok square ∧ entry.factors = (1, square, square)
  transported_eq_none : s.config.keepTransported = false → entry.transported = none
  transported_eq_some : s.config.keepTransported = true → ∃ a b moved,
    s.manifold.norm x η = .ok a ∧ s.manifold.norm x ξ = .ok b ∧
    entry.transported = some moved ∧ moved = Vec.scale image (a / b) ∧
    s.manifold.norm y moved = .ok a ∧
    ∀ t, 0 < t → ξ = Vec.scale η t → Answers (s.manifold.transport x η y η) moved

/-- What a transport does to tangent vectors decides the entry. -/
theorem scales_of_reflects (hd : s.reflection x y = .ok d) (hreflects : s.Reflects x y d)
    (hη : η.length = s.samples) (hξ : s.Tangent x ξ) (hηpos : 0 < s.form η η)
    (hξpos : 0 < s.form ξ ξ) (himage : Vec.Combines 1 ξ (-(2 * s.form ξ y)) d image) :
    ∃ entry, s.scaling η ξ image = .ok entry ∧ s.Scales x η y ξ image entry := by
  have hlength : image.length = s.samples := himage.length_left.trans hξ.length_eq
  have hsame := hreflects.form_eq_form hξ hξ himage himage
  have hspeed : 0 < s.speed η := Real.sqrt_pos.2 hηpos
  have hspeed' : 0 < s.speed ξ := Real.sqrt_pos.2 hξpos
  refine ⟨_, scaling_of_isometric hη hξ.length_eq hlength hηpos hξpos hsame, ?_⟩
  constructor
  case displacement_eq => rfl
  case factors_eq => exact ⟨_, inner_of_length hη hη, rfl⟩
  case transported_eq_none =>
    intro hno
    simp [hno]
  case transported_eq_some =>
    intro hyes
    refine ⟨_, _, _, norm_of_length x hη, norm_of_length x hξ.length_eq, if_pos hyes, rfl, ?_, ?_⟩
    · have hmoved : s.speed (Vec.scale image (s.speed η / s.speed ξ)) = s.speed η := by
        have hkept : s.speed image = s.speed ξ := congrArg Real.sqrt hsame
        rw [speed_scale, hkept, abs_of_pos (div_pos hspeed hspeed'), div_mul_cancel₀ _ hspeed'.ne']
      rw [norm_of_length y ((Vec.length_scale _ _).trans hlength), hmoved]
    · intro t ht hmultiple
      obtain ⟨carried, hanswer, hcarried⟩ := answers_transport hd hreflects hη
      have hratio : s.speed η / s.speed ξ = t⁻¹ := by
        rw [hmultiple, speed_scale, abs_of_pos ht]
        field_simp
      have hmoved : Vec.scale image (s.speed η / s.speed ξ) = carried := by
        rw [hratio, eq_scale_of_combines hmultiple himage hcarried]
        refine Vec.ext_getD ?_ fun i => ?_
        · rw [Vec.length_scale, Vec.length_scale]
        · rw [Vec.getD_scale, Vec.getD_scale, inv_mul_cancel_left₀ ht.ne']
      rw [hmoved]
      exact hanswer

theorem scalingFor?_keepScaling (c : Cache ℝ) (entry : KnownScaling ℝ) :
    (c.keepScaling entry).scalingFor? entry.displacement = some entry := by
  simp [Cache.scalingFor?, Cache.keepScaling]

/-- **A differentiated retraction keeps the scale factors of its displacement.** -/
theorem differential_keeps_scaling {c : Cache ℝ} (hc : c.Faithful)
    (hkeep : (s.config.keepTransported || s.config.keepFactors) = true)
    (hη : η.length = s.samples) (hη₀ : ∃ t ∈ η, t ≠ 0) (hξ : s.Tangent x ξ)
    (hξ₀ : ∃ t ∈ ξ, t ≠ 0) :
    (s.Apart x y → ∃ image c', s.manifold.differential x η y ξ true c = (.ok image, c')) ∧
    ∀ image c', s.manifold.differential x η y ξ true c = (.ok image, c') →
      ∃ entry, c'.scalingFor? η = some entry ∧ s.Scales x η y ξ image entry ∧
        (s.manifold.transport x η y ξ c).1 = .ok image ∧
        c' = (s.manifold.transport x η y ξ c).2.keepScaling entry := by
  have hηpos := form_self_pos hη hη₀
  have hξpos := form_self_pos hξ.length_eq hξ₀
  refine ⟨fun hxy => ?_, fun image c' h => ?_⟩
  · obtain ⟨d, hd, hreflects⟩ := hxy.reflects
    obtain ⟨image, hanswer, himage⟩ := answers_transport hd hreflects hξ.length_eq
    obtain ⟨entry, hentry, -⟩ := scales_of_reflects hd hreflects hη hξ hηpos hξpos himage
    exact ⟨image, _, (differential_eq_ok hkeep).2
      ⟨_, entry, Prod.ext (hanswer c hc).1 rfl, hentry, rfl⟩⟩
  · obtain ⟨c₁, entry, htransport, hentry, rfl⟩ := (differential_eq_ok hkeep).1 h
    obtain ⟨_, _, hreflection, -, -⟩ := transport_eq_ok hc htransport
    obtain ⟨d, hd, hreflects⟩ := (apart_of_reflection hreflection).reflects
    obtain ⟨carried, hanswer, hcarried⟩ := answers_transport hd hreflects hξ.length_eq
    obtain ⟨entry', hentry', hscales⟩ :=
      scales_of_reflects hd hreflects hη hξ hηpos hξpos hcarried
    -- the cache answers what is carried by the reflection of the two points
    have himage : carried = image := by
      have heq := (hanswer c hc).1.symm.trans (congrArg Prod.fst htransport)
      exact Except.ok.inj heq
    subst himage
    obtain rfl := Except.ok.inj (hentry.symm.trans hentry')
    have hfound := scalingFor?_keepScaling c₁ entry
    rw [hscales.displacement_eq] at hfound
    rw [htransport]
    exact ⟨entry, hfound, hscales, rfl, rfl⟩

end Factors

/-- The factors of a displacement of length three, along which a vector of length two is carried. -/
theorem differential_keeps_scaling_segment :
    ∃ image c' entry moved,
      segmentKeeping.manifold.differential [1, 1] [3, -3] [1, -1] ([2, -2] : Vec ℝ) true {} =
        (.ok image, c') ∧
      c'.scalingFor? [3, -3] = some entry ∧ entry.factors = (1, 9, 9) ∧
      entry.transported = some moved ∧ segmentKeeping.manifold.norm [1, -1] moved = .ok 3 ∧
      Answers (segmentKeeping.manifold.transport [1, 1] [3, -3] [1, -1] [3, -3]) moved := by
  have hform (a b a' b' : ℝ) : segmentKeeping.form [a, b] [a', b'] = (a * a' + b * b') / 2 :=
    form_segment a b a' b'
  have hξ : segmentKeeping.Tangent ([1, 1] : Vec ℝ) [2, -2] :=
    inner_eq_ok.2 ⟨rfl, rfl, by norm_num [hform]⟩
  have hxy : segmentKeeping.Apart ([1, 1] : Vec ℝ) [1, -1] := by
    refine ⟨[2, 0], 2, ?_, inner_eq_ok.2 ⟨rfl, rfl, by norm_num [hform]⟩, ?_⟩
    · norm_num [Vec.add, Vec.combine]
    · exact Tolerances.epsilon_lt_one.trans one_lt_two
  obtain ⟨hsucceeds, hkeeps⟩ := differential_keeps_scaling (s := segmentKeeping) (c := {})
    (x := [1, 1]) (y := [1, -1]) (η := [3, -3]) (ξ := [2, -2]) Cache.faithful_empty rfl rfl
    ⟨3, by simp, by norm_num⟩ hξ ⟨2, by simp, by norm_num⟩
  obtain ⟨image, c', h⟩ := hsucceeds hxy
  obtain ⟨entry, hfound, hscales, -, -⟩ := hkeeps image c' h
  obtain ⟨square, hsquare, hfactors⟩ := hscales.factors_eq
  obtain ⟨a, b, moved, ha, -, hmoved, -, hnorm, hcarried⟩ := hscales.transported_eq_some rfl
  have hnine : square = 9 := by
    rw [← (inner_eq_ok.1 hsquare).2.2, hform]
    norm_num
  have hthree : a = 3 := by
    rw [norm_of_length _ rfl, Except.ok.injEq] at ha
    rw [← ha, speed, hform, Real.sqrt_eq_iff_mul_self_eq] <;> norm_num
  rw [hnine] at hfactors
  rw [hthree] at hnorm
  refine ⟨image, c', entry, moved, h, hfound, hfactors, hmoved, hnorm, ?_⟩
  exact hcarried (2 / 3) (by norm_num) (by norm_num [Vec.scale])

end GeodesicDescent.Sphere
