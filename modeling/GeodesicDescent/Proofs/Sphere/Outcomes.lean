import GeodesicDescent.Proofs.Sphere.Shapes

/-!
# What an operation does to the cache

The operations of a sphere that use the reflection of two points check their arguments, ask for the
reflection, and compute with its direction. What they can do is the same for all of them: they are
refused before the cache is written, they answer with the kept direction, or they keep a direction
they have just computed and succeed.

* `Sphere.admits`: the checks and the reflection;
* **`Sphere.Outcome`**: how such an operation ends, and what it does to the cache;
* **`Sphere.outcome_reflected`**: that there is nothing else it can do;
* `outcome_transport`, `outcome_inverseTransport`, `outcome_operatorInverseTransport`,
  `outcome_operatorTransport`: the operations.
-/

namespace GeodesicDescent.Sphere

open Stateful Checked

variable {K α : Type} [Scalar K] {s : Sphere} {x y : Vec K} {check : Checked Unit}
variable {Q : α → Prop} {c c' : Cache K}

/-- A direction that answers is the one that is kept, for points that compare as equal. -/
theorem exists_of_reflectionFor? {d : Vec K} (h : c.reflectionFor? x y = some d) :
    ∃ e, c.reflection = some e ∧ (e.source == x) = true ∧ e.direction = d := by
  unfold Cache.reflectionFor? at h
  split at h
  · next e he =>
    rw [Option.ite_none_right_eq_some, Bool.and_eq_true] at h
    exact ⟨e, he, h.1.1, Option.some.inj h.2⟩
  · cases h

/-- The checks of an operation that uses the reflection of two points, and the reflection. -/
def admits (s : Sphere) (x y : Vec K) (check : Checked Unit) : Checked (Vec K) := do
  s.requireLength x
  s.requireLength y
  check
  s.reflection x y

theorem admits_eq_ok {d : Vec K} : s.admits x y check = .ok d ↔
    x.length = s.samples ∧ y.length = s.samples ∧ check = .ok () ∧
      s.reflection x y = .ok d := by
  simp only [admits, checked_bind_eq_ok, requireLength_eq_ok]
  constructor
  · rintro ⟨-, hx, -, hy, ⟨⟩, hcheck, hd⟩
    exact ⟨hx, hy, hcheck, hd⟩
  · rintro ⟨hx, hy, hcheck, hd⟩
    exact ⟨(), hx, (), hy, (), hcheck, hd⟩

/-- How an operation ends that uses the reflection of two points, and what it leaves of the cache
`c`. -/
inductive Outcome (s : Sphere) (x y : Vec K) (check : Checked Unit) (Q : α → Prop) (c : Cache K) :
    Checked α → Cache K → Prop
  /-- A check is refused, or the reflection is. -/
  | refused {e} (gate : s.admits x y check = .error (.refused e)) :
      Outcome s x y check Q c (.error (.refused e)) c
  /-- The kept direction answers, with a value if it has one entry per sample. -/
  | reused {d r} (hit : c.reflectionFor? x y = some d) (length_eq : x.length = s.samples)
      (fits : d.length = s.samples → ∃ a, r = .ok a ∧ Q a) :
      Outcome s x y check Q c r { c with reuses := c.reuses + 1 }
  /-- The computed direction is kept, and there is a value. -/
  | computed {d a} (miss : c.reflectionFor? x y = none) (gate : s.admits x y check = .ok d)
      (value : Q a) : Outcome s x y check Q c (.ok a) { c with
        reflection := some ⟨x, y, d⟩
        computations := c.computations + 1 }

/-- **An operation that checks its points and something else, and then computes with their
reflection alone**, ends in one of the three ways. -/
theorem outcome_reflected (hcheck : check.Orderly) {f : Vec K → Cached K α} {r : Checked α}
    (hf : x.length = s.samples → y.length = s.samples → check = .ok () → ∀ d, ∃ r : Checked α,
      (∀ c, f d c = (r, c)) ∧ (d.length = s.samples → ∃ a, r = .ok a ∧ Q a))
    (h : (do
      s.requireLength x
      s.requireLength y
      check
      let d ← s.cachedReflection x y
      f d : Cached K α) c = (r, c')) : s.Outcome x y check Q c r c' := by
  simp only [bind_apply, lift_apply] at h
  rcases hx : s.requireLength x with e | ⟨⟩
  · obtain ⟨e, rfl⟩ := (orderly_requireLength x).exists_refused hx
    rw [hx] at h
    cases h
    exact .refused (by rw [admits, hx]; rfl)
  rcases hy : s.requireLength y with e | ⟨⟩
  · obtain ⟨e, rfl⟩ := (orderly_requireLength y).exists_refused hy
    rw [hx, hy] at h
    cases h
    exact .refused (by rw [admits, hx, hy]; rfl)
  rcases hc : check with e | ⟨⟩
  · obtain ⟨e, rfl⟩ := hcheck.exists_refused hc
    rw [hx, hy, hc] at h
    cases h
    exact .refused (by rw [admits, hx, hy]; rfl)
  have hx' : x.length = s.samples := requireLength_eq_ok.1 hx
  have hy' : y.length = s.samples := requireLength_eq_ok.1 hy
  have hadmits : s.admits x y (.ok ()) = s.reflection x y := by
    rw [admits, hx, hy]
    rfl
  have hrest := hf hx' hy' hc
  rw [hx, hy, hc] at h
  dsimp only at h
  cases hd : c.reflectionFor? x y with
  | some d =>
    obtain ⟨r, hr, hfits⟩ := hrest d
    rw [cachedReflection, Cached.reflection_of_some hd] at h
    cases (hr _).symm.trans h
    exact .reused hd hx' hfits
  | none =>
    rcases hreflection : s.reflection x y with e | d
    · obtain ⟨e, rfl⟩ := (orderly_reflection hx' hy').exists_refused hreflection
      rw [cachedReflection, Cached.reflection_of_error hd hreflection] at h
      cases h
      exact .refused (hadmits.trans hreflection)
    · obtain ⟨r, hr, hfits⟩ := hrest d
      obtain ⟨a, rfl, ha⟩ := hfits (length_of_reflection hreflection)
      rw [cachedReflection, Cached.reflection_of_ok hd hreflection] at h
      cases (hr _).symm.trans h
      exact .computed hd (hadmits.trans hreflection) ha

/-! ## Transport -/

theorem subtract_of_length {u v : Vec K} (hu : u.length = s.samples) (hv : v.length = s.samples)
    (d : Vec K) : ∃ r : Checked (Vec K),
      (∀ c, (do
        let coefficient := (← s.inner u v) * 2.0
        Vec.sub u (Vec.scale d coefficient) : Cached K (Vec K)) c = (r, c)) ∧
      (d.length = s.samples → ∃ a, r = .ok a ∧ a.length = s.samples) := by
  obtain ⟨t, ht⟩ := exists_inner hu hv
  refine ⟨Vec.sub u (Vec.scale d (t * 2.0)), fun c => ?_, fun hd => ?_⟩
  · rw [bind_apply, lift_apply, ht]
    rfl
  · obtain ⟨w, hw, hlength⟩ := Vec.exists_combine (f := (· - ·)) (u := u)
      (v := Vec.scale d (t * 2.0)) (by rw [Vec.length_scale, hu, hd])
    exact ⟨w, hw, hlength.trans hu⟩

variable {ξ : Vec K} {r : Checked (Vec K)}

theorem outcome_transport (h : s.transport x y ξ c = (r, c')) :
    s.Outcome x y (s.requireLength ξ) (fun image => image.length = s.samples) c r c' :=
  outcome_reflected (orderly_requireLength ξ)
    (fun _ hy hξ d => subtract_of_length (requireLength_eq_ok.1 hξ) hy d) h

theorem outcome_inverseTransport (h : s.inverseTransport x y ξ c = (r, c')) :
    s.Outcome x y (s.requireLength ξ) (fun image => image.length = s.samples) c r c' :=
  outcome_reflected (orderly_requireLength ξ)
    (fun hx _ hξ d => subtract_of_length (requireLength_eq_ok.1 hξ) hx d) h

/-! ## Operators -/

/-- An operator of the same shape. -/
def SameShape (h h' : Matrix K) : Prop := h'.rows = h.rows ∧ h'.width = h.width

variable {h : Matrix K} {start stop : Nat} {q : Checked (Matrix K)}

theorem outcome_operatorInverseTransport
    (hends : s.operatorInverseTransport x y h start stop c = (q, c')) :
    s.Outcome x y (s.requireBlock h start stop h.width) (SameShape h) c q c' := by
  refine outcome_reflected (orderly_requireBlock h start stop h.width) ?_ hends
  intro hx _ hcheck d
  obtain ⟨hstart, hstop, hlength⟩ := requireBlock_eq_ok hcheck
  obtain ⟨xFlat, hflat, hxFlat⟩ := exists_flat hx
  obtain ⟨part, hpart, hrows, hwidth⟩ : ∃ part, h.block ⟨0, h.rows, start, stop - start⟩ =
      .ok part ∧ part.rows = h.rows ∧ part.width = stop - start :=
    Matrix.exists_block ⟨(Nat.zero_add _).le, (Nat.add_sub_cancel' hstart).le.trans hstop⟩
  refine ⟨do
    let image ← Checked.ofExcept (Matrix.accumulate false 1 part d 0 (Vec.zeros h.rows))
    Checked.ofExcept (Matrix.rankOne (-2.0) image xFlat h ⟨0, h.rows, start, stop - start⟩),
    fun c => ?_, fun hd => ?_⟩
  · simp only [bind_apply, lift_apply, hflat, hpart]
    rcases Matrix.accumulate false 1 part d 0 (Vec.zeros h.rows) with e | image <;> rfl
  · obtain ⟨image, himage, hlength'⟩ := Matrix.exists_accumulate (A := part) 1 0
      (hd.trans (hlength.symm.trans hwidth.symm))
    obtain ⟨h', hupdate, hshape⟩ := Matrix.exists_rankOne (-2.0) (A := h)
      (b := ⟨0, h.rows, start, stop - start⟩) (hrows.symm.trans hlength'.symm)
      (hlength.trans hxFlat.symm)
    refine ⟨h', ?_, hshape⟩
    rw [← hrows, himage, hrows]
    exact congrArg Checked.ofExcept hupdate

theorem outcome_operatorTransport
    (hends : s.operatorTransport x y h start stop c = (q, c')) :
    s.Outcome x y (s.requireBlock h start stop h.rows) (SameShape h) c q c' := by
  refine outcome_reflected (orderly_requireBlock h start stop h.rows) ?_ hends
  intro _ hy hcheck d
  obtain ⟨hstart, hstop, hlength⟩ := requireBlock_eq_ok hcheck
  obtain ⟨yFlat, hflat, hyFlat⟩ := exists_flat hy
  obtain ⟨part, hpart, hrows, hwidth⟩ : ∃ part, h.block ⟨start, stop - start, 0, h.width⟩ =
      .ok part ∧ part.rows = stop - start ∧ part.width = h.width :=
    Matrix.exists_block ⟨(Nat.add_sub_cancel' hstart).le.trans hstop, (Nat.zero_add _).le⟩
  obtain ⟨image, himage, hlength'⟩ := Matrix.exists_accumulate_transposed (A := part) 1 0
    (hyFlat.trans (hlength.symm.trans hrows.symm))
  rw [hwidth] at himage hlength'
  refine ⟨Checked.ofExcept (Matrix.rankOne (-2.0) d image h ⟨start, stop - start, 0, h.width⟩),
    fun c => ?_, fun hd => ?_⟩
  · simp only [bind_apply, lift_apply, hflat, hpart, himage]
    rfl
  · obtain ⟨h', hupdate, hshape⟩ := Matrix.exists_rankOne (-2.0) (A := h)
      (b := ⟨start, stop - start, 0, h.width⟩) (hlength.trans hd.symm) hlength'.symm
    exact ⟨h', congrArg Checked.ofExcept hupdate, hshape⟩

end GeodesicDescent.Sphere
