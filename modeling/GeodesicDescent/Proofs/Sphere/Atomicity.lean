import GeodesicDescent.Proofs.Sphere.Outcomes

/-!
# What a failed call leaves in the cache

A call that fails leaves every slot of the cache as it was, unless it writes a slot before its last
check. Three calls can do that: a derivative of the retraction whose displacement is checked after
the vector was carried, an operator that is wide enough for the first of two updates and not high
enough for the second, and a gradient that is kept before it is projected.

* `Cache.SameSlots`: two caches with the same slots, whatever their tallies;
* `Call.Hasty`: the calls that write a slot before their last check, which fails;
* **`perform_atomic`**: every other call that fails leaves the slots as they were;
* `perform_hasty`: a hasty one fails and has written a slot;
* `perform_overwrites`: one that has overwritten the gradient.
-/

namespace GeodesicDescent

open Stateful

variable {K : Type}

/-- Two caches have the same slots. -/
structure Cache.SameSlots (c c' : Cache K) : Prop where
  reflection_eq : c'.reflection = c.reflection
  gradient_eq : c'.gradient = c.gradient
  scaling_eq : c'.scaling = c.scaling

theorem Cache.SameSlots.refl (c : Cache K) : c.SameSlots c := ⟨rfl, rfl, rfl⟩

theorem Cache.sameSlots_reuses (c : Cache K) (n : Nat) : c.SameSlots { c with reuses := n } :=
  ⟨rfl, rfl, rfl⟩

theorem Cache.SameSlots.trans {c c' c'' : Cache K} (h : c.SameSlots c') (h' : c'.SameSlots c'') :
    c.SameSlots c'' where
  reflection_eq := h'.reflection_eq.trans h.reflection_eq
  gradient_eq := h'.gradient_eq.trans h.gradient_eq
  scaling_eq := h'.scaling_eq.trans h.scaling_eq

variable [Scalar K]

/-- The call writes a slot of the cache before its last check, which fails: a reflection that was
computed for it, or a gradient. -/
def Call.Hasty (c : Cache K) : Call K → Prop
  | differential s x η y ξ same =>
    same = true ∧ (s.config.keepTransported || s.config.keepFactors) = true ∧
      c.reflectionFor? x y = none ∧ (∃ d, s.admits x y (s.requireLength ξ) = .ok d) ∧
      η.length ≠ s.samples
  | conjugateOperator s x _ y h =>
    c.reflectionFor? x y = none ∧
      (∃ d, s.admits x y (s.requireBlock h 0 s.samples h.width) = .ok d) ∧ h.rows < s.samples
  | convertGradient s x gradient usage =>
    usage.hessian = true ∧ ¬ (x.length = s.samples ∧ gradient.length = s.samples)
  | _ => False

namespace Sphere

variable {s : Sphere} {x y : Vec K} {α : Type} {check : Checked Unit} {Q : α → Prop}
variable {c c' : Cache K} {e : Fault GeometryError}

theorem Outcome.sameSlots (h : s.Outcome x y check Q c (.error e) c') : c.SameSlots c' := by
  cases h with
  | refused => exact .refl c
  | reused => exact c.sameSlots_reuses _

theorem Outcome.computes {d : Vec K} {r : Checked α} (miss : c.reflectionFor? x y = none)
    (gate : s.admits x y check = .ok d) (h : s.Outcome x y check Q c r c') :
    (∃ a, r = .ok a ∧ Q a) ∧ c'.computations = c.computations + 1 := by
  cases h with
  | refused gate' => cases gate.symm.trans gate'
  | reused hit => cases miss.symm.trans hit
  | computed _ _ value => exact ⟨⟨_, rfl, value⟩, rfl⟩

theorem sameSlots_of_differential {η ξ : Vec K} {same : Bool}
    (hcareful : ¬ (Call.differential s x η y ξ same).Hasty c)
    (h : s.differential x η y ξ same c = (.error e, c')) : c.SameSlots c' := by
  cases same with
  | false =>
    cases h
    exact .refl c
  | true =>
    obtain htransport | ⟨image, c₁, htransport, h⟩ := bind_eq_error.1 h
    · exact (outcome_transport htransport).sameSlots
    split_ifs at h with hkeep
    · -- only the scale factors can be refused, before they are kept
      obtain hlift | ⟨_, _, -, h⟩ := bind_eq_error.1 h
      · obtain ⟨hscaling, rfl⟩ := lift_eq_error.1 hlift
        cases outcome_transport htransport with
        | reused => exact c.sameSlots_reuses _
        | computed miss gate himage =>
          obtain ⟨-, -, hξ, -⟩ := admits_eq_ok.1 gate
          refine absurd ⟨rfl, hkeep, miss, ⟨_, gate⟩, fun hη => ?_⟩ hcareful
          obtain ⟨entry, hentry⟩ := exists_scaling hη (requireLength_eq_ok.1 hξ) himage
          cases hscaling.symm.trans hentry
      · cases h
    · cases h

theorem sameSlots_of_conjugateOperator {η : Vec K} {h : Matrix K}
    (hcareful : ¬ (Call.conjugateOperator s x η y h).Hasty c)
    (hfails : s.manifold.conjugateOperator x η y h c = (.error e, c')) : c.SameSlots c' := by
  obtain hleft | ⟨right, c₁, hleft, hright⟩ := bind_eq_error.1 hfails
  · exact (outcome_operatorInverseTransport hleft).sameSlots
  have outcome := outcome_operatorTransport hright
  cases outcome_operatorInverseTransport hleft with
  | reused => exact (c.sameSlots_reuses _).trans outcome.sameSlots
  | @computed d _ miss gate hshape =>
    -- the reflection is computed, so that only the number of rows is left to be refused
    obtain ⟨hx, hy, -, hd⟩ := admits_eq_ok.1 gate
    cases outcome with
    | refused gate' =>
      refine absurd ⟨miss, ⟨d, gate⟩, ?_⟩ hcareful
      by_contra hhigh
      rw [← hshape.1, not_lt] at hhigh
      cases gate'.symm.trans (admits_eq_ok.2 ⟨hx, hy, requireBlock_of_le hhigh, hd⟩)
    | reused hit _ fits =>
      obtain ⟨_, hkept, -, rfl⟩ := exists_of_reflectionFor? hit
      cases hkept
      obtain ⟨_, hvalue, -⟩ := fits (length_of_reflection hd)
      cases hvalue

theorem sameSlots_of_convertGradient {gradient : Vec K} {usage : Usage}
    (hcareful : ¬ (Call.convertGradient s x gradient usage).Hasty c)
    (h : s.manifold.convertGradient x gradient usage c = (.error e, c')) : c.SameSlots c' := by
  rw [convertGradient_apply] at h
  by_cases hhessian : usage.hessian = true
  · obtain ⟨hx, hgradient⟩ := not_not.1 fun hnot => hcareful ⟨hhessian, hnot⟩
    obtain ⟨w, hw⟩ := projectTangent_of_length hx hgradient
    rw [hw] at h
    cases h
  · rw [if_neg hhessian] at h
    obtain ⟨-, rfl⟩ := Prod.mk.inj h
    exact .refl c

theorem scaling_of_length_ne {η : Vec K} (hη : η.length ≠ s.samples) (ξ image : Vec K) :
    ∃ e, s.scaling η ξ image = .error e := by
  obtain ⟨hη', -⟩ | ⟨e, he⟩ := inner_cases (s := s) η η
  · exact absurd hη' hη
  · exact ⟨_, by rw [scaling, he]; rfl⟩

theorem differential_hasty {η ξ : Vec K} {same : Bool}
    (hasty : (Call.differential s x η y ξ same).Hasty c) : ∃ e c',
      s.differential x η y ξ same c = (.error e, c') ∧ c'.computations = c.computations + 1 := by
  obtain ⟨rfl, hkeep, miss, ⟨d, gate⟩, hη⟩ := hasty
  rcases htransport : s.transport x y ξ c with ⟨r, c₁⟩
  obtain ⟨⟨image, rfl, -⟩, hcount⟩ := (outcome_transport htransport).computes miss gate
  obtain ⟨e, he⟩ := scaling_of_length_ne hη ξ image
  refine ⟨e, c₁, bind_eq_error.2 (.inr ⟨image, c₁, htransport, ?_⟩), hcount⟩
  rw [if_pos hkeep]
  exact bind_eq_error.2 (.inl (lift_eq_error.2 ⟨he, rfl⟩))

theorem conjugateOperator_hasty {η : Vec K} {h : Matrix K}
    (hasty : (Call.conjugateOperator s x η y h).Hasty c) : ∃ e c',
      s.manifold.conjugateOperator x η y h c = (.error e, c') ∧
        c'.computations = c.computations + 1 := by
  obtain ⟨miss, ⟨d, gate⟩, hrows⟩ := hasty
  rcases hright : s.operatorInverseTransport x y h 0 s.samples c with ⟨r, c₁⟩
  obtain ⟨⟨right, rfl, hshape⟩, hcount⟩ :=
    (outcome_operatorInverseTransport hright).computes miss gate
  obtain ⟨hx, hy, -, -⟩ := admits_eq_ok.1 gate
  -- the rows are counted before the cache is looked at
  obtain ⟨e, he⟩ : ∃ e, s.requireBlock right 0 s.samples right.rows = .error e :=
    ⟨_, if_pos (.inr (hshape.1 ▸ hrows))⟩
  refine ⟨e, c₁, bind_eq_error.2 (.inr ⟨right, c₁, hright, ?_⟩), hcount⟩
  show s.operatorTransport x y right 0 s.samples c₁ = _
  rw [operatorTransport, requireLength_eq_ok (r := ()) |>.2 hx,
    requireLength_eq_ok (r := ()) |>.2 hy, he]
  rfl

theorem convertGradient_hasty {gradient : Vec K} {usage : Usage}
    (hasty : (Call.convertGradient s x gradient usage).Hasty c) : ∃ e,
      s.manifold.convertGradient x gradient usage c = (.error e, c.keepGradient x gradient) := by
  obtain ⟨hhessian, hlength⟩ := hasty
  obtain ⟨e, he⟩ : ∃ e, s.projectTangent x gradient = .error e := by
    rw [projectTangent, requireLength, requireLength]
    split_ifs with hx hgradient
    · exact absurd ⟨hx, hgradient⟩ hlength
    · exact ⟨_, rfl⟩
    · exact ⟨_, rfl⟩
    · exact ⟨_, rfl⟩
  exact ⟨e, by rw [convertGradient_apply, he, if_pos hhessian]⟩

end Sphere

/-- **A call that fails leaves the slots of the cache as they were**, unless it is hasty. -/
theorem perform_atomic {c c' : Cache K} {call : Call K} {e : Fault GeometryError}
    (hcareful : ¬ call.Hasty c) (h : call.perform c = (.error e, c')) : c.SameSlots c' := by
  cases call with
  | transport s x η y ξ =>
    exact (Sphere.outcome_transport (bind_pure_eq_error.1 h)).sameSlots
  | inverseTransport s x η y ξ =>
    exact (Sphere.outcome_inverseTransport (bind_pure_eq_error.1 h)).sameSlots
  | differential s x η y ξ same =>
    exact Sphere.sameSlots_of_differential hcareful (bind_pure_eq_error.1 h)
  | operatorInverseTransport s x η y h' start stop =>
    exact (Sphere.outcome_operatorInverseTransport (bind_pure_eq_error.1 h)).sameSlots
  | operatorTransport s x η y h' start stop =>
    exact (Sphere.outcome_operatorTransport (bind_pure_eq_error.1 h)).sameSlots
  | conjugateOperator s x η y h' =>
    exact Sphere.sameSlots_of_conjugateOperator hcareful (bind_pure_eq_error.1 h)
  | convertGradient s x gradient usage =>
    exact Sphere.sameSlots_of_convertGradient hcareful (bind_pure_eq_error.1 h)
  | convertHessian s x η product =>
    exact (Sphere.keeps_convertHessian η product).of_eq (.refl c) (bind_pure_eq_error.1 h)
  | clear => cases h

/-- **A hasty call fails, and has written a slot**: it has computed and kept a reflection, or it has
kept the gradient. -/
theorem perform_hasty {c : Cache K} {call : Call K} (hasty : call.Hasty c) : ∃ e c',
    call.perform c = (.error e, c') ∧ (c'.computations = c.computations + 1 ∨
      ∃ x gradient, c' = c.keepGradient x gradient) := by
  cases call with
  | differential s x η y ξ same =>
    obtain ⟨e, c', h, hcount⟩ := Sphere.differential_hasty hasty
    exact ⟨e, c', bind_pure_eq_error.2 h, .inl hcount⟩
  | conjugateOperator s x η y h' =>
    obtain ⟨e, c', h, hcount⟩ := Sphere.conjugateOperator_hasty hasty
    exact ⟨e, c', bind_pure_eq_error.2 h, .inl hcount⟩
  | convertGradient s x gradient usage =>
    obtain ⟨e, h⟩ := Sphere.convertGradient_hasty hasty
    exact ⟨e, _, bind_pure_eq_error.2 h, .inr ⟨x, gradient, rfl⟩⟩
  | _ => exact hasty.elim

/-- A vector carried between opposite points. -/
def antipodalCall : Call ℚ := .transport .segment [1, 1] [] [-1, -1] [1, -1]

theorem perform_atomic_antipodal : ∃ e c',
    antipodalCall.perform (Call.performAll sharedCalls {}).2 = (.error e, c') ∧
      (Call.performAll sharedCalls {}).2.SameSlots c' := by
  obtain ⟨e, c', h, -⟩ := exists_of_faults
    (x := antipodalCall.perform (Call.performAll sharedCalls {}).2)
    (P := (· = .refused (.numerical "transport between antipodal points is undefined")))
    (by decide +kernel)
  exact ⟨e, c', h, perform_atomic id h⟩

/-- A cache that holds a gradient. -/
def gradientCache : Cache Float := ({} : Cache Float).keepGradient [1, 1] [1, -1]

/-- The conversion of a gradient that is too short, where second derivatives are made use of. -/
def shortGradientCall : Call Float :=
  .convertGradient .segment [1, 1] [1] { gradient := true, hessian := true }

/-- **A call that is refused has overwritten the gradient** that was kept for the same point. -/
theorem perform_overwrites : ∃ e c', shortGradientCall.perform gradientCache = (.error e, c') ∧
    ¬ gradientCache.SameSlots c' := by
  refine ⟨.refused (.lengths 2 1), gradientCache.keepGradient [1, 1] [1], rfl, fun h => ?_⟩
  cases h.gradient_eq

end GeodesicDescent
