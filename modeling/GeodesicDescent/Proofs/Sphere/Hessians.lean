import GeodesicDescent.Proofs.Sphere.Outcomes

/-!
# The gradient that a Hessian is converted with

A Hessian is converted with the ambient gradient that was kept last, provided that it was kept for
the same point. Of all the calls that spheres make on one cache only two kinds matter: conversions
that keep a gradient, and the clearing of the cache.

* `Sphere.hessianWith`: the Hessian on the sphere, given the ambient gradient;
* `Call.writesGradient`: the calls that write the kept gradient;
* `Call.Stores`, `Call.LatestGradient`: a call that keeps a gradient for a point, and the gradient
  that was kept last;
* `gradient_perform`, **`gradient_performAll`**: what one call leaves of the kept gradient, and
  that after any calls it is the latest;
* **`convertHessian_latest`**: which Hessians are converted, and with which gradient.
-/

namespace GeodesicDescent

open Stateful Checked

variable {K α : Type} [Scalar K]

/-! ## One conversion -/

namespace Sphere

/-- The Hessian on the sphere applied to `η`, given the ambient gradient at `x`. -/
def hessianWith (s : Sphere) (gradient x η product : Vec K) : Checked (Vec K) := do
  let cubes := x.map fun t => t * t * t
  let cubesSquared ← s.inner cubes cubes
  let along ← s.inner gradient cubes
  let squares ← Vec.hadamard x x
  let scaled ← Vec.hadamard squares η
  let corrected ← Vec.sub product (Vec.scale scaled (3.0 * along / cubesSquared))
  s.projectTangent x corrected

/-- The refusal where no gradient is kept for the point. -/
def gradientMissing : GeometryError :=
  .preconditionViolated "the Euclidean gradient at this point must be converted before its Hessian"

variable {s : Sphere} {x y η product gradient : Vec K} {c c' : Cache K}

theorem convertHessian_of_some (hη : η.length = s.samples) (hproduct : product.length = s.samples)
    (h : c.gradientFor? x = some gradient) :
    s.convertHessian x η product c = (s.hessianWith gradient x η product, c) := by
  rw [← requireLength_eq_ok (r := ())] at hη hproduct
  rw [convertHessian, hη, hproduct, bind_apply, lift_apply]
  dsimp only
  rw [bind_apply, lift_apply]
  dsimp only
  rw [get_bind_apply, h]
  refine lift_bind_apply fun _ => lift_bind_apply fun _ => ?_
  refine lift_bind_apply fun _ => lift_bind_apply fun _ => lift_bind_apply fun _ => ?_
  rfl

theorem convertHessian_of_none (hη : η.length = s.samples) (hproduct : product.length = s.samples)
    (h : c.gradientFor? x = none) :
    s.convertHessian x η product c = (GeodesicDescent.refuse gradientMissing, c) := by
  rw [← requireLength_eq_ok (r := ())] at hη hproduct
  simp only [convertHessian, bind_apply, lift_apply, get_apply, hη, hproduct, h]
  rfl

theorem gradientFor?_eq_some [LawfulBEq K] :
    c.gradientFor? x = some gradient ↔ c.gradient = some ⟨x, gradient⟩ := by
  unfold Cache.gradientFor?
  split
  · next e he =>
    simp only [he, Option.ite_none_right_eq_some, Option.some.injEq, beq_iff_eq]
    constructor
    · rintro ⟨rfl, rfl⟩
      rfl
    · rintro rfl
      exact ⟨rfl, rfl⟩
  · next he => simp [he]

theorem exists_hessianWith (hgradient : gradient.length = s.samples) (hx : x.length = s.samples)
    (hη : η.length = s.samples) (hproduct : product.length = s.samples) :
    ∃ v, s.hessianWith gradient x η product = .ok v := by
  have hcubes : (x.map fun t => t * t * t).length = s.samples := (List.length_map _).trans hx
  obtain ⟨cubesSquared, hsquared⟩ := exists_inner hcubes hcubes
  obtain ⟨along, halong⟩ := exists_inner hgradient hcubes
  obtain ⟨squares, hsquares, hlength⟩ := Vec.exists_combine (f := (· * ·)) (Eq.refl x.length)
  obtain ⟨scaled, hscaled, hlength'⟩ := Vec.exists_combine (f := (· * ·))
    (hlength.trans (hx.trans hη.symm))
  have hscaledLength : scaled.length = s.samples := hlength'.trans (hlength.trans hx)
  obtain ⟨corrected, hcorrected, hcorrectedLength⟩ := Vec.exists_combine (f := (· - ·))
    (u := product) (v := Vec.scale scaled (3.0 * along / cubesSquared))
    (by rw [Vec.length_scale, hscaledLength, hproduct])
  obtain ⟨v, hv⟩ := projectTangent_of_length hx (hcorrectedLength.trans hproduct)
  refine ⟨v, ?_⟩
  simp only [hessianWith, checked_bind_eq_ok]
  exact ⟨cubesSquared, hsquared, along, halong, squares, hsquares, scaled, hscaled, corrected,
    hcorrected, hv⟩

/-! ## The kept gradient -/

variable {check : Checked Unit} {Q : α → Prop} {r : Checked α}

theorem Outcome.gradient_eq (h : s.Outcome x y check Q c r c') : c'.gradient = c.gradient := by
  cases h <;> rfl

/-- The computation leaves the kept gradient as it is. -/
abbrev KeepsGradient (m : Cached K α) : Prop :=
  ∀ kept : Option (KnownGradient K), Keeps (·.gradient = kept) m

theorem keepsGradient_of_outcome {m : Cached K α}
    (h : ∀ {c r c'}, m c = (r, c') → s.Outcome x y check Q c r c') : KeepsGradient m :=
  fun _ _ hkept => (h rfl).gradient_eq.trans hkept

theorem keepsGradient_differential (x η y ξ : Vec K) (same : Bool) :
    KeepsGradient (s.differential x η y ξ same) := by
  intro kept
  unfold differential
  cases same with
  | false => exact keeps_throw _
  | true =>
    refine keeps_bind (keepsGradient_of_outcome outcome_transport kept) fun image => ?_
    refine keeps_ite (keeps_bind (keeps_lift _) fun entry => ?_) (keeps_pure image)
    exact keeps_bind (keeps_modify fun _ hkept => hkept) fun _ => keeps_pure image

theorem keepsGradient_conjugateOperator (x η y : Vec K) (h : Matrix K) :
    KeepsGradient (s.manifold.conjugateOperator x η y h) := fun kept =>
  keeps_bind (keepsGradient_of_outcome outcome_operatorInverseTransport kept) fun _ =>
    keepsGradient_of_outcome outcome_operatorTransport kept

/-- A gradient is kept before it is projected, so that it is kept even if it is refused. -/
theorem gradient_convertGradient (x gradient : Vec K) (usage : Usage) (c : Cache K) :
    (s.manifold.convertGradient x gradient usage c).2.gradient =
      if usage.hessian then some ⟨x, gradient⟩ else c.gradient := by
  rw [convertGradient_apply]
  by_cases h : usage.hessian = true
  · rw [if_pos h, if_pos h]
    rfl
  · rw [if_neg h, if_neg h]

end Sphere

namespace Call

/-- Whether the call writes the kept gradient. -/
def writesGradient : Call K → Bool
  | convertGradient _ _ _ usage => usage.hessian
  | clear => true
  | _ => false

/-- After the calls the gradient kept last is this one, for this point: it was kept since the cache
was last cleared, and none was kept after it. -/
def LatestGradient (calls : List (Call K)) (x gradient : Vec K) : Prop :=
  ∃ before s usage after, calls = before ++ convertGradient s x gradient usage :: after ∧
    usage.hessian = true ∧ ∀ call ∈ after, call.writesGradient = false

/-- The call keeps this gradient for this point. -/
def Stores (call : Call K) (x gradient : Vec K) : Prop :=
  ∃ s usage, call = convertGradient s x gradient usage ∧ usage.hessian = true

variable {calls : List (Call K)} {call : Call K} {x gradient : Vec K} {c : Cache K}

omit [Scalar K] in
theorem not_latestGradient_nil : ¬ LatestGradient ([] : List (Call K)) x gradient := by
  rintro ⟨before, s, usage, after, h, -⟩
  simp at h

omit [Scalar K] in
theorem latestGradient_concat : LatestGradient (calls ++ [call]) x gradient ↔
    call.Stores x gradient ∨ call.writesGradient = false ∧ LatestGradient calls x gradient := by
  constructor
  · rintro ⟨before, s, usage, after, h, hhessian, hafter⟩
    rcases after.eq_nil_or_concat with rfl | ⟨after, last, rfl⟩
    · obtain ⟨-, hcall⟩ := List.append_inj' h rfl
      cases hcall
      exact .inl ⟨s, usage, rfl, hhessian⟩
    · rw [List.concat_eq_append, ← List.cons_append, ← List.append_assoc] at h
      obtain ⟨rfl, hcall⟩ := List.append_inj' h rfl
      cases hcall
      simp only [List.concat_eq_append, List.mem_append, List.mem_singleton] at hafter
      exact .inr ⟨hafter call (.inr rfl), before, s, usage, after, rfl, hhessian,
        fun t ht => hafter t (.inl ht)⟩
  · rintro (⟨s, usage, rfl, hhessian⟩ | ⟨hcall, before, s, usage, after, rfl, hhessian, hafter⟩)
    · exact ⟨calls, s, usage, [], rfl, hhessian, by simp⟩
    · refine ⟨before, s, usage, after ++ [call], by simp, hhessian, ?_⟩
      simpa [or_imp, forall_and] using ⟨hafter, hcall⟩

theorem performAll_concat : (performAll (calls ++ [call]) c).2 =
    (call.perform (performAll calls c).2).2 := by
  induction calls generalizing c with
  | nil => rfl
  | cons first rest ih => exact ih

theorem keepsGradient_perform (h : call.writesGradient = false) :
    Sphere.KeepsGradient call.perform := by
  have of {β : Type} {m : Cached K β} {pack : β → Answer K} (hm : Sphere.KeepsGradient m) :
      Sphere.KeepsGradient (do return pack (← m)) := fun kept =>
    keeps_bind (hm kept) fun _ => keeps_pure _
  cases call with
  | transport s x η y ξ => exact of (Sphere.keepsGradient_of_outcome Sphere.outcome_transport)
  | inverseTransport s x η y ξ =>
    exact of (Sphere.keepsGradient_of_outcome Sphere.outcome_inverseTransport)
  | differential s x η y ξ same => exact of (Sphere.keepsGradient_differential x η y ξ same)
  | operatorInverseTransport s x η y h start stop =>
    exact of (Sphere.keepsGradient_of_outcome Sphere.outcome_operatorInverseTransport)
  | operatorTransport s x η y h start stop =>
    exact of (Sphere.keepsGradient_of_outcome Sphere.outcome_operatorTransport)
  | conjugateOperator s x η y operator =>
    exact of (Sphere.keepsGradient_conjugateOperator x η y operator)
  | convertGradient s y g usage =>
    refine of fun kept c hkept => ?_
    have hnot : ¬ usage.hessian = true := ne_true_of_eq_false h
    change (s.manifold.convertGradient y g usage c).2.gradient = kept
    rw [Sphere.gradient_convertGradient, if_neg hnot]
    exact hkept
  | convertHessian s x η product => exact of fun _ => Sphere.keeps_convertHessian η product
  | clear => cases h

theorem gradient_perform : (call.perform c).2.gradient = some ⟨x, gradient⟩ ↔
    call.Stores x gradient ∨
      call.writesGradient = false ∧ c.gradient = some ⟨x, gradient⟩ := by
  by_cases hwrites : call.writesGradient = false
  · rw [keepsGradient_perform hwrites c.gradient c rfl]
    constructor
    · exact fun h => .inr ⟨hwrites, h⟩
    · rintro (⟨s, usage, rfl, hhessian⟩ | ⟨-, h⟩)
      · cases hwrites.symm.trans hhessian
      · exact h
  · rw [or_iff_left fun h => hwrites h.1]
    cases call with
    | convertGradient s y g usage =>
      have hhessian : usage.hessian = true := eq_true_of_ne_false hwrites
      have hkept : ((convertGradient s y g usage).perform c).2.gradient = some ⟨y, g⟩ := by
        rw [perform, bind_pure_snd, Sphere.gradient_convertGradient, if_pos hhessian]
      rw [hkept]
      constructor
      · intro h
        cases h
        exact ⟨s, usage, rfl, hhessian⟩
      · rintro ⟨t, usage', h, -⟩
        cases h
        rfl
    | clear =>
      constructor
      · intro h
        cases h
      · rintro ⟨t, usage, h, -⟩
        cases h
    | _ => exact absurd rfl hwrites

/-- **After any calls the kept gradient is the latest.** -/
theorem gradient_performAll (calls : List (Call K)) :
    (performAll calls {}).2.gradient = some ⟨x, gradient⟩ ↔ LatestGradient calls x gradient := by
  induction calls using List.reverseRecOn with
  | nil => exact iff_of_false nofun not_latestGradient_nil
  | append_singleton calls call ih =>
    rw [performAll_concat, gradient_perform, ih, latestGradient_concat]

end Call

/-! ## What a Hessian is converted with -/

section

variable [LawfulBEq K] {s : Sphere} {calls : List (Call K)} {x η product gradient : Vec K}

theorem convertHessian_of_latest (hη : η.length = s.samples) (hproduct : product.length = s.samples)
    (h : Call.LatestGradient calls x gradient) :
    s.convertHessian x η product (Call.performAll calls {}).2 =
      (s.hessianWith gradient x η product, (Call.performAll calls {}).2) := by
  refine Sphere.convertHessian_of_some hη hproduct ?_
  rw [Sphere.gradientFor?_eq_some, Call.gradient_performAll]
  exact h

theorem convertHessian_of_no_latest (hη : η.length = s.samples)
    (hproduct : product.length = s.samples)
    (h : ¬ ∃ gradient, Call.LatestGradient calls x gradient) :
    s.convertHessian x η product (Call.performAll calls {}).2 =
      (refuse Sphere.gradientMissing, (Call.performAll calls {}).2) := by
  refine Sphere.convertHessian_of_none hη hproduct (Option.eq_none_iff_forall_ne_some.2 ?_)
  intro gradient hkept
  rw [Sphere.gradientFor?_eq_some, Call.gradient_performAll] at hkept
  exact h ⟨gradient, hkept⟩

end

/-- **A Hessian is converted exactly where a gradient was kept last for its point**, and with it. -/
theorem convertHessian_latest [LawfulBEq K] (s : Sphere) (calls : List (Call K))
    (x η product : Vec K)
    (hgradients : ∀ t y gradient usage, Call.convertGradient t y gradient usage ∈ calls →
      gradient.length = s.samples)
    (hx : x.length = s.samples) (hη : η.length = s.samples)
    (hproduct : product.length = s.samples) :
    ((∃ v, (s.manifold.convertHessian x η product (Call.performAll calls {}).2).1 = .ok v) ↔
      ∃ gradient, Call.LatestGradient calls x gradient) ∧
    (∀ gradient, Call.LatestGradient calls x gradient →
      s.manifold.convertHessian x η product (Call.performAll calls {}).2 =
        (s.hessianWith gradient x η product, (Call.performAll calls {}).2)) ∧
    ((¬ ∃ gradient, Call.LatestGradient calls x gradient) →
      s.manifold.convertHessian x η product (Call.performAll calls {}).2 =
        (refuse Sphere.gradientMissing, (Call.performAll calls {}).2)) := by
  refine ⟨⟨?_, ?_⟩, fun _ => convertHessian_of_latest hη hproduct,
    convertHessian_of_no_latest hη hproduct⟩
  · rintro ⟨v, hv⟩
    by_contra hnone
    have hrefused := congrArg Prod.fst (convertHessian_of_no_latest hη hproduct hnone)
    cases hv.symm.trans hrefused
  · rintro ⟨gradient, h⟩
    have hlength : gradient.length = s.samples := by
      obtain ⟨before, t, usage, after, rfl, -⟩ := h
      exact hgradients t x gradient usage (by simp)
    obtain ⟨v, hv⟩ := Sphere.exists_hessianWith hlength hx hη hproduct
    exact ⟨v, (congrArg Prod.fst (convertHessian_of_latest hη hproduct h)).trans hv⟩

/-- A gradient kept for one point, then calls that leave it, one of them the conversion of another
gradient that is not kept. -/
def gradientCalls : List (Call ℚ) :=
  [.convertGradient .segment [1, -1] [0, 1] { gradient := true, hessian := true },
    .clear,
    .convertGradient .segment [1, 1] [3, 1] { gradient := true, hessian := true },
    .transport .segment [1, 1] [] [1, -1] [1, -1],
    .convertGradient .segment [1, -1] [7, 2] { gradient := true },
    .differential .segmentKeeping [1, 1] [1, -1] [1, -1] [1, -1] true]

theorem convertHessian_latest_segment :
    Call.LatestGradient gradientCalls [1, 1] [3, 1] ∧
      Sphere.segment.manifold.convertHessian [1, 1] [1, -1] [2, 0]
        (Call.performAll gradientCalls {}).2 =
          (.ok [-5, 5], (Call.performAll gradientCalls {}).2) := by
  have hlatest : Call.LatestGradient gradientCalls [1, 1] [3, 1] :=
    ⟨gradientCalls.take 2, .segment, { gradient := true, hessian := true }, gradientCalls.drop 3,
      rfl, rfl, by simp [gradientCalls, Call.writesGradient]⟩
  have hgradients (t : Sphere) (y gradient : Vec ℚ) (usage : Usage)
      (h : Call.convertGradient t y gradient usage ∈ gradientCalls) :
      gradient.length = Sphere.segment.samples := by
    simp only [gradientCalls, List.mem_cons, Call.convertGradient.injEq, reduceCtorEq, false_or,
      List.not_mem_nil, or_false] at h
    rcases h with ⟨-, -, rfl, -⟩ | ⟨-, -, rfl, -⟩ | ⟨-, -, rfl, -⟩ <;> rfl
  obtain ⟨-, hfound, -⟩ := convertHessian_latest .segment gradientCalls [1, 1] [1, -1] [2, 0]
    hgradients rfl rfl rfl
  refine ⟨hlatest, (hfound [3, 1] hlatest).trans ?_⟩
  rw [eq_ok_of_yields (r := Sphere.segment.hessianWith [3, 1] [1, 1] [1, -1] [2, 0])
    (a := [-5, 5]) (by decide +kernel)]

end GeodesicDescent
