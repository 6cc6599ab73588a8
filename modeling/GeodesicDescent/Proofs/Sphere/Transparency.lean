import Mathlib.Data.List.Forall2
import GeodesicDescent.Proofs.Exact
import GeodesicDescent.Proofs.Stateful
import GeodesicDescent.Manifold.Sphere

/-!
# The geometry cache is transparent

Spheres of any numbers of samples may share one cache. What a call answers is what it would answer
with an empty cache, however many calls came before it and whether they succeeded or not.

* **`Cache.Faithful`**: a kept reflection is the one of the points it is kept for;
* `Transparent`: a faithful cache stays faithful and does not show in the answer;
* `Call`, `Call.perform`, `Call.performAll`: calls one after the other on one cache;
* **`performAll_transparent`**: every answer is that of an empty cache.
-/

namespace GeodesicDescent

open Stateful

variable {K : Type} [Scalar K]

/-- A kept reflection is the one that a sphere computes for the points it is kept for. -/
def Cache.Faithful (c : Cache K) : Prop :=
  ∀ e, c.reflection = some e → ∃ s : Sphere, e.source.length = s.samples ∧
    e.target.length = s.samples ∧ s.reflection e.source e.target = .ok e.direction

theorem Cache.faithful_empty : ({} : Cache K).Faithful := nofun

theorem Cache.faithful_clear (c : Cache K) : c.clear.Faithful := nofun

theorem Cache.Faithful.congr {c c' : Cache K} (hc : c.Faithful)
    (h : c'.reflection = c.reflection) : c'.Faithful := fun e he => hc e (h ▸ he)

namespace Cached

variable {x y d : Vec K} {c : Cache K} {compute : Checked (Vec K)}

theorem reflection_of_some (h : c.reflectionFor? x y = some d) :
    reflection x y compute c = (.ok d, { c with reuses := c.reuses + 1 }) := by
  simp only [reflection, bind_apply, get_apply, set_apply, pure_apply, h]

theorem reflection_of_ok (h : c.reflectionFor? x y = none) (hd : compute = .ok d) :
    reflection x y compute c = (.ok d, { c with
      reflection := some ⟨x, y, d⟩
      computations := c.computations + 1 }) := by
  simp only [reflection, bind_apply, get_apply, set_apply, pure_apply, lift_apply, h, hd]

theorem reflection_of_error {e : Fault GeometryError} (h : c.reflectionFor? x y = none)
    (he : compute = .error e) : reflection x y compute c = (.error e, c) := by
  simp only [reflection, bind_apply, get_apply, lift_apply, h, he]

omit [Scalar K] in
/-- A gradient is kept, where it is to be, before it is known whether it can be projected. -/
theorem keepGradient_apply (usage : Usage) (project : Checked (Vec K)) (x g : Vec K)
    (c : Cache K) : (do
      if usage.hessian then modify (·.keepGradient x g)
      project : Cached K (Vec K)) c =
        (project, if usage.hessian then c.keepGradient x g else c) := by
  by_cases h : usage.hessian = true
  · rw [if_pos h, if_pos h]
    rfl
  · rw [if_neg h, if_neg h]
    rfl

end Cached

namespace Sphere

/-- The sphere of functions with two samples, the smallest there is. -/
def segment : Sphere := ⟨{ samples := 2 }, rfl⟩

theorem convertGradient_apply {s : Sphere} (x g : Vec K) (usage : Usage) (c : Cache K) :
    s.manifold.convertGradient x g usage c =
      (s.projectTangent x g, if usage.hessian then c.keepGradient x g else c) :=
  Cached.keepGradient_apply usage _ x g c

/-- The same sphere, which also keeps scale factors. -/
def segmentKeeping : Sphere := ⟨{ samples := 2, keepTransported := true }, rfl⟩

omit [Scalar K] in
theorem requireLength_eq_ok {s : Sphere} {v : Vec K} {r : Unit} :
    s.requireLength v = .ok r ↔ v.length = s.samples := by
  unfold requireLength
  split_ifs with h
  · simp [h]
  · simp [h, refuse]

theorem reflection_congr {s t : Sphere} (h : s.samples = t.samples) (x y : Vec K) :
    s.reflection x y = t.reflection x y := by
  simp only [reflection, inner, requireLength, spacing, h]

variable [ExactEquality K] {s : Sphere} {x y : Vec K} {c : Cache K}

theorem reflectionFor?_eq_some (hc : c.Faithful) (hx : x.length = s.samples) {d : Vec K}
    (h : c.reflectionFor? x y = some d) : s.reflection x y = .ok d := by
  unfold Cache.reflectionFor? at h
  split at h
  · next e he =>
    rw [Option.ite_none_right_eq_some, Bool.and_eq_true] at h
    obtain ⟨⟨hs, ht⟩, h⟩ := h
    cases h
    obtain ⟨t, hlen, -, hd⟩ := hc e he
    obtain rfl := eq_of_beq_vec hs
    obtain rfl := eq_of_beq_vec ht
    rw [reflection_congr (hx.symm.trans hlen), hd]
  · exact nomatch h

/-- **On a faithful cache the cached reflection is the reflection.** -/
theorem cachedReflection_apply (hc : c.Faithful) (hx : x.length = s.samples)
    (hy : y.length = s.samples) :
    (s.cachedReflection x y c).1 = s.reflection x y ∧ (s.cachedReflection x y c).2.Faithful := by
  cases hr : c.reflectionFor? x y with
  | some d =>
    rw [cachedReflection, Cached.reflection_of_some hr]
    exact ⟨(reflectionFor?_eq_some hc hx hr).symm, hc⟩
  | none =>
    cases hd : s.reflection x y with
    | error e =>
      rw [cachedReflection, Cached.reflection_of_error hr hd]
      exact ⟨rfl, hc⟩
    | ok d =>
      rw [cachedReflection, Cached.reflection_of_ok hr hd]
      refine ⟨rfl, fun e he => ?_⟩
      cases he
      exact ⟨s, hx, hy, hd⟩

end Sphere

/-! ## Transparent computations -/

/-- A faithful cache stays faithful, and the outcome is that of an empty cache. -/
def Transparent {α : Type} (m : Cached K α) : Prop :=
  ∀ c : Cache K, c.Faithful → (m c).1 = (m {}).1 ∧ (m c).2.Faithful

namespace Transparent

variable {α β : Type} {m : Cached K α} {f : α → Cached K β}

theorem pure (a : α) : Transparent (Pure.pure a : Cached K α) := fun _ hc => ⟨rfl, hc⟩

theorem refuse (e : GeometryError) : Transparent (Cached.refuse e : Cached K α) :=
  fun _ hc => ⟨rfl, hc⟩

theorem lift (x : Checked α) : Transparent (liftM x : Cached K α) := fun _ hc => ⟨rfl, hc⟩

theorem modify {g : Cache K → Cache K} (h : ∀ c, (g c).reflection = c.reflection) :
    Transparent (modify g : Cached K PUnit) := fun c hc => ⟨rfl, hc.congr (h c)⟩

theorem bind (hm : Transparent m) (hf : ∀ a, Transparent (f a)) : Transparent (m >>= f) := by
  intro c hc
  obtain ⟨heq, hk⟩ := hm c hc
  have hk₀ := (hm {} Cache.faithful_empty).2
  rw [bind_apply, bind_apply]
  -- the two runs of `m` agree on the result, and both leave a faithful cache
  generalize m c = mc at *
  generalize m {} = m₀ at *
  rcases mc with ⟨r, c₁⟩
  rcases m₀ with ⟨r₀, c₀⟩
  obtain rfl : r = r₀ := heq
  cases r with
  | error e => exact ⟨rfl, hk⟩
  | ok a =>
    obtain ⟨h₁, hk₁⟩ := hf a c₁ hk
    exact ⟨h₁.trans (hf a c₀ hk₀).1.symm, hk₁⟩

theorem lift_bind {x : Checked α} (hf : ∀ a, x = .ok a → Transparent (f a)) :
    Transparent ((liftM x : Cached K α) >>= f) := by
  cases x with
  | error e => exact fun c hc => ⟨rfl, hc⟩
  | ok a => exact fun c hc => hf a rfl c hc

end Transparent

theorem transparent_keepGradient (x g : Vec K) (usage : Usage) {project : Checked (Vec K)} :
    Transparent (do
      if usage.hessian then modify (·.keepGradient x g)
      project : Cached K (Vec K)) := by
  split_ifs
  · exact .bind (.modify fun _ => rfl) fun _ => .lift _
  · exact .bind (.pure _) fun _ => .lift _

namespace Sphere

variable [ExactEquality K] {s : Sphere} {x y : Vec K}

theorem transparent_cachedReflection (hx : x.length = s.samples) (hy : y.length = s.samples) :
    Transparent (s.cachedReflection x y) := by
  intro c hc
  obtain ⟨h, hk⟩ := cachedReflection_apply hc hx hy
  exact ⟨h.trans (cachedReflection_apply Cache.faithful_empty hx hy).1.symm, hk⟩

theorem transparent_reflected {α : Type} {check : Checked Unit} {f : Vec K → Cached K α}
    (hf : ∀ d, Transparent (f d)) :
    Transparent (do
      s.requireLength x
      s.requireLength y
      check
      let d ← s.cachedReflection x y
      f d) := by
  refine .lift_bind fun _ hx => .lift_bind fun _ hy => .lift_bind fun _ _ => ?_
  exact .bind (transparent_cachedReflection (requireLength_eq_ok.1 hx)
    (requireLength_eq_ok.1 hy)) hf

theorem transparent_transport (ξ : Vec K) : Transparent (s.transport x y ξ) :=
  transparent_reflected fun _ => .lift_bind fun _ _ => .lift _

theorem transparent_inverseTransport (ξ : Vec K) : Transparent (s.inverseTransport x y ξ) :=
  transparent_reflected fun _ => .lift_bind fun _ _ => .lift _

theorem transparent_differential (η ξ : Vec K) (sameDirection : Bool) :
    Transparent (s.differential x η y ξ sameDirection) := by
  unfold differential
  cases sameDirection with
  | false => exact .refuse _
  | true =>
    refine .bind (transparent_transport ξ) fun image => ?_
    split_ifs
    · exact .lift_bind fun _ _ => .bind (.modify fun _ => rfl) fun _ => .pure _
    · exact .pure _

theorem transparent_operatorInverseTransport (h : Matrix K) (start stop : Nat) :
    Transparent (s.operatorInverseTransport x y h start stop) :=
  transparent_reflected fun _ =>
    .lift_bind fun _ _ => .lift_bind fun _ _ => .lift_bind fun _ _ => .lift _

theorem transparent_operatorTransport (h : Matrix K) (start stop : Nat) :
    Transparent (s.operatorTransport x y h start stop) :=
  transparent_reflected fun _ =>
    .lift_bind fun _ _ => .lift_bind fun _ _ => .lift_bind fun _ _ => .lift _

theorem transparent_conjugateOperator (η : Vec K) (h : Matrix K) :
    Transparent (s.manifold.conjugateOperator x η y h) := by
  unfold Manifold.conjugateOperator
  exact .bind (transparent_operatorInverseTransport h _ _)
    fun right => transparent_operatorTransport right _ _

omit [ExactEquality K] in
theorem transparent_convertGradient (gradient : Vec K) (usage : Usage) :
    Transparent (s.manifold.convertGradient x gradient usage) :=
  transparent_keepGradient x gradient usage

omit [ExactEquality K] in
theorem keeps_convertHessian {P : Cache K → Prop} (η product : Vec K) :
    Keeps P (s.convertHessian x η product) := by
  unfold convertHessian
  refine keeps_bind (keeps_lift _) fun _ => keeps_bind (keeps_lift _) fun _ => ?_
  refine keeps_bind keeps_get fun c => ?_
  cases c.gradientFor? x with
  | none => exact keeps_throw _
  | some gradient =>
    refine keeps_bind (keeps_lift _) fun _ => keeps_bind (keeps_lift _) fun _ => ?_
    refine keeps_bind (keeps_lift _) fun _ => keeps_bind (keeps_lift _) fun _ => ?_
    exact keeps_bind (keeps_lift _) fun _ => keeps_lift _

end Sphere

/-! ## Calls on one cache -/

/-- A call of a sphere on a geometry cache, or the clearing of the cache. -/
inductive Call (K : Type)
  | transport (s : Sphere) (x η y ξ : Vec K)
  | inverseTransport (s : Sphere) (x η y ξ : Vec K)
  | differential (s : Sphere) (x η y ξ : Vec K) (sameDirection : Bool)
  | operatorInverseTransport (s : Sphere) (x η y : Vec K) (h : Matrix K) (start stop : Nat)
  | operatorTransport (s : Sphere) (x η y : Vec K) (h : Matrix K) (start stop : Nat)
  | conjugateOperator (s : Sphere) (x η y : Vec K) (h : Matrix K)
  | convertGradient (s : Sphere) (x gradient : Vec K) (usage : Usage)
  | convertHessian (s : Sphere) (x η product : Vec K)
  | clear

/-- What a call answers: a vector, an operator, or nothing. -/
inductive Answer (K : Type)
  | vector (v : Vec K)
  | operator (h : Matrix K)
  | done

namespace Call

/-- A call on the cache of the moment. -/
def perform : Call K → Cached K (Answer K)
  | transport s x η y ξ => do return .vector (← s.manifold.transport x η y ξ)
  | inverseTransport s x η y ξ => do return .vector (← s.manifold.inverseTransport x η y ξ)
  | differential s x η y ξ same => do return .vector (← s.manifold.differential x η y ξ same)
  | operatorInverseTransport s x η y h start stop => do
    return .operator (← s.manifold.operatorInverseTransport x η y h start stop)
  | operatorTransport s x η y h start stop => do
    return .operator (← s.manifold.operatorTransport x η y h start stop)
  | conjugateOperator s x η y h => do
    return .operator (← s.manifold.conjugateOperator x η y h)
  | convertGradient s x gradient usage => do
    return .vector (← s.manifold.convertGradient x gradient usage)
  | convertHessian s x η product => do
    return .vector (← s.manifold.convertHessian x η product)
  | clear => do
    modify Cache.clear
    return .done

/-- Calls one after the other, each on the cache that the one before it left. -/
def performAll : List (Call K) → Cache K → List (Except (Fault GeometryError) (Answer K)) × Cache K
  | [], c => ([], c)
  | call :: rest, c =>
    let (answer, c) := call.perform c
    let (answers, c) := performAll rest c
    (answer :: answers, c)

/-- Whether the call reads what an earlier call left in the cache on purpose: only the Hessian is
converted with the gradient kept before. -/
def readsGradient : Call K → Bool
  | convertHessian .. => true
  | _ => false

end Call

section Calls

variable [ExactEquality K] {c : Cache K}

theorem perform_transparent (hc : c.Faithful) (call : Call K) :
    (call.readsGradient = false → (call.perform c).1 = (call.perform {}).1) ∧
      (call.perform c).2.Faithful := by
  have of {m : Cached K (Answer K)} (hm : Transparent m) {p : Prop} :
      (p → (m c).1 = (m {}).1) ∧ (m c).2.Faithful := ⟨fun _ => (hm c hc).1, (hm c hc).2⟩
  cases call with
  | transport s x η y ξ => exact of (.bind (Sphere.transparent_transport ξ) fun _ => .pure _)
  | inverseTransport s x η y ξ =>
    exact of (.bind (Sphere.transparent_inverseTransport ξ) fun _ => .pure _)
  | differential s x η y ξ same =>
    exact of (.bind (Sphere.transparent_differential η ξ same) fun _ => .pure _)
  | operatorInverseTransport s x η y h start stop =>
    exact of (.bind (Sphere.transparent_operatorInverseTransport h start stop) fun _ => .pure _)
  | operatorTransport s x η y h start stop =>
    exact of (.bind (Sphere.transparent_operatorTransport h start stop) fun _ => .pure _)
  | conjugateOperator s x η y h =>
    exact of (.bind (Sphere.transparent_conjugateOperator η h) fun _ => .pure _)
  | convertGradient s x gradient usage =>
    exact of (.bind (Sphere.transparent_convertGradient gradient usage) fun _ => .pure _)
  | convertHessian s x η product =>
    refine ⟨nofun, ?_⟩
    exact keeps_bind (Sphere.keeps_convertHessian η product) (fun _ => keeps_pure _) c hc
  | clear => exact ⟨fun _ => rfl, c.faithful_clear⟩

theorem performAll_answers (calls : List (Call K)) (hc : c.Faithful) :
    List.Forall₂ (fun call answer => call.readsGradient = false → answer = (call.perform {}).1)
      calls (Call.performAll calls c).1 ∧ (Call.performAll calls c).2.Faithful := by
  induction calls generalizing c with
  | nil => exact ⟨.nil, hc⟩
  | cons call rest ih =>
    obtain ⟨hanswer, hc'⟩ := perform_transparent hc call
    obtain ⟨hrest, hfaithful⟩ := ih hc'
    exact ⟨.cons hanswer hrest, hfaithful⟩

/-- **The cache is transparent**: every call answers as it would with a cache of its own. -/
theorem performAll_transparent (calls : List (Call K)) :
    List.Forall₂ (fun call answer => call.readsGradient = false → answer = (call.perform {}).1)
      calls (Call.performAll calls {}).1 ∧
    ∀ e, (Call.performAll calls {}).2.reflection = some e →
      (∃ s : Sphere, s.samples = e.source.length) ∧
      ∀ s : Sphere, s.samples = e.source.length →
        s.reflection e.source e.target = .ok e.direction := by
  obtain ⟨hanswers, hfaithful⟩ := performAll_answers calls Cache.faithful_empty
  refine ⟨hanswers, fun e he => ?_⟩
  obtain ⟨s, hs, -, hd⟩ := hfaithful e he
  exact ⟨⟨s, hs.symm⟩, fun t ht => (Sphere.reflection_congr (ht.trans hs) _ _).trans hd⟩

/-- Three calls of two spheres, of which the second and the third are answered from the cache. -/
def sharedCalls : List (Call ℚ) :=
  [.transport .segment [1, 1] [] [1, -1] [1, -1],
    .differential .segmentKeeping [1, 1] [1, -1] [1, -1] [1, -1] true,
    .inverseTransport .segment [1, 1] [] [1, -1] [1, 1]]

theorem performAll_transparent_shared :
    (Call.performAll sharedCalls {}).2.reuses = 2 ∧
    List.Forall₂ (fun call answer => call.readsGradient = false → answer = (call.perform {}).1)
      sharedCalls (Call.performAll sharedCalls {}).1 :=
  ⟨by decide +kernel, (performAll_transparent sharedCalls).1⟩

end Calls

end GeodesicDescent
