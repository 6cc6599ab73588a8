import Mathlib.Data.Set.List
import GeodesicDescent.Proofs.Sphere.Outcomes

/-!
# No request of a sphere faults

Requests with vectors of any lengths, operators of any shape and blocks of any range are answered or
refused. No entry outside a vector is read and no entrywise operation meets different lengths, for
what the cache holds fits the points that it is kept for, also after requests that were refused.

* **`Cache.Aligned`**: the kept direction has as many entries as the points it is kept for;
* `Tidy`: an aligned cache stays aligned, and the outcome is a value or a refusal;
* `Request`, `Request.respond`, `Request.respondAll`: requests one after the other on one cache;
* **`respondAll_orderly`**: every reply is a value or a refusal, and an operator is refused only by
  the checks that come before its update.
-/

namespace GeodesicDescent

open Stateful Checked

variable {K α β : Type} [Scalar K]

/-! ## Aligned caches -/

omit [Scalar K] in
/-- The kept direction has as many entries as the points it is kept for. -/
def Cache.Aligned (c : Cache K) : Prop :=
  ∀ e, c.reflection = some e → e.direction.length = e.source.length

omit [Scalar K] in
theorem Cache.aligned_empty : ({} : Cache K).Aligned := nofun

theorem Cache.Aligned.length_eq {c : Cache K} {x y d : Vec K} (hc : c.Aligned)
    (hit : c.reflectionFor? x y = some d) : d.length = x.length := by
  obtain ⟨e, he, hsource, rfl⟩ := Sphere.exists_of_reflectionFor? hit
  exact (hc e he).trans (List.length_eq_of_beq hsource)

/-- An aligned cache stays aligned, and there is a value or a refusal. -/
abbrev Tidy (m : Cached K α) : Prop :=
  Ensures Cache.Aligned m (fun _ => Cache.Aligned)
    fun e c => (∃ reason, e = .refused reason) ∧ c.Aligned

omit [Scalar K] in
theorem Tidy.orderly {m : Cached K α} (h : Tidy m) {c : Cache K} (hc : c.Aligned) :
    Orderly (m c).1 ∧ (m c).2.Aligned := by
  rcases hm : m c with ⟨e | a, c'⟩
  · obtain ⟨⟨reason, rfl⟩, hc'⟩ := h.of_error hc hm
    exact ⟨orderly_refuse reason, hc'⟩
  · exact ⟨orderly_ok a, h.of_ok hc hm⟩

omit [Scalar K] in
theorem tidy_of_orderly {m : Cached K α}
    (h : ∀ c, c.Aligned → ∃ r c', m c = (r, c') ∧ Orderly r ∧ c'.Aligned) : Tidy m := by
  intro c hc
  obtain ⟨r, c', hm, ⟨e | a, rfl⟩, hc'⟩ := h c hc
  · rw [hm]
    exact ⟨⟨e, rfl⟩, hc'⟩
  · rw [hm]
    exact hc'

omit [Scalar K] in
theorem tidy_pure (a : α) : Tidy (pure a : Cached K α) := ensures_pure fun _ hc => hc

omit [Scalar K] in
theorem tidy_lift {x : Checked α} (h : Orderly x) : Tidy (liftM x : Cached K α) :=
  tidy_of_orderly fun c hc => ⟨x, c, rfl, h, hc⟩

omit [Scalar K] in
theorem tidy_lift_bind {x : Checked α} {f : α → Cached K β} (h : Orderly x)
    (hf : ∀ a, x = .ok a → Tidy (f a)) : Tidy ((liftM x : Cached K α) >>= f) := by
  obtain ⟨e | a, rfl⟩ := h
  · exact fun c hc => ⟨⟨e, rfl⟩, hc⟩
  · exact hf a rfl

namespace Sphere

variable {s : Sphere} {x y : Vec K} {check : Checked Unit} {Q : α → Prop} {c c' : Cache K}

theorem Outcome.orderly {r : Checked α} (hc : c.Aligned) (h : s.Outcome x y check Q c r c') :
    Orderly r ∧ c'.Aligned := by
  cases h with
  | refused => exact ⟨orderly_refuse _, hc⟩
  | reused hit hx fits =>
    obtain ⟨a, rfl, -⟩ := fits ((hc.length_eq hit).trans hx)
    exact ⟨orderly_ok a, hc⟩
  | computed _ gate _ =>
    obtain ⟨hx, -, -, hd⟩ := admits_eq_ok.1 gate
    refine ⟨orderly_ok _, fun e he => ?_⟩
    cases he
    exact (length_of_reflection hd).trans hx.symm

theorem tidy_of_outcome {m : Cached K α}
    (h : ∀ {c r c'}, m c = (r, c') → s.Outcome x y check Q c r c') : Tidy m :=
  tidy_of_orderly fun _ hc => ⟨_, _, rfl, (h rfl).orderly hc⟩

theorem Outcome.gate_eq {e : Fault GeometryError} (hc : c.Aligned)
    (h : s.Outcome x y check Q c (.error e) c') : s.admits x y check = .error e := by
  cases h with
  | refused gate => exact gate
  | reused hit hx fits =>
    obtain ⟨a, ha, -⟩ := fits ((hc.length_eq hit).trans hx)
    cases ha

/-! ## Operations without a cache -/

variable {u v : Vec K}

theorem orderly_normalize (v : Vec K) : Orderly (s.normalize v) :=
  (orderly_inner v v).bind fun _ _ => orderly_ok _

theorem orderly_norm (x v : Vec K) : Orderly ((s.manifold : Manifold K).norm x v) := by
  change Orderly (Scalar.sqrt <$> s.inner v v)
  exact Orderly.map _ (orderly_inner v v)

theorem orderly_projectTangent (x v : Vec K) : Orderly (s.projectTangent x v) := by
  refine (orderly_requireLength x).bind fun _ hx => ?_
  refine (orderly_requireLength v).bind fun _ hv => ?_
  obtain ⟨w, hw⟩ := exists_tangentPart (requireLength_eq_ok.1 hx) (requireLength_eq_ok.1 hv)
  exact orderly_of_eq_ok hw

theorem orderly_retract (x v : Vec K) : Orderly (s.retract x v) := by
  refine (orderly_requireLength x).bind fun _ hx => ?_
  refine (orderly_requireLength v).bind fun _ hv => ?_
  refine (orderly_inner v v).bind fun t _ => ?_
  dsimp only
  split_ifs
  · exact (orderly_ok _).bind fun moved _ => orderly_normalize moved
  · obtain ⟨w, hw, -⟩ := Vec.exists_combine (f := (· + ·))
      (u := Vec.scale x (Scalar.cos (Scalar.sqrt t)))
      (v := Vec.scale v (Scalar.sin (Scalar.sqrt t) / Scalar.sqrt t))
      (by rw [Vec.length_scale, Vec.length_scale, requireLength_eq_ok.1 hx,
        requireLength_eq_ok.1 hv])
    exact (orderly_of_eq_ok hw).bind fun moved _ => orderly_normalize moved

theorem orderly_obtainFlat (v : Vec K) : Orderly (s.obtainFlat v) := by
  refine (orderly_requireLength v).bind fun _ hv => ?_
  obtain ⟨w, hw, -⟩ := exists_flat (requireLength_eq_ok.1 hv)
  exact orderly_of_eq_ok hw

theorem orderly_scaling (η ξ image : Vec K) : Orderly (s.scaling η ξ image) := by
  refine (orderly_inner η η).bind fun _ _ => (orderly_inner ξ ξ).bind fun _ _ => ?_
  exact (orderly_inner image image).bind fun _ _ => orderly_ok _

/-! ## Operations on the cache -/

theorem tidy_differential (x η y ξ : Vec K) (same : Bool) :
    Tidy (s.differential x η y ξ same) := by
  unfold differential
  cases same with
  | false => exact tidy_of_orderly fun c hc => ⟨_, c, rfl, orderly_refuse _, hc⟩
  | true =>
    refine ensures_bind (tidy_of_outcome outcome_transport) fun image => ?_
    refine ensures_ite ?_ (tidy_pure image)
    refine tidy_lift_bind (orderly_scaling η ξ image) fun entry _ => ?_
    exact ensures_bind (ensures_modify fun _ hc => hc) fun _ => tidy_pure image

theorem tidy_conjugateOperator (x η y : Vec K) (h : Matrix K) :
    Tidy (s.manifold.conjugateOperator x η y h) :=
  ensures_bind (tidy_of_outcome outcome_operatorInverseTransport) fun _ =>
    tidy_of_outcome outcome_operatorTransport

theorem tidy_convertGradient (x gradient : Vec K) (usage : Usage) :
    Tidy (s.manifold.convertGradient x gradient usage) := by
  refine tidy_of_orderly fun c hc =>
    ⟨_, _, convertGradient_apply x gradient usage c, orderly_projectTangent x gradient, ?_⟩
  split_ifs
  · exact hc
  · exact hc

/-- Whatever length a kept gradient has, it is refused before it is combined with anything. -/
theorem tidy_convertHessian (x η product : Vec K) : Tidy (s.convertHessian x η product) := by
  refine tidy_lift_bind (orderly_requireLength η) fun _ hη => ?_
  refine tidy_lift_bind (orderly_requireLength product) fun _ hproduct => ?_
  refine ensures_bind (ensures_get (Q := fun _ => Cache.Aligned) fun _ hc => hc) fun c => ?_
  cases c.gradientFor? x with
  | none => exact tidy_of_orderly fun c hc => ⟨_, c, rfl, orderly_refuse _, hc⟩
  | some gradient =>
    refine tidy_lift_bind (orderly_inner _ _) fun cubesSquared hcubes => ?_
    refine tidy_lift_bind (orderly_inner _ _) fun along _ => ?_
    have hx : x.length = s.samples := (List.length_map _).symm.trans (length_of_inner hcubes).1
    obtain ⟨squares, hsquares, hlength⟩ := Vec.exists_combine (f := (· * ·)) (Eq.refl x.length)
    obtain ⟨scaled, hscaled, hlength'⟩ := Vec.exists_combine (f := (· * ·))
      (hlength.trans (hx.trans (requireLength_eq_ok.1 hη).symm))
    rw [Vec.hadamard, hsquares]
    refine tidy_lift_bind (orderly_ok _) fun _ h => ?_
    cases h
    rw [Vec.hadamard, hscaled]
    refine tidy_lift_bind (orderly_ok _) fun _ h => ?_
    cases h
    obtain ⟨corrected, hcorrected, -⟩ := Vec.exists_combine (f := (· - ·)) (u := product)
      (v := Vec.scale scaled (3.0 * along / cubesSquared))
      (by rw [Vec.length_scale, hlength', hlength, hx, requireLength_eq_ok.1 hproduct])
    refine tidy_lift_bind (orderly_of_eq_ok hcorrected) fun corrected _ => ?_
    exact tidy_lift (orderly_projectTangent x corrected)

end Sphere

theorem Call.tidy (call : Call K) : Tidy call.perform := by
  cases call with
  | transport s x η y ξ =>
    exact ensures_bind (Sphere.tidy_of_outcome Sphere.outcome_transport) fun _ => tidy_pure _
  | inverseTransport s x η y ξ =>
    exact ensures_bind (Sphere.tidy_of_outcome Sphere.outcome_inverseTransport) fun _ =>
      tidy_pure _
  | differential s x η y ξ same =>
    exact ensures_bind (Sphere.tidy_differential x η y ξ same) fun _ => tidy_pure _
  | operatorInverseTransport s x η y h start stop =>
    exact ensures_bind (Sphere.tidy_of_outcome Sphere.outcome_operatorInverseTransport) fun _ =>
      tidy_pure _
  | operatorTransport s x η y h start stop =>
    exact ensures_bind (Sphere.tidy_of_outcome Sphere.outcome_operatorTransport) fun _ =>
      tidy_pure _
  | conjugateOperator s x η y h =>
    exact ensures_bind (Sphere.tidy_conjugateOperator x η y h) fun _ => tidy_pure _
  | convertGradient s x gradient usage =>
    exact ensures_bind (Sphere.tidy_convertGradient x gradient usage) fun _ => tidy_pure _
  | convertHessian s x η product =>
    exact ensures_bind (Sphere.tidy_convertHessian x η product) fun _ => tidy_pure _
  | clear => exact ensures_bind (ensures_modify fun _ _ => nofun) fun _ => tidy_pure _

/-! ## Requests -/

/-- What can be asked of a sphere: a call on the cache, or an operation without one. -/
inductive Request (K : Type)
  | call (c : Call K)
  | projectPoint (s : Sphere) (v : Vec K)
  | inner (s : Sphere) (x u v : Vec K)
  | norm (s : Sphere) (x v : Vec K)
  | projectTangent (s : Sphere) (x v : Vec K)
  | retract (s : Sphere) (x v : Vec K)
  | flat (s : Sphere) (x v : Vec K)
  | containsPoint (s : Sphere) (x : Vec K) (tolerance : K)
  | containsTangent (s : Sphere) (x v : Vec K) (tolerance : K)

/-- What a request is answered with. -/
inductive Reply (K : Type)
  | answer (a : Answer K)
  | vector (v : Vec K)
  | scalar (t : K)
  | verdict (yes : Bool)

namespace Request

/-- The reply to a request, on the cache of the moment. -/
def respond : Request K → Cached K (Reply K)
  | call c => do return .answer (← c.perform)
  | projectPoint s v => do return .vector (← s.manifold.projectPoint v)
  | inner s x u v => do return .scalar (← s.manifold.inner x u v)
  | norm s x v => do return .scalar (← s.manifold.norm x v)
  | projectTangent s x v => do return .vector (← s.manifold.projectTangent x v)
  | retract s x v => do return .vector (← s.manifold.retract x v)
  | flat s x v => do return .vector (← s.manifold.flat x v)
  | containsPoint s x tolerance => return .verdict (s.manifold.containsPoint x tolerance)
  | containsTangent s x v tolerance => return .verdict (s.manifold.containsTangent x v tolerance)

/-- Requests one after the other, each on the cache that the one before it left. -/
def respondAll : List (Request K) → Cache K → List (Checked (Reply K)) × Cache K
  | [], c => ([], c)
  | request :: rest, c =>
    let (reply, c) := request.respond c
    let (replies, c) := respondAll rest c
    (reply :: replies, c)

theorem tidy (request : Request K) : Tidy request.respond := by
  have of {α : Type} {x : Checked α} (f : α → Reply K) (h : Orderly x) :
      Tidy (do return f (← (liftM x : Cached K α))) :=
    ensures_bind (tidy_lift h) fun _ => tidy_pure _
  cases request with
  | call c => exact ensures_bind c.tidy fun _ => tidy_pure _
  | projectPoint s v => exact of _ (Sphere.orderly_normalize v)
  | inner s x u v => exact of _ (Sphere.orderly_inner u v)
  | norm s x v => exact of _ (Sphere.orderly_norm x v)
  | projectTangent s x v => exact of _ (Sphere.orderly_projectTangent x v)
  | retract s x v => exact of _ (Sphere.orderly_retract x v)
  | flat s x v => exact of _ (Sphere.orderly_obtainFlat v)
  | containsPoint s x tolerance => exact tidy_pure _
  | containsTangent s x v tolerance => exact tidy_pure _

theorem tidy_all (requests : List (Request K)) {c : Cache K} (hc : c.Aligned) :
    (∀ reply ∈ (respondAll requests c).1, Orderly reply) ∧ (respondAll requests c).2.Aligned := by
  induction requests generalizing c with
  | nil => exact ⟨nofun, hc⟩
  | cons request rest ih =>
    obtain ⟨hreply, hc'⟩ := request.tidy.orderly hc
    obtain ⟨hreplies, haligned⟩ := ih hc'
    exact ⟨List.forall_mem_cons.2 ⟨hreply, hreplies⟩, haligned⟩

/-- **No request faults**: on a cache that starts empty all replies are values or refusals. -/
theorem respondAll_orderly (requests : List (Request K)) :
    (∃ replies : List (Except GeometryError (Reply K)),
      (respondAll requests {}).1 = replies.map Checked.ofExcept) ∧
    (∀ (s : Sphere) (x v : Vec K), Orderly (s.inner x v)) ∧
    ∀ (s : Sphere) (x η y : Vec K) (h : Matrix K) (start stop : Nat) (e : Fault GeometryError)
      (c' : Cache K),
      (s.manifold.operatorInverseTransport x η y h start stop (respondAll requests {}).2 =
          (.error e, c') → s.admits x y (s.requireBlock h start stop h.width) = .error e) ∧
        (s.manifold.operatorTransport x η y h start stop (respondAll requests {}).2 =
          (.error e, c') → s.admits x y (s.requireBlock h start stop h.rows) = .error e) := by
  obtain ⟨horderly, haligned⟩ := tidy_all requests Cache.aligned_empty
  refine ⟨?_, fun s x v => Sphere.orderly_inner x v, fun s x η y h start stop e c' =>
    ⟨fun hfails => ?_, fun hfails => ?_⟩⟩
  · have hrange : (respondAll requests {}).1 ∈ Set.range (List.map Checked.ofExcept) := by
      rw [Set.range_list_map]
      exact fun reply hreply => (horderly reply hreply).imp fun _ => Eq.symm
    obtain ⟨replies, hreplies⟩ := hrange
    exact ⟨replies, hreplies.symm⟩
  · exact (Sphere.outcome_operatorInverseTransport hfails).gate_eq haligned
  · exact (Sphere.outcome_operatorTransport hfails).gate_eq haligned

/-- The short gradient that a refused conversion leaves in the cache is refused where it is read. -/
example : (respondAll
    [.call (.convertGradient .segment [1, 1] [1] { gradient := true, hessian := true }),
      .call (.convertHessian .segment [1, 1] [1, -1] [1, -1])] ({} : Cache ℚ)).1 =
    [GeodesicDescent.refuse (.lengths 2 1), GeodesicDescent.refuse (.lengths 2 1)] := by
  rfl

end Request

end GeodesicDescent
