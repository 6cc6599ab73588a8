import GeodesicDescent.Proofs.Spaces
import GeodesicDescent.Proofs.LineSearch.Decrease
import GeodesicDescent.Proofs.LineSearch.Refusals
import GeodesicDescent.Proofs.Run.Directions
import GeodesicDescent.Proofs.Run.Faults
import GeodesicDescent.Proofs.Stopping

/-!
# When a run refuses its direction

The conjugate gradient rule tests the direction against the gradient, and the search tests the
gradient against the direction. In exact arithmetic both tests agree, so that the search refuses a
direction only where there is none that leads downhill.

* `DirectionRule.Impartial`: a rule that leaves it to the search to refuse a direction;
* **`Setup.run_refuses`**: with such a rule, a run is refused where its slope is not negative;
* `Setup.Visits.evaluated`: the gradient of a visited state is the one at its point;
* **`Setup.refused_where_stationary`**: a conjugate gradient run is refused only at a point whose
  gradient has square zero, and never if it stops at small gradients.
-/

namespace GeodesicDescent

open Stateful

variable {K σ ρ α : Type}

/-! ## Rules that refuse no direction -/

namespace Steering

theorem avoids_ofChecked (m : Checked α) :
    Avoids Fault.uphill (ofChecked m : Steering K ρ α) :=
  avoids_of_ne fun _ _ h => seen_ne_uphill m (congrArg Prod.fst h)

theorem avoids_ofCached (m : Cached K α) :
    Avoids Fault.uphill (ofCached m : Steering K ρ α) :=
  avoids_of_ne fun h _ heq => seen_ne_uphill (m h.cache).1 (congrArg Prod.fst heq)

end Steering

variable [Scalar K]

/-- The rule leaves it to the search to refuse a direction. -/
structure DirectionRule.Impartial (rule : DirectionRule K ρ) : Prop where
  announce : ∀ r, rule.announce r ≠ .error .invalidDirection
  steer : ∀ M it, Avoids Fault.uphill (rule.steer M it)
  learn : ∀ M it, Avoids Fault.uphill (rule.learn M it)

theorem ConjugateGradient.rule_impartial : (rule : DirectionRule K _).Impartial where
  announce r h := by
    change ConjugateGradient.announce r = _ at h
    unfold ConjugateGradient.announce CGConfig.validate at h
    split_ifs at h <;> cases h
  steer M it := by
    refine ensures_bind avoids_get fun h => ?_
    exact ensures_bind (Steering.avoids_ofChecked _) fun _ => avoids_modify _
  learn M it := by
    refine ensures_bind avoids_get fun h => ensures_ite (avoids_pure _) ?_
    refine ensures_bind (Steering.avoids_ofCached _) fun w => ?_
    refine ensures_bind (Steering.avoids_ofChecked _) fun d => ?_
    exact ensures_ite (avoids_throw nofun) (avoids_modify _)

/-! ## Where a run is refused -/

variable {u : Setup K σ ρ} {s s' : RunState K σ ρ} {fault : Fault (SolverError K)}

namespace Running

omit [Scalar K] in
theorem avoids_ofSearching {m : Searching K σ α} (hm : Avoids fault m) :
    Avoids fault (ofSearching m : Running K σ ρ α) := by
  refine avoids_of_ne fun s _ h => ?_
  have hfault : (m s.work).1 = .error fault := congrArg Prod.fst h
  exact hm.ne (Prod.ext hfault rfl)

omit [Scalar K] in
theorem avoids_ofSteering {m : Steering K ρ α} (hm : Avoids fault m) :
    Avoids fault (ofSteering m : Running K σ ρ α) := by
  refine avoids_of_ne fun s _ h => ?_
  have hfault : (m ⟨s.direction, s.work.cache, s.rule⟩).1 = .error fault := congrArg Prod.fst h
  exact hm.ne (Prod.ext hfault rfl)

omit [Scalar K] in
theorem avoids_reportAll (es : List (Event K)) :
    Avoids fault (Searching.reportAll es : Searching K σ Unit) :=
  avoids_of_ne fun w _ h => nomatch (reportAll_apply es w).symm.trans h

theorem avoids_assess : Avoids Fault.uphill (assess u) := by
  refine ensures_bind avoids_get fun s => ?_
  exact ensures_bind (avoids_ofSearching (Searching.relays_ofChecked _).avoids) fun _ =>
    avoids_pure _

theorem avoids_advance (hrule : u.rule.Impartial) (norm : K) (a : Accepted K) :
    Avoids Fault.uphill (advance u norm a) := by
  refine ensures_bind (avoids_modify _) fun _ => ensures_bind avoids_get fun s => ?_
  refine ensures_ite ?_ ?_
  · exact ensures_bind (avoids_ofSearching (avoids_modify _)) fun _ => avoids_throw_bind nofun
  · refine ensures_bind (avoids_modify _) fun _ => ?_
    refine ensures_bind (avoids_ofSteering (hrule.learn _ _)) fun _ => ?_
    refine ensures_bind (avoids_ofSearching (avoids_modify _)) fun _ => ?_
    refine ensures_bind avoids_get fun _ => ?_
    exact ensures_bind (avoids_ofSearching (avoids_reportAll _)) fun _ => avoids_modify _

/-- **An iteration is refused only by its search**, and the slope does not lead downhill. -/
theorem iterate_refuses (hrule : u.rule.Impartial) (h : iterate u s = (.error .uphill, s')) :
    ∃ norm slope, Steers u s norm s' ∧ 0 ≤ slope ∧
      u.manifold.inner s.iterate.point s.iterate.gradient s'.direction = .ok slope := by
  cases breaks_of_eq_error h with
  | assess failed => exact absurd failed avoids_assess.ne
  | steer failed => exact absurd failed (avoids_ofSteering (hrule.steer _ _)).ne
  | @search norm t work steers failed =>
    obtain ⟨slope, hslope, hup, rfl⟩ := SearchKind.search_refuses.1 failed
    rw [steers.iterate_eq] at hslope
    exact ⟨norm, slope, steers, hup, hslope⟩
  | advance _ failed => exact absurd failed (avoids_advance hrule _ _).ne

end Running

namespace Setup

variable {start : ρ} {state : σ} {x₀ : Vec K} {after : Aftermath K σ ρ}

theorem avoids_begin (hrule : u.rule.Impartial) : Avoids Fault.uphill (u.begin start x₀) := by
  refine ensures_bind (avoids_modify _) fun _ => ?_
  cases hannounce : u.rule.announce start with
  | error e =>
    refine avoids_throw_bind fun h => ?_
    cases h
    exact hrule.announce start hannounce
  | ok events =>
    refine ensures_bind (Running.avoids_reportAll events) fun _ => ?_
    refine ensures_bind (Searching.relays_ofChecked _).avoids fun _ => ?_
    refine ensures_bind (avoids_modify _) fun _ => ?_
    exact ensures_bind (Problem.relays_evaluate x₀).avoids fun _ => avoids_pure _

/-- **A run that is refused** ends in an iteration of a state that it visits, where the slope along
the direction of the search does not lead downhill. -/
theorem run_refuses (hrule : u.rule.Impartial)
    (h : u.run start state x₀ = (.error .uphill, after)) :
    ∃ s s' norm slope, u.Visits start state x₀ s ∧
      Running.iterate u s = (.error .uphill, s') ∧ Running.Steers u s norm s' ∧
      after = s'.aftermath ∧ 0 ≤ slope ∧
      u.manifold.inner s.iterate.point s.iterate.gradient s'.direction = .ok slope := by
  obtain ⟨work, hbegin⟩ | ⟨s, s', visited, hafter, hiterate | ⟨hcount, -⟩⟩ := run_eq_error h
  · exact absurd hbegin (avoids_begin hrule).ne
  · obtain ⟨norm, slope, steers, hup, hslope⟩ := Running.iterate_refuses hrule hiterate
    exact ⟨s, s', norm, slope, visited, hiterate, steers, hafter, hup, hslope⟩
  · cases hcount

theorem Visits.evaluated (h : u.Visits start state x₀ s) : ∃ w w',
    u.problem.evaluate s.iterate.point w = (.ok (s.iterate.value, s.iterate.gradient), w') := by
  cases h with
  | first begun =>
    obtain ⟨_, value, gradient, w, -, evaluated, rfl⟩ := begin_eq_ok begun
    exact ⟨w, _, evaluated⟩
  | next _ moved =>
    obtain ⟨norm, t, a, work, h, steps⟩ := Running.steps_of_iterate moved
    obtain ⟨-, w, w', evaluated⟩ := SearchKind.search_reaches steps.accepts.2
    rw [steps.state_eq]
    exact ⟨w, w', evaluated⟩

end Setup

/-! ## Conjugate gradients in exact arithmetic -/

section Exact

variable {K σ : Type} [Field K] [LinearOrder K] [IsStrictOrderedRing K] [Elementary K]
variable [Tolerances K] {M : Manifold K} {config : SolverOptions K} {objective : Objective K σ}
variable {clock : Nat → Nat}

/-- **Where the search is refused the gradient has square zero.** -/
theorem Running.Steers.square_eq_zero {s t : RunState K σ (ConjugateGradient K)} {norm slope : K}
    (hM : M.InnerProducts) (h : Steers (M.conjugateGradients config objective clock) s norm t)
    (hslope : M.inner s.iterate.point s.iterate.gradient t.direction = .ok slope)
    (hup : 0 ≤ slope) : M.inner s.iterate.point s.iterate.gradient s.iterate.gradient = .ok 0 := by
  obtain ⟨square, hsquare⟩ := Manifold.inner_of_norm (M := M) h.norm_eq
  obtain ⟨kept, hkept, -, hdirection⟩ := h.direction_eq
  by_cases hrestart : s.rule.restarts s.iterate.iteration kept = true
  · rw [if_pos hrestart] at hdirection
    rw [hdirection] at hslope
    have hneg : slope = -1 * square + 0 * square :=
      hM.combines (Vec.combines_neg _) hsquare hsquare (hM.comm hslope)
    have hnonneg : 0 ≤ square := hM.self_nonneg hsquare
    rw [hsquare, show square = 0 by linarith]
  · rw [if_neg hrestart] at hdirection
    rw [hdirection, hM.comm hkept, Except.ok.injEq] at hslope
    have hgoes := Bool.of_not_eq_true hrestart
    rw [ConjugateGradient.restarts, Bool.or_eq_false_iff, decide_eq_false_iff_not, not_le] at hgoes
    have hpos : (0 : K) < Scalar.epsilon := Tolerances.epsilon_pos
    linarith [hgoes.2]

namespace Setup

variable {start : ConjugateGradient K} {state : σ} {x₀ : Vec K}
variable {after : Aftermath K σ (ConjugateGradient K)}

/-- **A conjugate gradient run is refused its direction only where its gradient has no length.** -/
theorem refused_where_stationary (hM : M.InnerProducts) (hroot : Scalar.sqrt (0 : K) = 0)
    (h : (M.conjugateGradients config objective clock).run start state x₀ =
      (.error (.refused .invalidDirection), after)) :
    (∃ s s' w w', (M.conjugateGradients config objective clock).Visits start state x₀ s ∧
      Running.iterate (M.conjugateGradients config objective clock) s =
        (.error (.refused .invalidDirection), s') ∧ after = s'.aftermath ∧
      (M.conjugateGradients config objective clock).problem.evaluate s.iterate.point w =
        (.ok (s.iterate.value, s.iterate.gradient), w') ∧
      M.inner s.iterate.point s.iterate.gradient s.iterate.gradient = .ok 0) ∧
    ∀ tolerance, config.criterion.gradientTolerance = some tolerance → ¬ 0 < tolerance := by
  obtain ⟨s, s', norm, slope, visited, hiterate, steers, rfl, hup, hslope⟩ :=
    run_refuses ConjugateGradient.rule_impartial h
  have hsquare := steers.square_eq_zero hM hslope hup
  obtain ⟨w, w', evaluated⟩ := visited.evaluated
  refine ⟨⟨s, s', w, w', visited, hiterate, rfl, evaluated, hsquare⟩, ?_⟩
  intro tolerance htolerance hpos
  have hnorm : norm = 0 := (Manifold.norm_eq_sqrt (M := M) steers.norm_eq hsquare).trans hroot
  have hlarge : ¬ norm < tolerance :=
    StoppingRule.not_lt_of_reason?_eq_none steers.goes_on htolerance
  exact hlarge (hnorm ▸ hpos)

/-- The bowl from its bottom, where no gradient norm is small enough to stop. -/
def bowlAtRest : Setup ℚ Unit (ConjugateGradient ℚ) :=
  (Flat.manifold ⟨2⟩).conjugateGradients { criterion := { gradientTolerance := none } }
    bowlDescent.objective fun _ => 0

theorem refused_where_stationary_bowl :
    ∃ after, bowlAtRest.run bowlStart () [0, 0] = (.error (.refused .invalidDirection), after) ∧
      ∃ s, bowlAtRest.Visits bowlStart () [0, 0] s ∧
        bowlAtRest.manifold.inner s.iterate.point s.iterate.gradient s.iterate.gradient =
          .ok 0 := by
  obtain ⟨_, after, hrun, rfl⟩ := exists_of_faults
    (x := bowlAtRest.run bowlStart () [0, 0])
    (P := (· = .refused .invalidDirection)) (by decide +kernel)
  obtain ⟨⟨s, _, _, _, visited, -, -, -, hsquare⟩, -⟩ :=
    refused_where_stationary (Space.innerProducts (.flat ⟨2⟩)) (by decide) hrun
  exact ⟨after, hrun, s, visited, hsquare⟩

end Setup

end Exact

end GeodesicDescent
