import GeodesicDescent.Proofs.Direction.ConjugateGradient
import GeodesicDescent.Proofs.Exact
import GeodesicDescent.Proofs.Run.Iterations
import GeodesicDescent.Manifold.Flat
import GeodesicDescent.Objective.Library

/-!
# Where a conjugate gradient run searches

The rule decides twice whether to restart: after a step it prepares no direction, and before the
next search it replaces the one that it kept. Both decisions agree, so that a direction is never
used that was meant for another point.

* `Manifold.conjugateGradients`: the rule on any manifold, with any search and any objective;
* `Running.Prepares`: the direction that is prepared after a step;
* **`Setup.Visits.prepared`**: a direction that the rule will keep was prepared by the last step;
* **`Setup.steers_fresh`**: the direction of every search goes against the gradient, or was prepared
  by the step before it.
-/

namespace GeodesicDescent

open Stateful

variable {K σ : Type} [Scalar K]

/-- Conjugate gradients on a manifold. -/
def Manifold.conjugateGradients (M : Manifold K) (config : SolverOptions K)
    (objective : Objective K σ) (clock : Nat → Nat) : Setup K σ (ConjugateGradient K) where
  config
  rule := ConjugateGradient.rule
  objective
  manifold := M
  clock

theorem CGConfig.restartsAt_eq_true {c : CGConfig} (h : c.restartPeriod ≠ 0) (k : Nat) :
    c.restartsAt k = true ↔ c.restartPeriod ∣ k := by
  simp [restartsAt, h, Nat.dvd_iff_mod_eq_zero]

omit [Scalar K] in
theorem ConjugateGradient.restartPeriod_ne_zero {r : ConjugateGradient K} {events : List (Event K)}
    (h : r.announce = .ok events) : r.config.restartPeriod ≠ 0 := by
  obtain ⟨_, hvalid, -⟩ := checked_bind_eq_ok.1 h
  unfold CGConfig.validate at hvalid
  split_ifs at hvalid with hzero
  exact hzero

omit [Scalar K] in
theorem ConjugateGradient.level_of_announce {r : ConjugateGradient K} {events : List (Event K)}
    (h : r.announce = .ok events) : ∀ e ∈ events, e.level = .info := by
  obtain ⟨_, -, h⟩ := checked_bind_eq_ok.1 h
  cases h
  simp

variable {M : Manifold K} {config : SolverOptions K} {objective : Objective K σ}
variable {clock : Nat → Nat}

namespace Running

variable {r r' t : RunState K σ (ConjugateGradient K)} {norm : K} {a : Accepted K}
variable {work : Workspace K σ} {h : Heading K (ConjugateGradient K)}

/-- After the step `a` from `t` the rule prepares the direction `d` with the weight of `w`. -/
structure Prepares (M : Manifold K) (method : CGMethod) (t : RunState K σ (ConjugateGradient K))
    (a : Accepted K) (work : Workspace K σ) (w : Weighing K) (d : Vec K) : Prop where
  weighed : ∃ c, ConjugateGradient.weigh M (entered t a) t.direction method work.cache = (.ok w, c)
  combined : Vec.axpy w.sigma w.zeta (-1) a.gradient = .ok d

/-- The search keeps the direction that was prepared, unless the rule restarts. -/
theorem Steers.direction_eq (h : Steers (M.conjugateGradients config objective clock) r norm t) :
    ∃ slope, M.inner r.iterate.point r.direction r.iterate.gradient = .ok slope ∧
      t.rule = { r.rule with restarted := r.rule.restarts r.iterate.iteration slope } ∧
      t.direction = if r.rule.restarts r.iterate.iteration slope then Vec.neg r.iterate.gradient
        else r.direction := by
  obtain ⟨_, hsteer, rfl⟩ := ofSteering_eq_ok.1 h.steered
  obtain ⟨slope, hslope, rfl⟩ := ConjugateGradient.steer_eq_ok.1 hsteer
  exact ⟨slope, hslope, rfl, rfl⟩

theorem Steers.work_eq (h : Steers (M.conjugateGradients config objective clock) r norm t) :
    t.work = r.work := by
  obtain ⟨_, hsteer, rfl⟩ := ofSteering_eq_ok.1 h.steered
  obtain ⟨slope, -, rfl⟩ := ConjugateGradient.steer_eq_ok.1 hsteer
  rfl

theorem Steers.config_eq (h : Steers (M.conjugateGradients config objective clock) r norm t) :
    t.rule.config = r.rule.config := by
  obtain ⟨slope, -, hrule, -⟩ := h.direction_eq
  rw [hrule]

theorem Steers.neg_or_kept (h : Steers (M.conjugateGradients config objective clock) r norm t) :
    t.direction = Vec.neg r.iterate.gradient ∨
      r.rule.config.restartsAt r.iterate.iteration = false ∧ t.direction = r.direction := by
  obtain ⟨slope, -, -, hdirection⟩ := h.direction_eq
  by_cases hrestart : r.rule.restarts r.iterate.iteration slope = true
  · exact .inl (hdirection.trans (if_pos hrestart))
  · have hgoes := Bool.of_not_eq_true hrestart
    rw [ConjugateGradient.restarts, Bool.or_eq_false_iff] at hgoes
    exact .inr ⟨hgoes.1, hdirection.trans (if_neg hrestart)⟩

theorem Steps.prepares
    (hs : Steps (M.conjugateGradients config objective clock) r norm t a work h r') :
    r'.rule.config = r.rule.config ∧ (r'.rule.config.restartsAt r'.iterate.iteration = true ∨
      ∃ w, Prepares M r.rule.config.method t a work w r'.direction) := by
  obtain ⟨⟨steers, -⟩, -, learnt, rfl⟩ := hs
  have hconfig : t.rule.config = r.rule.config := steers.config_eq
  obtain ⟨hrestart, rfl⟩ | ⟨w, c, hweigh, hdirection, -, hrule⟩ :=
    ConjugateGradient.learn_eq_ok learnt
  · exact ⟨hconfig, .inl hrestart⟩
  · have hkept : h.rule.config = t.rule.config := by rw [hrule]
    rw [← hconfig]
    exact ⟨hkept, .inr ⟨w, ⟨c, hweigh⟩, hdirection⟩⟩

end Running

namespace Setup

variable {start : ConjugateGradient K} {state : σ} {x₀ : Vec K}
variable {r t : RunState K σ (ConjugateGradient K)}

theorem Visits.config_eq
    (h : (M.conjugateGradients config objective clock).Visits start state x₀ r) :
    r.rule.config = start.config := by
  induction h with
  | first => rfl
  | next _ moved ih =>
    obtain ⟨norm, t, a, work, h, steps⟩ := Running.steps_of_iterate moved
    exact steps.prepares.1.trans ih

theorem Visits.restartPeriod_ne_zero
    (h : (M.conjugateGradients config objective clock).Visits start state x₀ r) :
    start.config.restartPeriod ≠ 0 := by
  obtain ⟨⟨events, announced⟩, -⟩ := h.begun
  exact ConjugateGradient.restartPeriod_ne_zero announced

/-- **Where the rule does not restart it has prepared the direction in the last step.** -/
theorem Visits.prepared
    (h : (M.conjugateGradients config objective clock).Visits start state x₀ r) :
    start.config.restartsAt r.iterate.iteration = true ∨ ∃ s norm t a work h w,
      (M.conjugateGradients config objective clock).Visits start state x₀ s ∧
      Running.Steps (M.conjugateGradients config objective clock) s norm t a work h r ∧
      Running.Prepares M start.config.method t a work w r.direction := by
  have hperiod := h.restartPeriod_ne_zero
  cases h with
  | first begun =>
    obtain ⟨_, _, _, -, -, -, rfl⟩ := begin_inv begun
    exact .inl ((CGConfig.restartsAt_eq_true hperiod 0).2 (Nat.dvd_zero _))
  | next visited moved =>
    obtain ⟨norm, t, a, work, h, steps⟩ := Running.steps_of_iterate moved
    obtain ⟨hconfig, hrestart | ⟨w, prepares⟩⟩ := steps.prepares
    · rw [hconfig, visited.config_eq] at hrestart
      exact .inl hrestart
    · rw [visited.config_eq] at prepares
      exact .inr ⟨_, norm, t, a, work, h, w, visited, steps, prepares⟩

/-- **No search goes along a direction that was prepared for another.** -/
theorem steers_fresh {norm : K}
    (visited : (M.conjugateGradients config objective clock).Visits start state x₀ r)
    (steers : Running.Steers (M.conjugateGradients config objective clock) r norm t) :
    (start.config.restartPeriod ∣ r.iterate.iteration →
      t.direction = Vec.neg r.iterate.gradient) ∧
    (¬ start.config.restartPeriod ∣ r.iterate.iteration → ∃ s norm₀ t₀ a work h w slope,
      (M.conjugateGradients config objective clock).Visits start state x₀ s ∧
      Running.Steps (M.conjugateGradients config objective clock) s norm₀ t₀ a work h r ∧
      s.iterate.iteration + 1 = r.iterate.iteration ∧
      Running.Prepares M start.config.method t₀ a work w r.direction ∧
      M.inner r.iterate.point r.direction r.iterate.gradient = .ok slope ∧
      t.direction = if -Scalar.epsilon ≤ slope then Vec.neg r.iterate.gradient
        else r.direction) := by
  have hdvd := CGConfig.restartsAt_eq_true visited.restartPeriod_ne_zero r.iterate.iteration
  obtain ⟨slope, hslope, -, hdirection⟩ := steers.direction_eq
  rw [ConjugateGradient.restarts, visited.config_eq] at hdirection
  constructor
  · intro hperiod
    rw [hdvd.2 hperiod, Bool.true_or] at hdirection
    exact hdirection
  · intro hperiod
    have hgoes : start.config.restartsAt r.iterate.iteration = false :=
      Bool.of_not_eq_true fun h => hperiod (hdvd.1 h)
    obtain hrestart | ⟨s, norm₀, t₀, a, work, h, w, visited₀, steps, prepares⟩ := visited.prepared
    · exact absurd (hdvd.1 hrestart) hperiod
    have hcount : s.iterate.iteration + 1 = r.iterate.iteration := by
      rw [steps.state_eq, ← steps.accepts.1.iterate_eq]
      rfl
    refine ⟨s, norm₀, t₀, a, work, h, w, slope, visited₀, steps, hcount, prepares, hslope, ?_⟩
    rw [hgoes, Bool.false_or] at hdirection
    simpa only [decide_eq_true_eq] using hdirection

/-- The rule of Fletcher and Reeves, restarted in every hundredth iteration. -/
def bowlStart : ConjugateGradient ℚ := .new { restartPeriod := 100, method := .fletcherReeves }

/-- Conjugate gradients on the rational plane, for `(x² + 3y²)/2`. -/
def bowlDescent : Setup ℚ Unit (ConjugateGradient ℚ) :=
  (Flat.manifold ⟨2⟩).conjugateGradients {}
    (⟨⟨2, [[1, 0], [0, 3]], by decide⟩, [0, 0], 0⟩ : Quadratic ℚ).objective fun _ => 0

theorem steers_fresh_bowl :
    ∃ r norm t, bowlDescent.Visits bowlStart () [1, 1] r ∧ Running.Steers bowlDescent r norm t ∧
      r.iterate.iteration = 1 ∧ ∃ s norm₀ t₀ a work h w,
        Running.Steps bowlDescent s norm₀ t₀ a work h r ∧
        Running.Prepares (Flat.manifold ⟨2⟩) .fletcherReeves t₀ a work w t.direction := by
  obtain ⟨r, norm, t, visited, steers, h⟩ := exists_of_after?
    (u := bowlDescent) bowlStart () [1, 1] 1
    (P := fun r t => r.iterate.iteration = 1 ∧ t.direction ≠ Vec.neg r.iterate.gradient)
    (by decide +kernel)
  obtain ⟨hone, hkept⟩ := of_decide_eq_true h
  have hperiod : ¬ bowlStart.config.restartPeriod ∣ r.iterate.iteration := by
    rw [hone]
    decide
  obtain ⟨s, norm₀, t₀, a, work, h, w, slope, -, steps, -, prepares, -, hdirection⟩ :=
    (steers_fresh visited steers).2 hperiod
  rw [if_neg fun hflat => hkept (hdirection.trans (if_pos hflat))] at hdirection
  exact ⟨r, norm, t, visited, steers, hone, s, norm₀, t₀, a, work, h, w, steps,
    hdirection ▸ prepares⟩

end Setup

end GeodesicDescent
