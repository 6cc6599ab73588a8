import GeodesicDescent.Proofs.LineSearch.Counting
import GeodesicDescent.Proofs.LineSearch.Parameters
import GeodesicDescent.Proofs.Run.Iterations
import GeodesicDescent.Proofs.Stopping
import GeodesicDescent.Manifold.Flat
import GeodesicDescent.Objective.Library

/-!
# What a run asks of an objective

The result of a run tells how often the objective was evaluated. That is all there was, unless the
run ended with a search that found no step: what that search evaluated is not in the result.

* `Setup.counted`: a run whose objective keeps a tally;
* `Result.tally`: the tally that a result reports;
* `Setup.Visits.tallied`: between iterations the sums of the run are the tally;
* **`Setup.run_tally`**: the result reports the tally exactly if the last search did not fail, and
  what is missing then is what that search tells;
* `Setup.run_tally_misses`: a run whose result misses an evaluation.
-/

namespace GeodesicDescent

open Stateful Objective

variable {K σ ρ : Type} [Scalar K]

/-- The tally that a result reports. -/
def Result.tally (r : Result K) : Tally where
  values := r.functionEvaluations
  gradients := r.gradientEvaluations

/-- The run with a tally of what its objective was asked. -/
def Setup.counted (u : Setup K σ ρ) : Setup K (Counted σ) ρ :=
  { u with objective := u.objective.counted }

namespace Running

variable {u : Setup K σ ρ} {r r' : RunState K (Counted σ) ρ}

/-- The sums of the run are the tally. -/
def Tallied (r : RunState K (Counted σ) ρ) : Prop :=
  r.work.objective.tally =
    { values := r.functionEvaluations, gradients := r.gradientEvaluations }

theorem searchFrom_counted (t : RunState K (Counted σ) ρ) : searchFrom u.counted t =
    u.config.lineSearch.search u.problem.counted u.config.searchParams t.iterate.point
      t.iterate.value t.iterate.gradient t.direction := rfl

theorem ensures_searchFrom (hv : u.config.searchParams.validate = .ok ())
    (t : RunState K (Counted σ) ρ) :
    Ensures (fun w => w.objective.tally = t.work.objective.tally) (searchFrom u.counted t)
      (Taken t.work.objective.tally) (Untaken u.config.lineSearch t.work.objective.tally) := by
  rw [searchFrom_counted]
  exact SearchKind.ensures_tally (SearchParams.maxIterations_pos hv) _ _ _ _ _

theorem Steers.tally_eq {norm : K} {t : RunState K (Counted σ) ρ}
    (h : Steers u.counted r norm t) : t.work.objective.tally = r.work.objective.tally := by
  rw [h.frame]

/-- A step adds to the sums what it adds to the tally. -/
theorem Steps.tallied {norm : K} {t : RunState K (Counted σ) ρ} {a : Accepted K}
    {work : Workspace K (Counted σ)} {h : Heading K ρ}
    (hs : Steps u.counted r norm t a work h r') (hv : u.config.searchParams.validate = .ok ())
    (hr : Tallied r) : Tallied r' := by
  obtain ⟨⟨steers, found⟩, -, -, rfl⟩ := hs
  have htaken : work.objective.tally = _ := (ensures_searchFrom hv t).of_ok rfl found
  rw [steers.tally_eq, show r.work.objective.tally = _ from hr] at htaken
  show work.objective.tally = _
  rw [htaken, steers.frame]
  rfl

end Running

namespace Setup

variable {u : Setup K σ ρ} {start : ρ} {state : σ} {point : Vec K}
variable {r : RunState K (Counted σ) ρ}

/-- **Between iterations the sums of the run are the tally.** -/
theorem Visits.tallied (h : u.counted.Visits start { inner := state } point r) :
    Running.Tallied r := by
  induction h with
  | first begun =>
    obtain ⟨events, value, gradient, -, -, evaluated, rfl⟩ := begin_inv begun
    have hP : u.problem.counted.objective.Meters (Tally.Counts {}) := meters_counted u.objective {}
    have hone : Ensures (fun w => w.objective.tally = {}) (u.problem.counted.evaluate point)
        (fun _ w => Tally.Counts {} 0 1 w.objective) fun _ _ => True :=
      (Problem.relays_evaluate point).ensures (fun _ hw => hP.accounts.evaluate point hw)
        fun _ _ _ => trivial
    exact hone.of_ok rfl evaluated
  | next visited moved ih =>
    obtain ⟨norm, t, a, work, h, steps⟩ := Running.steps_of_iterate moved
    exact steps.tallied visited.begun.2 ih

/-- **The result of a run reports every evaluation exactly if the last search did not fail.** -/
theorem run_tally {result : Result K} {after : Aftermath K (Counted σ) ρ}
    (h : u.counted.run start { inner := state } point = (.ok result, after)) :
    (after.objective.tally = result.tally ↔ result.reason ≠ .lineSearchFailed) ∧
    (result.reason = .lineSearchFailed → ∃ r norm t reason missed last value work,
      u.counted.Visits start { inner := state } point r ∧ Running.Steers u.counted r norm t ∧
      Running.searchFrom u.counted t t.work =
        (.error (.refused (.lineSearchFailed reason missed last value)), work) ∧
      0 < missed ∧ after.objective.tally =
        result.tally.plus missed (u.config.lineSearch.gradientsAmong missed)) := by
  obtain ⟨r, r', reason, norm, visited, ends, rfl, rfl⟩ := run_inv h
  have hr : r.work.objective.tally = _ := visited.tallied
  cases ends with
  | stops norm_eq reason_eq =>
    have hreason := StoppingRule.ne_lineSearchFailed reason_eq
    exact ⟨iff_of_true hr hreason, fun h => absurd h hreason⟩
  | @stuck _ t why missed last value work steers failed =>
    obtain ⟨hpos, htally⟩ :=
      (Running.ensures_searchFrom (u := u) visited.begun.2 t).of_error rfl failed missed rfl
    rw [steers.tally_eq, hr] at htally
    have hmisses : work.objective.tally = Tally.plus
        { values := t.functionEvaluations, gradients := t.gradientEvaluations } missed
        (u.config.lineSearch.gradientsAmong missed) := by
      rw [htally, steers.frame]
    refine ⟨iff_of_false (fun heq => ?_) (fun hne => hne rfl), fun _ =>
      ⟨r, norm, t, why, missed, last, value, work, visited, steers, failed, hpos, hmisses⟩⟩
    have hvalues : t.functionEvaluations + missed = t.functionEvaluations :=
      congrArg Tally.values (hmisses.symm.trans heq)
    omega

/-- Steepest descent for `2x²` on the line, where backtracking tries so many steps at most. -/
def steepParabola (trials : Nat) : Setup Float Unit Unit where
  config := {
    lineSearch := .armijo
    explicitParams := some { SearchParams.backtracking with maxIterations := trials } }
  rule := steepestDescent false
  objective := (⟨⟨1, [[4]], by decide⟩, [0], 0⟩ : Quadratic Float).objective
  manifold := Flat.manifold ⟨1⟩
  clock _ := 0

theorem run_tally_steepParabola :
    ∃ result after, (steepParabola 20).counted.run () { inner := () } [1] = (.ok result, after) ∧
      result.reason = .converged ∧ after.objective.tally = { values := 5, gradients := 2 } := by
  obtain ⟨result, after, hrun, hreason, htally⟩ := exists_of_yields
    (x := (steepParabola 20).counted.run () { inner := () } [1])
    (P := fun r => r.reason = .converged ∧ r.tally = { values := 5, gradients := 2 })
    (by decide +kernel)
  refine ⟨result, after, hrun, hreason, htally ▸ (run_tally hrun).1.2 ?_⟩
  rw [hreason]
  decide

/-- **The result of a run misses what its last search evaluated**: its one trial leads too high. -/
theorem run_tally_misses :
    ∃ result after, (steepParabola 1).counted.run () { inner := () } [1] = (.ok result, after) ∧
      result.tally = { values := 1, gradients := 1 } ∧
      after.objective.tally = { values := 2, gradients := 1 } := by
  obtain ⟨result, after, hrun, htally⟩ := exists_of_yields
    (x := (steepParabola 1).counted.run () { inner := () } [1])
    (P := fun r => r.tally = { values := 1, gradients := 1 }) (by decide +kernel)
  have hafter : ((steepParabola 1).counted.run () { inner := () } [1]).2.objective.tally =
      { values := 2, gradients := 1 } := by decide +kernel
  rw [hrun] at hafter
  exact ⟨result, after, hrun, htally, hafter⟩

end Setup

end GeodesicDescent
