import GeodesicDescent.Proofs.LineSearch.Counting
import GeodesicDescent.Proofs.Run.Coherence
import GeodesicDescent.Proofs.Run.Hooks

/-!
# What a run may cost

A run with a limit on its iterations takes no more steps than that, and each of them costs no more
than one search may, whatever the rule writes but a lower number of iterations. The limit on
evaluations is looked at between iterations only, so that one search may go beyond it; it holds
whatever the rule writes.

* `Running.sums_of_step`: what an iteration that takes a step does to the sums;
* `Running.iterateWith_of_le`: where the limit is reached an iteration does not search;
* `Running.loopWith_eq_loopWith`: a loop ends before a longer one could differ from it;
* `Running.evaluations_loopWith_le`: what the iterations that are left ask of a counted objective;
* **`Setup.runWith_within_budget`**: steps, evaluations and their sum in the result;
* **`Setup.runWith_exceeds_budget`**: a rule that lowers the number of iterations;
* `Setup.run_within_budget`: the run of a direction rule.
-/

namespace GeodesicDescent

open Stateful Objective

variable {K σ ρ α : Type}

/-- The evaluations of a counted objective in a run. -/
def RunState.evaluations (r : RunState K (Counted σ) ρ) : Nat := r.work.evaluations

namespace Running

/-! ## What the parts of a run ask of a counted objective -/

theorem raises_ofSearching {n : Nat} {m : Searching K (Counted σ) α}
    (hm : Raises Workspace.evaluations n m) :
    Raises RunState.evaluations n (ofSearching m : Running K (Counted σ) ρ α) :=
  fun r => hm r.work

theorem raises_attempt {n : Nat} {m : Searching K (Counted σ) α}
    (hm : Raises Workspace.evaluations n m) :
    Raises RunState.evaluations n (attempt m : Running K (Counted σ) ρ _) :=
  fun r => hm r.work

theorem raises_ofHook (m : Hooking K ρ α) :
    Raises RunState.evaluations 0 (ofHook m : Running K (Counted σ) ρ α) :=
  fun _ => Nat.le_refl _

theorem raises_report (e : Event K) :
    Raises Workspace.evaluations 0 (.report e : Searching K (Counted σ) Unit) :=
  fun _ => Nat.le_refl _

theorem raises_reportAll (es : List (Event K)) :
    Raises Workspace.evaluations 0 (.reportAll es : Searching K (Counted σ) Unit) := by
  intro w
  rw [reportAll_apply]
  exact Nat.le_refl _

variable [Scalar K] {u : Setup K σ ρ} {hooks : Hooks K ρ} {r r' : RunState K σ ρ} {m : Nat}

theorem raises_advanceWith (norm : K) (a : Accepted K) :
    Raises RunState.evaluations 0 (advanceWith u.counted hooks norm a) := by
  have hrest : Raises RunState.evaluations 0 (do
      modify RunState.counted
      ofHook (hooks.learn u.manifold)
      let s ← get
      ofSearching (.report (completed s.iterate.iteration s.iterate.nextValue s.iterate.step norm))
      ofSearching (.reportAll (hooks.report s.hand))
      modify fun s => { s with
        history := s.history.push s.iterate.nextValue
        previousValue := some s.iterate.value
        iterate := s.iterate.shift } : Running K (Counted σ) ρ Unit) := by
    refine raises_bind_zero (raises_modify fun _ => Nat.le_refl _) fun _ => ?_
    refine raises_bind_zero (raises_ofHook _) fun _ => raises_bind_zero raises_get fun s => ?_
    refine raises_bind_zero (raises_ofSearching (raises_report _)) fun _ => ?_
    refine raises_bind_zero (raises_ofSearching (raises_reportAll _)) fun _ => ?_
    exact raises_modify fun _ => Nat.le_refl _
  refine raises_bind_zero (raises_modify fun _ => Nat.le_refl _) fun _ =>
    raises_bind_zero raises_get fun s => raises_ite ?_ hrest
  refine raises_bind_zero (raises_ofSearching (raises_report _)) fun _ => ?_
  exact raises_bind_zero (raises_throw _) fun _ => hrest

/-- The most evaluations that one search of a run makes. -/
def searchBudget (u : Setup K σ ρ) : Nat :=
  u.config.lineSearch.budget u.config.searchParams.maxIterations

theorem raises_searchFrom (t : RunState K (Counted σ) ρ) :
    Raises Workspace.evaluations (searchBudget u) (searchFrom u.counted t) := by
  rw [searchFrom_counted]
  exact SearchKind.raises_search u.config.lineSearch

/-- **An iteration costs no more than one search may**, however it ends. -/
theorem raises_iterateWith :
    Raises RunState.evaluations (searchBudget u) (iterateWith u.counted hooks) := by
  have hassess : Raises RunState.evaluations 0 (assessWith u.counted) :=
    fun s => Nat.le_of_eq (congrArg RunState.evaluations (assessWith_snd u.counted s))
  refine Raises.mono (n := 0 + searchBudget u)
    (raises_bind hassess fun ⟨norm, reason⟩ => ?_) (Nat.le_of_eq (Nat.zero_add _))
  cases reason with
  | some reason => exact (raises_pure _).mono (Nat.zero_le _)
  | none =>
    have hsearch : Raises RunState.evaluations (searchBudget u) (search u.counted) := fun t =>
      raises_attempt (raises_searchFrom t) t
    refine Raises.mono (n := 0 + (searchBudget u + 0))
      (raises_bind (raises_ofHook _) fun _ => raises_bind hsearch fun found => ?_) (by omega)
    split
    · exact raises_bind_zero (raises_advanceWith norm _) fun _ => raises_pure _
    · refine raises_bind_zero raises_get fun s => ?_
      exact raises_bind_zero (raises_ofSearching (raises_report _)) fun _ => raises_pure _
    · exact raises_throw _

/-! ## Steps of a run -/

/-- **What an iteration that takes a step does to the sums**: there was no reason to stop before it,
and it is one search and one value more. -/
theorem sums_of_step (h : iterateWith u hooks r = (.ok none, r')) :
    (∀ limit, u.config.criterion.maxIterations = some limit → r.iterate.iteration < limit) ∧
    (∀ limit, u.config.criterion.maxFunctionEvaluations = some limit →
      r.functionEvaluations < limit) ∧
    r'.functionEvaluations ≤ r.functionEvaluations + searchBudget u ∧
    r'.history.size = r.history.size + 1 := by
  obtain ⟨norm, t, a, work, t', steps, rfl⟩ := stepsWith_of_iterateWith h
  obtain ⟨_, -, rfl⟩ := ofHook_eq_ok.1 steps.steered
  obtain ⟨_, -, rfl⟩ := ofHook_eq_ok.1 steps.learnt
  refine ⟨fun limit => StoppingRule.lt_of_reason?_eq_none steps.goes_on,
    fun limit => StoppingRule.evaluations_lt_of_reason?_eq_none steps.goes_on, ?_,
    Array.size_push _⟩
  exact Nat.add_le_add_left (SearchKind.functionEvaluations_le steps.found) _

theorem iteration_lt_of_step (hc : hooks.Counting u.manifold)
    (h : iterateWith u hooks r = (.ok none, r')) :
    r.iterate.iteration < r'.iterate.iteration := by
  obtain ⟨norm, t, a, work, t', steps, rfl⟩ := stepsWith_of_iterateWith h
  obtain ⟨s₁, hsteer, rfl⟩ := ofHook_eq_ok.1 steps.steered
  obtain ⟨s₂, hlearn, rfl⟩ := ofHook_eq_ok.1 steps.learnt
  calc r.iterate.iteration ≤ s₁.iterate.iteration := hc.steer hsteer
    _ < s₁.iterate.iteration + 1 := Nat.lt_succ_self _
    _ ≤ s₂.iterate.iteration := hc.learn hlearn

/-- **Where as many iterations are counted as may be, an iteration does not search.** -/
theorem iterateWith_of_le (hm : u.config.criterion.maxIterations = some m)
    (h : m ≤ r.iterate.iteration) : (iterateWith u hooks r).2 = r := by
  have hsame := assessWith_snd u r
  rw [iterateWith, bind_apply]
  rcases hassess : assessWith u r with ⟨e | ⟨norm, reason⟩, r₁⟩
  all_goals
    rw [hassess] at hsame
    obtain rfl : r₁ = r := hsame
  · rfl
  obtain ⟨-, hreason, -⟩ := assessWith_eq_ok.1 hassess
  cases reason with
  | some reason => rfl
  | none => exact absurd (StoppingRule.lt_of_reason?_eq_none hreason hm) (Nat.not_lt.2 h)

/-- **A loop ends before a longer one could differ from it**: an iteration more than there are steps
left is enough. -/
theorem loopWith_eq_loopWith (hm : u.config.criterion.maxIterations = some m)
    (hc : hooks.Counting u.manifold) {b b' : Nat} (hb : m - r.iterate.iteration < b)
    (hb' : m - r.iterate.iteration < b') : loopWith u hooks b r = loopWith u hooks b' r := by
  induction b generalizing b' r with
  | zero => exact absurd hb (Nat.not_lt_zero _)
  | succ b ih =>
    obtain ⟨b', rfl⟩ := Nat.exists_eq_succ_of_ne_zero (Nat.ne_zero_of_lt hb')
    refine bind_congr_at rfl fun outcome r' hiterate => ?_
    cases outcome with
    | some outcome => rfl
    | none =>
      have hlt := (sums_of_step hiterate).1 m hm
      have hnext := iteration_lt_of_step hc hiterate
      exact ih (by omega) (by omega)

theorem evaluations_iterateWith_le (hm : u.config.criterion.maxIterations = some m)
    (r : RunState K (Counted σ) ρ) : (iterateWith u.counted hooks r).2.evaluations ≤
      r.evaluations + searchBudget u * (m - r.iterate.iteration) := by
  by_cases h : m ≤ r.iterate.iteration
  · rw [iterateWith_of_le (u := u.counted) hm h]
    exact Nat.le_add_right _ _
  · calc (iterateWith u.counted hooks r).2.evaluations ≤ r.evaluations + searchBudget u :=
        raises_iterateWith r
      _ ≤ r.evaluations + searchBudget u * (m - r.iterate.iteration) :=
        Nat.add_le_add_left (Nat.le_mul_of_pos_right _ (by omega)) _

theorem evaluations_loopWith_le (hm : u.config.criterion.maxIterations = some m)
    (hc : hooks.Counting u.manifold) (b : Nat) (r : RunState K (Counted σ) ρ) :
    (loopWith u.counted hooks b r).2.evaluations ≤
      r.evaluations + searchBudget u * (m - r.iterate.iteration) := by
  induction b generalizing r with
  | zero => exact Nat.le_add_right _ _
  | succ b ih =>
    have hends : (iterateWith u.counted hooks r).2.evaluations ≤
        r.evaluations + searchBudget u * (m - r.iterate.iteration) :=
      evaluations_iterateWith_le hm r
    have hraises : (iterateWith u.counted hooks r).2.evaluations ≤
        r.evaluations + searchBudget u := raises_iterateWith r
    rw [loopWith, bind_apply]
    rcases hiterate : iterateWith u.counted hooks r with ⟨e | outcome, r'⟩
    all_goals rw [hiterate] at hends hraises
    · exact hends
    cases outcome with
    | some outcome => exact hends
    | none =>
      have hlt : r.iterate.iteration < m := (sums_of_step (u := u.counted) hiterate).1 m hm
      have hnext : r.iterate.iteration < r'.iterate.iteration :=
        iteration_lt_of_step (u := u.counted) hc hiterate
      have hstep : r'.evaluations ≤ r.evaluations + searchBudget u := hraises
      have hleft : m - r'.iterate.iteration + 1 ≤ m - r.iterate.iteration := by omega
      calc (loopWith u.counted hooks b r').2.evaluations
          ≤ r'.evaluations + searchBudget u * (m - r'.iterate.iteration) := ih r'
        _ ≤ r.evaluations + searchBudget u * (m - r'.iterate.iteration + 1) := by
          rw [Nat.mul_succ]
          omega
        _ ≤ r.evaluations + searchBudget u * (m - r.iterate.iteration) :=
          Nat.add_le_add_left (Nat.mul_le_mul_left _ hleft) _

theorem evaluations_finishWith_le (hm : u.config.criterion.maxIterations = some m)
    (hc : hooks.Counting u.manifold) (r : RunState K (Counted σ) ρ) :
    (finishWith u.counted hooks r).2.evaluations ≤
      r.evaluations + searchBudget u * (m - r.iterate.iteration) := by
  have hloop := evaluations_loopWith_le hm hc UInt64.size r
  rw [finishWith, bind_apply]
  rcases hr : loopWith u.counted hooks UInt64.size r with ⟨e | ⟨reason, norm⟩, r'⟩
  all_goals
    rw [hr] at hloop
    exact hloop

end Running

/-! ## A whole run -/

namespace Setup

open Running

variable [Scalar K] {u : Setup K σ ρ} {hooks : Hooks K ρ} {m n : Nat} {start : ρ} {state : σ}
variable {point : Vec K} {r : RunState K σ ρ}

/-- What precedes a run costs one evaluation at most. -/
theorem raises_begin : Raises Workspace.evaluations 1 (u.counted.begin start point) := by
  have hchecked {β : Type} (m : Checked β) :
      Raises Workspace.evaluations 0 (.ofChecked m : Searching K (Counted σ) β) :=
    fun _ => Nat.le_refl _
  have hevaluate : Raises Workspace.evaluations 1 (u.problem.counted.evaluate point) := by
    intro w
    obtain ⟨c, hc⟩ := Problem.evaluate_snd (p := u.problem.counted) point w
    rw [hc]
    exact Nat.le_refl _
  have hrest : Raises Workspace.evaluations 1 (do
      Searching.ofChecked (Checked.ofExcept u.config.searchParams.validate)
      Searching.report (Running.started u.counted)
      let answer ← u.problem.counted.evaluate point
      return .start point answer.1 answer.2 u.config.lineSearch :
        Searching K (Counted σ) (Iterate K)) := by
    refine Raises.mono (n := 0 + (0 + (1 + 0)))
      (raises_bind (hchecked _) fun _ => raises_bind (raises_report _) fun _ => ?_) (by omega)
    exact raises_bind hevaluate fun _ => raises_pure _
  refine Raises.mono (n := 0 + 1) (raises_bind (raises_report _) fun _ => ?_) (by omega)
  have hannounced : u.counted.rule.announce start = u.rule.announce start := rfl
  rw [hannounced]
  cases u.rule.announce start with
  | error e =>
    exact Raises.mono (n := 0 + 1) (raises_bind (raises_throw _) fun _ => hrest) (by omega)
  | ok es =>
    exact Raises.mono (n := 0 + 1) (raises_bind (raises_reportAll es) fun _ => hrest) (by omega)

/-- **What a run asks of a counted objective**, however it ends. -/
theorem evaluations_runWith_le (hm : u.config.criterion.maxIterations = some m)
    (hc : hooks.Counting u.manifold) :
    (u.counted.runWith hooks start { inner := state } point).2.objective.tally.values ≤
      1 + searchBudget u * m := by
  have hbegin : (u.counted.begin start point { objective := { inner := state } }).2.evaluations ≤
      0 + 1 := raises_begin _
  unfold runWith
  rcases hit : u.counted.begin start point { objective := { inner := state } } with
    ⟨e | it, work⟩
  all_goals
    rw [hit] at hbegin
    have hwork : work.evaluations ≤ 0 + 1 := hbegin
  · show work.evaluations ≤ _
    omega
  · obtain ⟨_, value, gradient, -, -, -, rfl⟩ := begin_inv hit
    have hfinish := evaluations_finishWith_le hm hc
      (initial (.start point value gradient u.counted.config.lineSearch) start work)
    refine Nat.le_trans hfinish ?_
    show work.evaluations + searchBudget u * (m - 0) ≤ _
    rw [Nat.sub_zero]
    omega

namespace Reaches

theorem size_eq (h : u.Reaches hooks start state point n r) : r.history.size = n + 1 := by
  induction h with
  | first begun => rfl
  | next reached moved ih => rw [(sums_of_step moved).2.2.2, ih]

theorem le_iteration (hc : hooks.Counting u.manifold)
    (h : u.Reaches hooks start state point n r) : n ≤ r.iterate.iteration := by
  induction h with
  | first begun => exact Nat.zero_le _
  | next reached moved ih => exact Nat.lt_of_le_of_lt ih (iteration_lt_of_step hc moved)

theorem le_limit (hm : u.config.criterion.maxIterations = some m)
    (hc : hooks.Counting u.manifold) (h : u.Reaches hooks start state point n r) : n ≤ m := by
  cases h with
  | first begun => exact Nat.zero_le m
  | next reached moved =>
    exact Nat.lt_of_le_of_lt (reached.le_iteration hc) ((sums_of_step moved).1 m hm)

/-- The number of evaluations between iterations: only the last search goes beyond the limit. -/
theorem functionEvaluations_le {limit : Nat}
    (hlimit : u.config.criterion.maxFunctionEvaluations = some limit)
    (h : u.Reaches hooks start state point n r) :
    r.functionEvaluations ≤ max 1 (limit + searchBudget u - 1) := by
  induction h with
  | first begun => exact Nat.le_max_left _ _
  | next reached moved ih =>
    obtain ⟨-, hbefore, hafter, -⟩ := sums_of_step moved
    have hlt := hbefore limit hlimit
    exact Nat.le_trans (by omega) (Nat.le_max_right _ _)

end Reaches

theorem exists_reaches_of_runWith {result : Result K} {after : Aftermath K σ ρ}
    (h : u.runWith hooks start state point = (.ok result, after)) :
    ∃ n r, u.Reaches hooks start state point n r ∧ result.history.size = n + 1 ∧
      result.functionEvaluations = r.functionEvaluations := by
  obtain ⟨n, r, r', reason, norm, reached, ends, rfl⟩ := runWith_eq_ok h
  obtain ⟨hevaluations, hhistory⟩ := sums_of_iterateWith ends
  exact ⟨n, r, reached, (congrArg Array.size hhistory).trans reached.size_eq, hevaluations⟩

/-- **A run stays within its budgets**, however it ends, if its rule never lowers the number of
iterations. The limit on evaluations is exceeded by one search at most, whatever the rule writes. -/
theorem runWith_within_budget (u : Setup K σ ρ) (hooks : Hooks K ρ) (start : ρ) (state : σ)
    (point : Vec K) :
    (hooks.Counting u.manifold → ∀ m, u.config.criterion.maxIterations = some m →
      (∀ n r, u.Reaches hooks start state point n r →
        n ≤ m ∧ (n = m → (iterateWith u hooks r).2 = r)) ∧
      (∀ it work budget, u.begin start point { objective := state } = (.ok it, work) →
        m < budget → loopWith u hooks budget (initial it start work) =
          loopWith u hooks (m + 1) (initial it start work)) ∧
      (u.counted.runWith hooks start { inner := state } point).2.objective.tally.values ≤
        1 + u.config.lineSearch.budget u.config.searchParams.maxIterations * m ∧
      ∀ result after, u.runWith hooks start state point = (.ok result, after) →
        result.history.size ≤ m + 1) ∧
    (∀ (p : Problem K σ) (kind : SearchKind) (params : SearchParams K) (x : Vec K) (value : K)
      (gradient direction : Vec K) (w : Workspace K (Counted σ)),
      (kind.search p.counted params x value gradient direction w).2.objective.tally.values ≤
        w.objective.tally.values + kind.budget params.maxIterations) ∧
    ∀ result after, u.runWith hooks start state point = (.ok result, after) →
      ∀ limit, u.config.criterion.maxFunctionEvaluations = some limit →
        result.functionEvaluations ≤
          max 1 (limit + u.config.lineSearch.budget u.config.searchParams.maxIterations - 1) := by
  refine ⟨fun hc m hm => ⟨fun n r reached => ?_, fun it work budget begun hbudget => ?_,
    evaluations_runWith_le hm hc, fun result after hrun => ?_⟩,
    fun p kind params x value gradient direction w => SearchKind.raises_search kind w,
    fun result after hrun limit hlimit => ?_⟩
  · refine ⟨reached.le_limit hm hc, ?_⟩
    rintro rfl
    exact iterateWith_of_le hm (reached.le_iteration hc)
  · obtain ⟨_, _, _, -, -, -, rfl⟩ := begin_inv begun
    exact loopWith_eq_loopWith hm hc hbudget (Nat.lt_succ_self m)
  · obtain ⟨n, r, reached, hsize, -⟩ := exists_reaches_of_runWith hrun
    rw [hsize]
    exact Nat.succ_le_succ (reached.le_limit hm hc)
  · obtain ⟨n, r, reached, -, hevaluations⟩ := exists_reaches_of_runWith hrun
    rw [hevaluations]
    exact reached.functionEvaluations_le hlimit

/-! ## Rules that write the number of iterations -/

/-- Steepest descent that writes the number of iterations anew after each step. -/
def recounting (recount : Nat → Nat) : Hooks Float Unit :=
  { (steepestDescent false).hooks with
    learn := fun _ => modify fun h =>
      { h with iterate := { h.iterate with iteration := recount h.iterate.iteration } } }

theorem recounting_counting {recount : Nat → Nat} (h : ∀ n, n ≤ recount n) (M : Manifold Float) :
    (recounting recount).Counting M where
  steer := ((steepestDescent false).hooks_counting M).steer
  learn {h₁ h₂} hlearn := by
    cases hlearn
    exact h h₁.iterate.iteration

/-- The descent for `2x²` with two iterations allowed, and two evaluations before the last. -/
def shortParabola : Setup Float Unit Unit :=
  { steepParabola 20 with
    config.criterion := { maxIterations := some 2, maxFunctionEvaluations := some 2 } }

/-- A rule that counts each step twice takes one step. -/
theorem runWith_within_budget_shortParabola :
    (shortParabola.counted.runWith (recounting (· + 1)) () { inner := () }
      [1]).2.objective.tally.values ≤ 43 ∧
    ∃ result after, shortParabola.runWith (recounting (· + 1)) () () [1] = (.ok result, after) ∧
      result.iterations = 2 ∧ result.functionEvaluations = 5 ∧ result.history.size ≤ 3 ∧
      result.functionEvaluations ≤ 22 := by
  obtain ⟨hbudget, -, hevaluations⟩ :=
    runWith_within_budget shortParabola (recounting (· + 1)) () () [1]
  obtain ⟨-, -, htally, hsize⟩ := hbudget (recounting_counting Nat.le_succ _) 2 rfl
  obtain ⟨result, after, hrun, hiterations, hcount⟩ := exists_of_yields
    (x := shortParabola.runWith (recounting (· + 1)) () () [1])
    (P := fun r => r.iterations = 2 ∧ r.functionEvaluations = 5) (by decide +kernel)
  exact ⟨htally, result, after, hrun, hiterations, hcount, hsize result after hrun,
    hevaluations result after hrun 2 rfl⟩

/-- Steepest descent for `x²/4` on the line until the value is small, with one iteration allowed
and one trial for each search. -/
def gentleParabola : Setup Float Unit Unit :=
  { steepParabola 1 with
    config.criterion := { maxIterations := some 1, targetValue := some 0.02 }
    objective := (⟨⟨1, [[0.5]], by decide⟩, [0], 0⟩ : Quadratic Float).objective }

/-- **A rule that lowers the number of iterations takes more steps than are allowed**: two steps
with five evaluations, where one step with two more is allowed. -/
theorem runWith_exceeds_budget :
    gentleParabola.config.criterion.maxIterations = some 1 ∧
    ∃ result after,
      gentleParabola.counted.runWith (recounting fun _ => 0) () { inner := () } [1] =
        (.ok result, after) ∧
      result.history.size = 1 + 2 ∧
      1 + gentleParabola.config.lineSearch.budget
          gentleParabola.config.searchParams.maxIterations * 1 < after.objective.tally.values := by
  obtain ⟨result, after, hrun, hsize⟩ := exists_of_yields
    (x := gentleParabola.counted.runWith (recounting fun _ => 0) () { inner := () } [1])
    (P := fun r => r.history.size = 3) (by decide +kernel)
  have hafter : (gentleParabola.counted.runWith (recounting fun _ => 0) () { inner := () }
      [1]).2.objective.tally.values = 5 := by decide +kernel
  rw [hrun] at hafter
  refine ⟨rfl, result, after, hrun, hsize, ?_⟩
  show 3 < after.objective.tally.values
  rw [hafter]
  decide

/-! ## The run of a direction rule -/

theorem Visits.size_eq (h : u.Visits start state point r) :
    r.history.size = r.iterate.iteration + 1 := by
  induction h with
  | first begun =>
    obtain ⟨_, _, _, -, -, -, rfl⟩ := begin_inv begun
    rfl
  | next visited moved ih => exact size_of_iterate moved ih

/-- **The run of a direction rule stays within its budgets**, for it does not write the number
of iterations. -/
theorem run_within_budget (hm : u.config.criterion.maxIterations = some m) :
    (u.counted.run start { inner := state } point).2.objective.tally.values ≤
      1 + searchBudget u * m ∧
    ∀ result after, u.run start state point = (.ok result, after) → result.iterations ≤ m := by
  have hc : u.rule.hooks.Counting u.manifold := u.rule.hooks_counting u.manifold
  refine ⟨?_, fun result after hrun => ?_⟩
  · rw [← runWith_hooks]
    exact evaluations_runWith_le hm hc
  · have hsize : result.history.size = result.iterations + 1 := by
      obtain ⟨s, s', reason, norm, visited, ends, rfl⟩ := run_eq_ok hrun
      rw [ends.concluded_eq]
      exact visited.size_eq
    rw [← runWith_hooks] at hrun
    obtain ⟨n, r, reached, hsteps, -⟩ := exists_reaches_of_runWith hrun
    have hle := reached.le_limit hm hc
    omega

end Setup

end GeodesicDescent
