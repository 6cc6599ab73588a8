import GeodesicDescent.Direction.Rule
import GeodesicDescent.LineSearch.Backtracking
import GeodesicDescent.LineSearch.StrongWolfe

/-!
# A run of the solver

From a start the solver steers, searches and learns until the criterion is met, the line search
fails or something faults. The state of a run is one value, and a run is the repetition of one
step on it.

* `Setup`: what does not change during a run;
* `RunState`, `Running`: what changes, and computations over it;
* `Running.assess`, `Running.advance`, `Running.iterate`: the reason to stop, a step taken, and
  one iteration out of both;
* `Setup.begin`: the checks and evaluations before the first iteration;
* `Setup.run`: the run, with what it leaves behind.
-/

namespace GeodesicDescent

variable {K σ ρ α : Type} [Scalar K]

/-- What does not change during a run. -/
structure Setup (K σ ρ : Type) [Scalar K] where
  config : SolverOptions K
  rule : DirectionRule K ρ
  objective : Objective K σ
  manifold : Manifold K
  /-- The time since the start, in nanoseconds, when the criterion is checked after a number of
  iterations. -/
  clock : Nat → Nat

/-- The problem that is searched on: second derivatives are made use of only where rule and
objective both have them. -/
def Setup.problem (u : Setup K σ ρ) : Problem K σ where
  objective := u.objective
  manifold := u.manifold
  usage := u.rule.usage.limitedTo u.objective

/-- What changes during a run. -/
structure RunState (K σ ρ : Type) where
  iterate : Iterate K
  direction : Vec K
  rule : ρ
  work : Workspace K σ
  functionEvaluations : Nat
  gradientEvaluations : Nat
  history : Array K
  previousValue : Option K := none

/-- Computations over the state of a run. -/
abbrev Running (K σ ρ α : Type) := ExceptT (Fault (SolverError K)) (StateM (RunState K σ ρ)) α

/-- The line search of a kind. -/
def SearchKind.search (kind : SearchKind) (p : Problem K σ) (params : SearchParams K)
    (point : Vec K) (value : K) (gradient direction : Vec K) : Searching K σ (Accepted K) :=
  match kind with
  | .armijo => Backtracking.search p params point value gradient direction
  | .strongWolfe => StrongWolfe.search p params point value gradient direction

/-- The name under which a line search is reported. -/
def SearchKind.searchName : SearchKind → String
  | .armijo => "Backtracking"
  | .strongWolfe => "StrongWolfe"

namespace Running

omit [Scalar K] in
/-- A computation of a search. -/
def ofSearching (m : Searching K σ α) : Running K σ ρ α := fun s =>
  let (result, work) := m s.work
  (result, { s with work })

omit [Scalar K] in
/-- A computation of a search whose refusal is a result. -/
def attempt (m : Searching K σ α) : Running K σ ρ (Except (Fault (SolverError K)) α) := fun s =>
  let (result, work) := m s.work
  (.ok result, { s with work })

omit [Scalar K] in
/-- A computation of the direction rule. -/
def ofSteering (m : Steering K ρ α) : Running K σ ρ α := fun s =>
  let (result, h) := m { direction := s.direction, cache := s.work.cache, rule := s.rule }
  (result, { s with
    direction := h.direction
    work := { s.work with cache := h.cache }
    rule := h.rule })

/-! ## Events -/

/-- How a limit is shown. -/
def showLimit : Option Nat → String
  | some n => "Some(" ++ toString n ++ ")"
  | none => "None"

/-- A run starts. -/
def started (u : Setup K σ ρ) : Event K where
  level := .info
  message := "starting line-search solver"
  fields := [("solver", .text u.rule.name), ("manifold", .text u.manifold.name),
    ("line_search", .text u.config.lineSearch.searchName),
    ("max_iterations", .text (showLimit u.config.criterion.maxIterations))]

omit [Scalar K] in
/-- A search found no step. -/
def searchFailed (iteration : Nat) (reason : String) : Event K where
  level := .warn
  message := "line search failed"
  fields := [("iteration", .count iteration), ("reason", .text reason)]

omit [Scalar K] in
/-- A step led out of the manifold. -/
def leftManifold (iteration : Nat) : Event K where
  level := .error
  message := "accepted step left the manifold"
  fields := [("iteration", .count iteration)]

omit [Scalar K] in
/-- An iteration ended at a value by a step; the gradient norm is that before the step. -/
def completed (iteration : Nat) (value step gradientNorm : K) : Event K where
  level := .debug
  message := "iteration completed"
  fields := [("iteration", .count iteration), ("value", .real value), ("step_size", .real step),
    ("gradient_norm", .real gradientNorm)]

/-- A run ended. -/
def finished (u : Setup K σ ρ) (iterations : Nat) (value gradientNorm : K) (reason : Reason) :
    Event K where
  level := .info
  message := "solver finished"
  fields := [("solver", .text u.rule.name), ("iterations", .count iterations),
    ("value", .real value), ("gradient_norm", .real gradientNorm), ("reason", .text reason.name)]

/-! ## One iteration -/

/-- The gradient norm at the current point, and the reason to stop there. -/
def assess (u : Setup K σ ρ) : Running K σ ρ (K × Option Reason) := do
  let s ← get
  let norm ← ofSearching (.ofChecked (u.manifold.norm s.iterate.point s.iterate.gradient))
  return (norm, u.config.criterion.reason? {
    iteration := s.iterate.iteration
    value := s.iterate.value
    previousValue := s.previousValue
    gradientNorm := norm
    functionEvaluations := s.functionEvaluations
    elapsed := u.clock s.iterate.iteration })

/-- Searches along the current direction. -/
def search (u : Setup K σ ρ) : Running K σ ρ (Except (Fault (SolverError K)) (Accepted K)) := do
  let s ← get
  attempt (u.config.lineSearch.search u.problem u.config.searchParams s.iterate.point
    s.iterate.value s.iterate.gradient s.direction)

/-- The state with an accepted step entered as the next point. -/
def enter (s : RunState K σ ρ) (step : Accepted K) : RunState K σ ρ :=
  { s with
    functionEvaluations := s.functionEvaluations + step.functionEvaluations
    gradientEvaluations := s.gradientEvaluations + step.gradientEvaluations
    iterate := { s.iterate with
      step := step.step
      displacement := Vec.scale s.direction step.step
      nextPoint := step.point
      nextValue := step.value
      nextGradient := step.gradient } }

/-- Moves on to the point of an accepted step: the rule learns from it, and the run goes on from
there. -/
def advance (u : Setup K σ ρ) (norm : K) (step : Accepted K) : Running K σ ρ Unit := do
  modify fun s => enter s step
  let it := (← get).iterate
  if u.manifold.containsPoint it.nextPoint Scalar.pointTolerance = false then
    ofSearching (.report (leftManifold it.iteration))
    throw (.refused (.geometry (.numerical
      s!"iterate {it.iteration + 1} left {u.manifold.name} after the line search")))
  let it := { it with iteration := it.iteration + 1 }
  modify fun s => { s with iterate := it }
  ofSteering (u.rule.learn u.manifold it)
  ofSearching (.report (completed it.iteration it.nextValue it.step norm))
  ofSearching (.reportAll (u.rule.report (← get).rule it))
  modify fun s => { s with
    history := s.history.push it.nextValue
    previousValue := some it.value
    iterate := it.shift }

/-- One iteration: the reason to stop with the gradient norm, or nothing after a step. -/
def iterate (u : Setup K σ ρ) : Running K σ ρ (Option (Reason × K)) := do
  let (norm, reason) ← assess u
  if let some reason := reason then return some (reason, norm)
  ofSteering (u.rule.steer u.manifold (← get).iterate)
  match ← search u with
  | .ok step =>
    advance u norm step
    return none
  | .error (.refused (.lineSearchFailed reason ..)) =>
    ofSearching (.report (searchFailed (← get).iterate.iteration reason))
    return some (.lineSearchFailed, norm)
  | .error fault => throw fault

/-- Iterates until there is a reason to stop. The number of iterations is a count of 64 bits. -/
def loop (u : Setup K σ ρ) : Nat → Running K σ ρ (Reason × K)
  | 0 => throw .countOverflow
  | budget + 1 => do
    match ← iterate u with
    | some outcome => return outcome
    | none => loop u budget

/-- Iterates to the end and reports it. -/
def finish (u : Setup K σ ρ) : Running K σ ρ (Result K) := do
  let (reason, norm) ← loop u UInt64.size
  let s ← get
  ofSearching (.report (finished u s.iterate.iteration s.iterate.value norm reason))
  return {
    point := s.iterate.point
    value := s.iterate.value
    gradientNorm := some norm
    iterations := s.iterate.iteration
    functionEvaluations := s.functionEvaluations
    gradientEvaluations := s.gradientEvaluations
    reason
    history := s.history }

end Running

/-! ## A whole run -/

/-- What a run leaves behind besides its outcome. -/
structure Aftermath (K σ ρ : Type) where
  rule : ρ
  objective : σ
  trace : Array (Event K)

namespace Setup

/-- What precedes the first iteration: parameters are checked and reported, and the start is
evaluated. -/
def begin (u : Setup K σ ρ) (start : ρ) (point : Vec K) : Searching K σ (Iterate K) := do
  .report u.manifold.parameters
  match u.rule.announce start with
  | .ok events => .reportAll events
  | .error e => throw (.refused e)
  .ofChecked (Checked.ofExcept u.config.searchParams.validate)
  .report (Running.started u)
  let (value, gradient) ← u.problem.evaluate point
  return .start point value gradient u.config.lineSearch

/-- The state in which the first iteration starts, after one evaluation of the start. -/
def initial (it : Iterate K) (start : ρ) (work : Workspace K σ) : RunState K σ ρ where
  iterate := it
  direction := Vec.zeros it.point.length
  rule := start
  work
  functionEvaluations := 1
  gradientEvaluations := 1
  history := #[it.value]

/-- Runs the solver from a point, with the given states of the rule and of the objective. -/
def run (u : Setup K σ ρ) (start : ρ) (objective : σ) (point : Vec K) :
    Except (Fault (SolverError K)) (Result K) × Aftermath K σ ρ :=
  match (u.begin start point) { objective } with
  | (.error fault, work) =>
    (.error fault, { rule := start, objective := work.objective, trace := work.trace })
  | (.ok it, work) =>
    let (result, s) := Running.finish u (initial it start work)
    (result, { rule := s.rule, objective := s.work.objective, trace := s.work.trace })

end Setup

end GeodesicDescent
