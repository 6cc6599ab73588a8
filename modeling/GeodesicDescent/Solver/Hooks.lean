import GeodesicDescent.Solver.Run

/-!
# Runs whose rule writes all that it is handed

A direction rule writes the direction, the cache and its own state. A run hands its rule more than
that, for it also hands over where it stands, the number of iterations included. Hooks are what a
rule does that may write all of it.

* `Hand`: what a run hands to its rule;
* `Hooks`: what a rule does before a search and after a step;
* `DirectionRule.hooks`: a direction rule is one that leaves alone where the run stands;
* `Running.advanceWith`, `Running.iterateWith`: a step taken and one iteration, with hooks;
* `Setup.runWith`: the run with hooks in the place of what the rule does.
-/

namespace GeodesicDescent

variable {K σ ρ α : Type}

/-- What a run hands to its rule: where it stands, the direction, the cache and the rule's state. -/
structure Hand (K ρ : Type) where
  iterate : Iterate K
  direction : Vec K
  cache : Cache K
  rule : ρ

/-- Computations of a rule over all that it is handed. -/
abbrev Hooking (K ρ α : Type) := ExceptT (Fault (SolverError K)) (StateM (Hand K ρ)) α

/-- A computation of a direction rule, which sees where the run stands. -/
def Hooking.ofSteering (m : Iterate K → Steering K ρ α) : Hooking K ρ α := fun h =>
  let (result, heading) := m h.iterate ⟨h.direction, h.cache, h.rule⟩
  (result, { h with
    direction := heading.direction
    cache := heading.cache
    rule := heading.rule })

variable [Scalar K]

/-- What a rule does, with a state of type `ρ`, if it may write all that it is handed. -/
structure Hooks (K ρ : Type) [Scalar K] where
  /-- Prepares the next search. -/
  steer : Manifold K → Hooking K ρ Unit
  /-- Is done after a step, once the step is counted. -/
  learn : Manifold K → Hooking K ρ Unit
  /-- What a run reports of the rule after an iteration. -/
  report : Hand K ρ → List (Event K) := fun _ => []

/-- What a direction rule does. -/
def DirectionRule.hooks (rule : DirectionRule K ρ) : Hooks K ρ where
  steer M := .ofSteering (rule.steer M)
  learn M := .ofSteering (rule.learn M)
  report h := rule.report h.rule h.iterate

omit [Scalar K] in
def RunState.hand (s : RunState K σ ρ) : Hand K ρ :=
  ⟨s.iterate, s.direction, s.work.cache, s.rule⟩

omit [Scalar K] in
/-- One iteration more. The number has no bound here: a rule that raises it to the largest that a
word holds is not told of the overflow. -/
def RunState.counted (s : RunState K σ ρ) : RunState K σ ρ :=
  { s with iterate := { s.iterate with iteration := s.iterate.iteration + 1 } }

namespace Running

omit [Scalar K] in
/-- A computation of the rule. -/
def ofHook (m : Hooking K ρ α) : Running K σ ρ α := fun s =>
  let (result, h) := m s.hand
  (result, { s with
    iterate := h.iterate
    direction := h.direction
    work := { s.work with cache := h.cache }
    rule := h.rule })

/-- The gradient norm and the reason to stop. The time is that after the steps taken, whatever the
number of iterations says. -/
def assessWith (u : Setup K σ ρ) : Running K σ ρ (K × Option Reason) := do
  let s ← get
  assess { u with clock := fun _ => u.clock (s.history.size - 1) }

/-- Moves on to the point of an accepted step, and from there to where the rule leads. -/
def advanceWith (u : Setup K σ ρ) (hooks : Hooks K ρ) (norm : K) (step : Accepted K) :
    Running K σ ρ Unit := do
  modify fun s => enter s step
  let it := (← get).iterate
  if u.manifold.containsPoint it.nextPoint Scalar.pointTolerance = false then
    ofSearching (.report (leftManifold it.iteration))
    throw (.refused (.geometry (.numerical
      s!"iterate {it.iteration + 1} left {u.manifold.name} after the line search")))
  modify RunState.counted
  ofHook (hooks.learn u.manifold)
  let s ← get
  ofSearching (.report (completed s.iterate.iteration s.iterate.nextValue s.iterate.step norm))
  ofSearching (.reportAll (hooks.report s.hand))
  modify fun s => { s with
    history := s.history.push s.iterate.nextValue
    previousValue := some s.iterate.value
    iterate := s.iterate.shift }

/-- One iteration: the reason to stop with the gradient norm, or nothing after a step. -/
def iterateWith (u : Setup K σ ρ) (hooks : Hooks K ρ) : Running K σ ρ (Option (Reason × K)) := do
  let (norm, reason) ← assessWith u
  if let some reason := reason then return some (reason, norm)
  ofHook (hooks.steer u.manifold)
  match ← search u with
  | .ok step =>
    advanceWith u hooks norm step
    return none
  | .error (.refused (.lineSearchFailed reason ..)) =>
    ofSearching (.report (searchFailed (← get).iterate.iteration reason))
    return some (.lineSearchFailed, norm)
  | .error fault => throw fault

/-- Iterates until there is a reason to stop. -/
def loopWith (u : Setup K σ ρ) (hooks : Hooks K ρ) : Nat → Running K σ ρ (Reason × K)
  | 0 => throw .countOverflow
  | budget + 1 => do
    match ← iterateWith u hooks with
    | some outcome => return outcome
    | none => loopWith u hooks budget

/-- Iterates to the end and reports it. -/
def finishWith (u : Setup K σ ρ) (hooks : Hooks K ρ) : Running K σ ρ (Result K) := do
  let (reason, norm) ← loopWith u hooks UInt64.size
  let s ← get
  ofSearching (.report (finished u s.iterate.iteration s.iterate.value norm reason))
  return {
    point := s.iterate.point
    value := s.iterate.value
    gradientNorm := some norm
    iterations := s.iterate.iteration
    functionEvaluations := s.functionEvaluations
    gradientEvaluations := s.gradientEvaluations
    reason
    history := s.history }

end Running

/-- Runs the solver from a point, with hooks in the place of what the rule does. The rule is
announced as it is, and says which derivatives are made use of. -/
def Setup.runWith (u : Setup K σ ρ) (hooks : Hooks K ρ) (start : ρ) (objective : σ)
    (point : Vec K) : Except (Fault (SolverError K)) (Result K) × Aftermath K σ ρ :=
  match (u.begin start point) { objective } with
  | (.error fault, work) =>
    (.error fault, { rule := start, objective := work.objective, trace := work.trace })
  | (.ok it, work) =>
    let (result, s) := Running.finishWith u hooks (initial it start work)
    (result, { rule := s.rule, objective := s.work.objective, trace := s.work.trace })

end GeodesicDescent
