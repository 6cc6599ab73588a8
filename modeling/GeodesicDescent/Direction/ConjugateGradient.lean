import GeodesicDescent.Direction.CGConfig
import GeodesicDescent.Direction.Rule

/-!
# The conjugate gradient rule

The direction is the last one, carried to the new point and weighted, less the gradient there. It
falls back to the gradient alone at every restart, and where it would not lead downhill.

* `ConjugateGradient`: the state of the rule;
* `ConjugateGradient.weigh`: the weight and the vector it applies to, by the six formulas;
* `ConjugateGradient.steer`, `ConjugateGradient.learn`: the rule before a search and after a step;
* `ConjugateGradient.rule`: the direction rule.
-/

namespace GeodesicDescent

/-- The state of the conjugate gradient rule. -/
structure ConjugateGradient (K : Type) where
  config : CGConfig
  /-- The weight of the last direction. -/
  sigma : K
  /-- The vector that the weight applies to. -/
  zeta : Vec K := []
  /-- The change of the gradient, where the method uses it as such. -/
  gradientChange : Option (Vec K) := none
  /-- Whether the last direction is the gradient alone. -/
  restarted : Bool := false

/-- The weight of a vector in the next direction, and the change of the gradient if it is kept. -/
structure Weighing (K : Type) where
  sigma : K
  zeta : Vec K
  gradientChange : Option (Vec K) := none

namespace ConjugateGradient

variable {K : Type} [Scalar K]

/-- The rule before its first step. -/
def new (config : CGConfig) : ConjugateGradient K := { config, sigma := 0 }

/-- Named properties, in text. -/
def summary (r : ConjugateGradient K) : List (String × String) :=
  r.config.summary ++ [("name", "RCG")]

/-- Refuses a period of no iterations; else reports the configuration. -/
def announce (r : ConjugateGradient K) : Except (SolverError K) (List (Event K)) := do
  r.config.validate
  return [{
    level := .info
    message := "method parameters"
    fields := [("solver", .text "RCG"), ("man_dim", .count r.config.restartPeriod),
      ("method", .text r.config.method.name)] }]

/-- Keeps the prepared direction where it leads downhill, except at a restart. -/
def steer (M : Manifold K) (it : Iterate K) : Steering K (ConjugateGradient K) Unit := do
  let h ← get
  let slope ← .ofChecked (M.inner it.point h.direction it.gradient)
  let restarted := h.rule.config.restartsAt it.iteration || decide (-Scalar.epsilon ≤ slope)
  set { h with
    rule := { h.rule with restarted }
    direction := if restarted then Vec.neg it.gradient else h.direction }

/-- The weight of the last direction by a method, after a step. -/
def weigh (M : Manifold K) (it : Iterate K) (direction : Vec K) (method : CGMethod) :
    Cached K (Weighing K) := do
  let carry (v : Vec K) : Cached K (Vec K) :=
    M.transport it.point it.displacement it.nextPoint v
  let inner (u v : Vec K) : Checked K := M.inner it.nextPoint u v
  let g := it.nextGradient
  let oldSquared ← M.inner it.point it.gradient it.gradient
  match method with
  | .fletcherReeves =>
    let newSquared ← inner g g
    return { sigma := newSquared / oldSquared, zeta := ← carry direction }
  | .polakRibiereMod =>
    let change ← Vec.sub g (← carry it.gradient)
    let sigma := (← inner change g) / oldSquared
    if it.lineSearch = .strongWolfe ∧ sigma ≤ 0 then return { sigma := 0, zeta := change }
    else return { sigma, zeta := ← carry direction }
  | .hestenesStiefel =>
    let zeta ← carry direction
    let change ← Vec.sub g (← carry it.gradient)
    let along ← inner change g
    let across ← inner zeta change
    return { sigma := along / across, zeta, gradientChange := some change }
  | .frPr =>
    let change ← Vec.sub g (← carry it.gradient)
    let pr := (← inner change g) / oldSquared
    let fr := (← inner g g) / oldSquared
    let sigma := if pr < -fr then -fr else if fr < pr then fr else pr
    return { sigma, zeta := ← carry direction }
  | .daiYuan =>
    let zeta ← carry direction
    let change ← Vec.sub g (← carry it.gradient)
    let newSquared ← inner g g
    let across ← inner zeta change
    return { sigma := newSquared / across, zeta, gradientChange := some change }
  | .hagerZhang =>
    let zeta ← carry direction
    let change ← Vec.sub g (← carry it.gradient)
    let across ← inner change zeta
    let changeSquared ← inner change change
    let shifted ← Vec.axpy (-2.0 * changeSquared / across) zeta 1 change
    let along ← inner shifted g
    return { sigma := along / across, zeta, gradientChange := some shifted }

/-- Prepares the weighted direction after a step, unless the next iteration restarts. -/
def learn (M : Manifold K) (it : Iterate K) : Steering K (ConjugateGradient K) Unit := do
  let h ← get
  if h.rule.config.restartsAt it.iteration then return
  let w ← .ofCached (weigh M it h.direction h.rule.config.method)
  let direction ← .ofChecked (Vec.axpy w.sigma w.zeta (-1) it.nextGradient)
  if h.direction.length ≠ direction.length then throw .shapeClash
  modify fun h => { h with
    direction
    rule := { h.rule with sigma := w.sigma, zeta := w.zeta, gradientChange := w.gradientChange } }

/-- What a run reports of the direction after an iteration. -/
def report (r : ConjugateGradient K) (it : Iterate K) : List (Event K) :=
  [{ level := .debug
     message := "RCG direction"
     fields := [("iteration", .count it.iteration), ("sigma", .real r.sigma),
       ("reset", .flag r.restarted)] }]

/-- The conjugate gradient rule. -/
def rule : DirectionRule K (ConjugateGradient K) where
  name := "RCG"
  usage := .firstOrder
  announce := announce
  steer := steer
  learn := learn
  report := report

end ConjugateGradient

end GeodesicDescent
