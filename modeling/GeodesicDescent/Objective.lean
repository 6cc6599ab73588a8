import GeodesicDescent.Manifold

/-!
# Objectives

The function that is minimised, by what can be asked of it at a point. An objective may carry a
state, for what it answers can depend on how often it was asked.

* `Eval`: computations of an objective over its state;
* `Objective`: value, gradient and Hessian products, with defaults built on the value alone;
* `Objective.differenceGradient`: central differences of the value;
* `Objective.counted`: the same objective with a tally of what it was asked;
* `Usage.limitedTo`: second derivatives are made use of only where an objective offers them.
-/

namespace GeodesicDescent

variable {K σ : Type} [Scalar K]

/-- Computations over the state of an objective. -/
abbrev Eval (σ α : Type) := ExceptT (Fault GeometryError) (StateM σ) α

/-- Central differences of `value` with step `h` in each coordinate of `after`, left to right; the
coordinates in `before` stay as they are. -/
def centralDifferences (value : Vec K → Eval σ K) (h : K) : (before after : Vec K) → Eval σ (Vec K)
  | _, [] => return []
  | before, t :: after => do
    let up ← value (before ++ (t + h) :: after)
    let down ← value (before ++ (t - h) :: after)
    let rest ← centralDifferences value h (before ++ [t]) after
    return (up - down) / (h + h) :: rest

/-- The gradient by central differences, with the root of the scalar's precision as step. -/
def gradientByDifferences (value : Vec K → Eval σ K) (point : Vec K) : Eval σ (Vec K) :=
  centralDifferences value (Scalar.sqrt Scalar.epsilon) [] point

/-- A function to be minimised, over a state of type `σ`. -/
structure Objective (K σ : Type) [Scalar K] where
  eval : (point : Vec K) → Eval σ K
  evalWithGradient : (point : Vec K) → Eval σ (K × Vec K) := fun point => do
    let value ← eval point
    let gradient ← gradientByDifferences eval point
    return (value, gradient)
  gradient : (point : Vec K) → Eval σ (Vec K) := fun point => do
    let (_, gradient) ← evalWithGradient point
    return gradient
  /-- The Hessian at a point applied to a vector. -/
  hessianProduct : (point vector : Vec K) → Eval σ (Vec K) := fun _ _ =>
    throw (.refused (.notImplemented
      "Hessian-vector product not implemented for this cost function"))
  /-- Whether Hessian products are offered. -/
  offersHessian : Bool := false

namespace Objective

/-- The gradient by central differences of the objective's value. -/
def differenceGradient (f : Objective K σ) (point : Vec K) : Eval σ (Vec K) :=
  gradientByDifferences f.eval point

/-! ## Counting -/

/-- How often values, gradients and Hessian products were asked for. -/
structure Tally where
  values : Nat := 0
  gradients : Nat := 0
  hessians : Nat := 0
  deriving DecidableEq, Repr

/-- The state of a counted objective: that of the objective, and the tally. -/
structure Counted (σ : Type) where
  inner : σ
  tally : Tally := {}

/-- A computation of the objective inside, asked for once more. -/
def Counted.ask {α : Type} (note : Tally → Tally) (m : Eval σ α) : Eval (Counted σ) α := fun s =>
  let (result, inner) := m s.inner
  (result, { inner, tally := note s.tally })

/-- The objective with a tally of what it was asked; an inquiry counts also if it faults. -/
def counted (f : Objective K σ) : Objective K (Counted σ) where
  eval point := Counted.ask (fun t => { t with values := t.values + 1 }) (f.eval point)
  evalWithGradient point :=
    Counted.ask (fun t => { t with values := t.values + 1, gradients := t.gradients + 1 })
      (f.evalWithGradient point)
  gradient point :=
    Counted.ask (fun t => { t with gradients := t.gradients + 1 }) (f.gradient point)
  hessianProduct point vector :=
    Counted.ask (fun t => { t with hessians := t.hessians + 1 }) (f.hessianProduct point vector)
  offersHessian := f.offersHessian

end Objective

/-- The same usage, second derivatives only where the objective offers them. -/
def Usage.limitedTo (u : Usage) (f : Objective K σ) : Usage :=
  { u with hessian := u.hessian && f.offersHessian }

end GeodesicDescent
