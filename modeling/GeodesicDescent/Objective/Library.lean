import GeodesicDescent.Objective

/-!
# Some objectives

* `Quadratic`: the functions `xᵀAx/2 + bᵀx + c`, with exact Hessian products;
* `Objective.linear`, `Objective.rayleigh`: built on the inner product of a manifold;
* `Objective.wells`, `Objective.wellsByDifferences`: a weighted well at `±1` in each coordinate,
  with its own gradient and with one by differences;
* `Objective.interrupted`: an objective that gives out after some evaluations.
-/

namespace GeodesicDescent

variable {K σ : Type} [Scalar K]

/-- The function `xᵀAx/2 + bᵀx + c`. -/
structure Quadratic (K : Type) where
  a : Matrix K
  b : Vec K
  c : K

namespace Quadratic

/-- The quadratic of a square matrix with one row per entry of `b`. -/
def ofMatrix? (a : Matrix K) (b : Vec K) (c : K) : Except GeometryError (Quadratic K) :=
  if a.rows ≠ a.width ∨ a.rows ≠ b.length then
    .error (.dimensionMismatch s!"{b.length}x{b.length} matrix" s!"{a.rows}x{a.width} matrix")
  else .ok ⟨a, b, c⟩

/-- Half the squared length of a vector. -/
def simple (n : Nat) : Quadratic K := ⟨.identity n, Vec.zeros n, 0⟩

/-- The value at a point, given the product of the matrix with it. -/
def valueWith (q : Quadratic K) (point product : Vec K) : Checked K := do
  return (← Vec.dot point product) * 0.5 + (← Vec.dot q.b point) + q.c

/-- The quadratic as an objective. -/
def objective (q : Quadratic K) : Objective K σ where
  eval point := do
    let product ← q.a.mulVec point
    q.valueWith point product
  evalWithGradient point := do
    let product ← q.a.mulVec point
    let value ← q.valueWith point product
    let gradient ← Vec.add product q.b
    return (value, gradient)
  hessianProduct _ vector := do
    let product ← q.a.mulVec vector
    return product
  offersHessian := true

end Quadratic

namespace Objective

/-- The inner product with `-c`. -/
def linear (M : Manifold K) (c : Vec K) : Objective K σ where
  eval point := do
    let along ← M.inner point c point
    return -along
  evalWithGradient point := do
    let along ← M.inner point c point
    return (-along, Vec.neg c)

/-- The inner product of a point with its image under a diagonal matrix. -/
def rayleigh (M : Manifold K) (diagonal : Vec K) : Objective K σ where
  eval point := do
    let image ← Vec.hadamard point diagonal
    let value ← M.inner point point image
    return value
  evalWithGradient point := do
    let image ← Vec.hadamard point diagonal
    let value ← M.inner point point image
    return (value, Vec.scale image 2.0)

/-- The sum over the coordinates of `w * (t² - 1)²`. -/
def wellsValue (weights point : Vec K) : Checked K :=
  if weights.length = point.length then
    .ok <| (weights.zip point).foldl (fun sum (w, t) =>
      let q := t * t - 1
      sum + w * (q * q)) 0
  else .error .shapeClash

/-- A weighted well at `±1` in each coordinate. -/
def wells (weights : Vec K) : Objective K σ where
  eval point := wellsValue weights point
  evalWithGradient point := do
    let value ← wellsValue weights point
    return (value, weights.zipWith (fun w t => 4.0 * w * (t * t - 1) * t) point)

/-- The same wells, known by their values only. -/
def wellsByDifferences (weights : Vec K) : Objective K σ where
  eval point := wellsValue weights point

/-! ## Objectives that give out -/

/-- What an evaluation ends in once an objective has given out. -/
inductive Outage (K : Type)
  | refusal
  | value (v : K)
  deriving DecidableEq, Repr

/-- The state of an objective that may give out: that of the objective inside, and the number of
its evaluations. -/
structure Interrupted (σ : Type) where
  inner : σ
  evaluations : Nat := 0

/-- A value that the objective inside gave, counted, or what stands for it from the evaluation
number `after` on. -/
def Interrupted.pass (after : Option Nat) (outage : Outage K) (value : K) :
    Eval (Interrupted σ) K := do
  let s ← get
  set { s with evaluations := s.evaluations + 1 }
  if after.any (· ≤ s.evaluations) then
    match outage with
    | .refusal => throw (.refused (.numerical "objective undefined"))
    | .value v => return v
  else return value

/-- A computation of the objective inside. -/
def Interrupted.ask {α : Type} (m : Eval σ α) : Eval (Interrupted σ) α := fun s =>
  let (result, inner) := m s.inner
  (result, { s with inner })

/-- The objective until a number of evaluations, then an outage; its gradient times a factor. -/
def interrupted (f : Objective K σ) (factor : K) (after : Option Nat) (outage : Outage K) :
    Objective K (Interrupted σ) where
  eval point := do
    let value ← Interrupted.ask (f.eval point)
    Interrupted.pass after outage value
  evalWithGradient point := do
    let (value, gradient) ← Interrupted.ask (f.evalWithGradient point)
    let value ← Interrupted.pass after outage value
    return (value, Vec.scale gradient factor)

end Objective

end GeodesicDescent
