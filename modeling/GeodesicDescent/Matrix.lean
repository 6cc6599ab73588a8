import GeodesicDescent.Vec

/-!
# Matrices

A matrix is a list of columns of one length. Products with a vector and rank-one updates go
column by column, and apply to any block of a matrix.

* `Matrix.block`: a block of a matrix as a matrix;
* `Matrix.apply`, `Matrix.applyTransposed`: `alpha * A * x + beta * y` and its transposed form;
* `Matrix.accumulate`: either of them, refused where the lengths do not fit;
* `Matrix.rankOne`: the update `A + alpha * x * yᵀ` of a block, refused where the shapes differ;
* `Matrix.mulVec`: the plain product.
-/

namespace GeodesicDescent

/-- A matrix as its columns, all of one length. -/
structure Matrix (K : Type) where
  rows : Nat
  columns : List (Vec K)
  length_columns : ∀ c ∈ columns, c.length = rows

/-- A block of a matrix: where it starts and how far it reaches. -/
structure Block where
  row : Nat
  rows : Nat
  column : Nat
  columns : Nat
  deriving DecidableEq, Repr

namespace Matrix

variable {K : Type}

/-- The number of columns. -/
def width (A : Matrix K) : Nat := A.columns.length

/-- The rows of a matrix. -/
def toRows (A : Matrix K) : List (Vec K) :=
  (List.range A.rows).map fun i => A.columns.filterMap (·[i]?)

/-- The whole matrix as a block. -/
def whole (A : Matrix K) : Block := ⟨0, A.rows, 0, A.width⟩

/-- The matrix with the given entry at each row and column. -/
def ofFn (rows columns : Nat) (f : Nat → Nat → K) : Matrix K where
  rows
  columns := (List.range columns).map fun j => (List.range rows).map fun i => f i j
  length_columns := by
    intro c h
    obtain ⟨j, -, rfl⟩ := List.mem_map.1 h
    simp

/-- A block of a matrix, which it must lie in. -/
def block (A : Matrix K) (b : Block) : Checked (Matrix K) :=
  if h : b.row + b.rows ≤ A.rows ∧ b.column + b.columns ≤ A.width then
    .ok {
      rows := b.rows
      columns := ((A.columns.drop b.column).take b.columns).map
        fun c => (c.drop b.row).take b.rows
      length_columns := by
        intro c hc
        obtain ⟨d, hd, rfl⟩ := List.mem_map.1 hc
        have := A.length_columns d (List.mem_of_mem_drop (List.mem_of_mem_take hd))
        simp [this]
        omega }
  else .error .shapeClash

variable [Scalar K]

/-- The identity matrix. -/
def identity (n : Nat) : Matrix K := ofFn n n fun i j => if i = j then 1 else 0

/-- The first column's share of `alpha * A * x + beta * y`. -/
def applyFirst (alpha : K) (column : Vec K) (x beta : K) (y : Vec K) : Vec K :=
  if beta == 0 then column.map fun a => alpha * a * x
  else column.zipWith (fun a t => alpha * a * x + beta * t) y

/-- The product `alpha * A * x + beta * y`, column by column; where `beta` is zero, `y` is not
read. -/
def apply (alpha : K) (A : Matrix K) (x : Vec K) (beta : K) (y : Vec K) : Vec K :=
  match A.columns.zip x with
  | [] => y.map fun t => if beta == 0 then 0 else t * beta
  | (column, s) :: rest =>
    rest.foldl (fun acc (column, s) => column.zipWith (fun a t => alpha * a * s + t) acc)
      (applyFirst alpha column s beta y)

/-- The product `alpha * Aᵀ * x + beta * y`; where `beta` is zero, `y` is not read. -/
def applyTransposed (alpha : K) (A : Matrix K) (x : Vec K) (beta : K) (y : Vec K) : Vec K :=
  A.columns.zipWith
    (fun column t =>
      let p := alpha * Vec.rawDot column x
      if beta == 0 then p else p + beta * t) y

/-- The product `alpha * A * x + beta * y`, or the one with `A` transposed. -/
def accumulate (transposed : Bool) (alpha : K) (A : Matrix K) (x : Vec K) (beta : K) (y : Vec K) :
    Except GeometryError (Vec K) :=
  let (rows, columns) := if transposed then (A.width, A.rows) else (A.rows, A.width)
  if x.length ≠ columns then
    .error (.dimensionMismatch s!"x of length {columns}" s!"x of length {x.length}")
  else if y.length ≠ rows then
    .error (.dimensionMismatch s!"y of length {rows}" s!"y of length {y.length}")
  else .ok (if transposed then applyTransposed alpha A x beta y else apply alpha A x beta y)

/-- Adds `alpha * x * yᵀ` to the entries from a row and a column onwards, as far as `x` and `y`
reach. -/
def addOuter (A : Matrix K) (alpha : K) (x y : Vec K) (row column : Nat) : Matrix K where
  rows := A.rows
  columns := A.columns.mapIdx fun j c =>
    match if column ≤ j then y[j - column]? else none with
    | none => c
    | some t => c.mapIdx fun i a =>
      match if row ≤ i then x[i - row]? else none with
      | none => a
      | some s => alpha * t * s + a
  length_columns := by
    intro c hc
    obtain ⟨j, hj, rfl⟩ := List.mem_mapIdx.1 hc
    have := A.length_columns _ (List.getElem_mem hj)
    split <;> simp [this]

/-- The update `A + alpha * x * yᵀ` of a block of `A`, which must have the shape of `x * yᵀ`. -/
def rankOne (alpha : K) (x y : Vec K) (A : Matrix K) (b : Block) :
    Except GeometryError (Matrix K) :=
  if b.rows ≠ x.length ∨ b.columns ≠ y.length then
    .error (.dimensionMismatch s!"{x.length}x{y.length}" s!"{b.rows}x{b.columns}")
  else .ok (A.addOuter alpha x y b.row b.column)

/-- The product of a matrix and a vector. -/
def mulVec (A : Matrix K) (x : Vec K) : Checked (Vec K) :=
  if A.width = x.length then .ok (apply 1 A x 0 (Vec.zeros A.rows)) else .error .shapeClash

end Matrix

end GeodesicDescent
