import GeodesicDescent.Fault
import GeodesicDescent.Scalar

/-!
# Vectors

Vectors are lists of scalars of any length. An operation that combines two vectors entry by entry
faults with `shapeClash` where their lengths differ.

* `Vec.add`, `Vec.sub`, `Vec.hadamard`, `Vec.axpy`: entrywise operations;
* `Vec.rawDot`: the sum of products, taken in eight lanes;
* `Vec.dot`: the same for vectors of one length, and `Vec.dot?`, which refuses others.
-/

namespace GeodesicDescent

/-- A vector: its entries in order. -/
abbrev Vec (K : Type) := List K

namespace Vec

variable {K : Type} [Scalar K]

def zeros (n : Nat) : Vec K := List.replicate n 0

/-- Every entry times `s`. -/
def scale (v : Vec K) (s : K) : Vec K := v.map (· * s)

/-- Every entry divided by `s`. -/
def divide (v : Vec K) (s : K) : Vec K := v.map (· / s)

def neg (v : Vec K) : Vec K := v.map (- ·)

/-- The entry at a position, which the vector must have. -/
def entry (v : Vec K) (i : Nat) : Checked K :=
  match v[i]? with
  | some x => .ok x
  | none => .error .shapeClash

/-- The vector with the entry at a position changed, which it must have. -/
def modifyEntry (v : Vec K) (i : Nat) (f : K → K) : Checked (Vec K) :=
  if i < v.length then .ok (v.modify i f) else .error .shapeClash

/-- An entrywise combination of two vectors of one length. -/
def combine (f : K → K → K) (u v : Vec K) : Checked (Vec K) :=
  if u.length = v.length then .ok (u.zipWith f v) else .error .shapeClash

def add (u v : Vec K) : Checked (Vec K) := combine (· + ·) u v

def sub (u v : Vec K) : Checked (Vec K) := combine (· - ·) u v

/-- The entrywise product. -/
def hadamard (u v : Vec K) : Checked (Vec K) := combine (· * ·) u v

/-- The combination `a * x + b * y`; where `b` is zero, `y` is not read. -/
def axpy (a : K) (x : Vec K) (b : K) (y : Vec K) : Checked (Vec K) :=
  combine (if b == 0 then fun s _ => a * s else fun s t => a * s + b * t) x y

/-! ## Sums of products -/

/-- The products of corresponding entries. -/
def products (x y : Vec K) : Vec K := x.zipWith (· * ·) y

/-- Adds block after block of eight products to eight running sums. -/
def laneSums : Nat → Vec K → Vec K → Vec K
  | 0, _, lanes => lanes
  | blocks + 1, ps, lanes =>
    laneSums blocks (ps.drop 8) (lanes.zipWith (· + ·) (ps.take 8))

/-- The eight running sums, the first paired with the fifth and so on, summed from zero. -/
def joinLanes : Vec K → K
  | [a, b, c, d, e, f, g, h] => 0 + (a + e) + (b + f) + (c + g) + (d + h)
  | _ => 0

/-- The sum of products of corresponding entries: full blocks of eight in eight lanes, then the
rest from left to right. -/
def rawDot (x y : Vec K) : K :=
  let ps := products x y
  let blocks := ps.length / 8
  (ps.drop (8 * blocks)).foldl (· + ·) (joinLanes (laneSums blocks ps (zeros 8)))

/-- The sum of products of two vectors of one length. -/
def dot (x y : Vec K) : Checked K :=
  if x.length = y.length then .ok (rawDot x y) else .error .shapeClash

/-- The sum of products, refused where the lengths differ. -/
def dot? (x y : Vec K) : Except GeometryError K :=
  if x.length = y.length then .ok (rawDot x y) else .error (.lengths x.length y.length)

/-! ## Lengths -/

@[simp] theorem length_zeros (n : Nat) : (zeros n : Vec K).length = n := List.length_replicate

@[simp] theorem length_scale (v : Vec K) (s : K) : (scale v s).length = v.length :=
  List.length_map _

@[simp] theorem length_divide (v : Vec K) (s : K) : (divide v s).length = v.length :=
  List.length_map _

@[simp] theorem length_neg (v : Vec K) : (neg v).length = v.length := List.length_map _

omit [Scalar K] in
theorem combine_of_length {f : K → K → K} {u v : Vec K} (h : u.length = v.length) :
    combine f u v = .ok (u.zipWith f v) := if_pos h

end Vec

end GeodesicDescent
