import GeodesicDescent.Vec

/-!
# The cache of geometric quantities

Quantities that one geometric operation computes and a later one needs again. There is one slot
per quantity, and each remembers what it was computed for, so that it never answers for other
vectors.

* `Cache`: the slots, and the tallies of the reflection slot;
* `Cache.reflectionFor?`, `gradientFor?`, `scalingFor?`: what a slot answers;
* `Cached`: computations that read and write the cache, which stays as a fault leaves it;
* `Cached.reflection`: the reflection of two points, computed at most once in a row.
-/

namespace GeodesicDescent

/-- The direction of the reflection that carries tangent vectors from one point to another. -/
structure KnownReflection (K : Type) where
  source : Vec K
  target : Vec K
  direction : Vec K

/-- The ambient gradient at a point. -/
structure KnownGradient (K : Type) where
  point : Vec K
  gradient : Vec K

/-- The scale factors of a differentiated retraction along `displacement`, with the rescaled
transported vector if it is kept. -/
structure KnownScaling (K : Type) where
  displacement : Vec K
  factors : K × K × K
  transported : Option (Vec K)

/-- One slot per quantity, with the tallies of the reflection slot. -/
structure Cache (K : Type) where
  reflection : Option (KnownReflection K) := none
  gradient : Option (KnownGradient K) := none
  scaling : Option (KnownScaling K) := none
  /-- How often the reflection slot answered. -/
  reuses : Nat := 0
  /-- How often a reflection was computed and kept. -/
  computations : Nat := 0

namespace Cache

variable {K : Type}

/-- All slots empty; the tallies stay. -/
def clear (c : Cache K) : Cache K :=
  { c with reflection := none, gradient := none, scaling := none }

def keepGradient (c : Cache K) (point gradient : Vec K) : Cache K :=
  { c with gradient := some ⟨point, gradient⟩ }

def keepScaling (c : Cache K) (entry : KnownScaling K) : Cache K :=
  { c with scaling := some entry }

variable [Scalar K]

/-- The direction of the kept reflection, if it belongs to these two points. -/
def reflectionFor? (c : Cache K) (source target : Vec K) : Option (Vec K) :=
  match c.reflection with
  | some e => if e.source == source && e.target == target then some e.direction else none
  | none => none

/-- The kept ambient gradient, if it belongs to this point. -/
def gradientFor? (c : Cache K) (point : Vec K) : Option (Vec K) :=
  match c.gradient with
  | some e => if e.point == point then some e.gradient else none
  | none => none

/-- The kept scale factors, if they belong to this displacement. -/
def scalingFor? (c : Cache K) (displacement : Vec K) : Option (KnownScaling K) :=
  match c.scaling with
  | some e => if e.displacement == displacement then some e else none
  | none => none

end Cache

/-- Geometric computations that read and write the cache. -/
abbrev Cached (K α : Type) := ExceptT (Fault GeometryError) (StateM (Cache K)) α

namespace Cached

variable {K : Type}

/-- The refusal of a cached operation; the cache stays as it is. -/
def refuse {α : Type} (error : GeometryError) : Cached K α := throw (.refused error)

variable [Scalar K]

/-- The direction of the reflection of two points: the kept one if it is theirs, else the computed
one, which is then kept. A computation that faults leaves the cache as it is. -/
def reflection (source target : Vec K) (compute : Checked (Vec K)) : Cached K (Vec K) := do
  let c ← get
  match c.reflectionFor? source target with
  | some d =>
    set { c with reuses := c.reuses + 1 }
    return d
  | none =>
    let d ← compute
    set { c with
      reflection := some ⟨source, target, d⟩
      computations := c.computations + 1 }
    return d

end Cached

end GeodesicDescent
