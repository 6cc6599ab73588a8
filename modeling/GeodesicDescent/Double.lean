/-!
# Doubles

A finite double is a sign and a number `m * 2 ^ e`, which is read off exactly. A double stands for
all reals that round to it. Its decimal text is the decimal with the fewest digits among them, the
nearest to the double where several have as few, written out in full.

* `natural?`: the natural number that a double is, if it is one;
* `toSingle`: the nearest number of single precision, ties to even;
* `Interval`: a value with the ends of the interval of reals that round to it;
* `Interval.onGrid?`: the point of a decimal grid that lies in the interval, the nearer of two;
* `shortest`: the first grid with such a point, from one digit upwards;
* `text`: the text of a double, positional at every size.
-/

namespace GeodesicDescent.Double

open Float.Model (UnpackedFloat Format)

/-! ## What a double stands for -/

/-- The natural number `m * 2 ^ e`, if it is one. -/
def scaled? (m : Nat) : Int → Option Nat
  | .ofNat e => some (m * Nat.pow 2 e)
  | .negSucc e =>
    let unit := Nat.pow 2 (e + 1)
    if m % unit = 0 then some (m / unit) else none

/-- The natural number that a double is, if it is one; both zeros are `0`. -/
def natural? (x : Float) : Option Nat :=
  match x.toModel.unpack with
  | .zero _ => some 0
  | .finite .positive m e _ => scaled? m e
  | _ => none

/-- The nearest single: ties go to the even neighbour, overflow to infinity, underflow to zero. -/
def toSingle (x : Float) : Float32 :=
  .ofModel <| .pack <|
    match x.toModel.unpack with
    | .finite s m e _ => UnpackedFloat.round .binary32 s m e
    | special => special

/-! ## The shortest decimal -/

/-- A positive rational number `num / den`. -/
structure Ratio where
  num : Nat
  den : Nat

namespace Ratio

/-- The rational `m * b ^ e`. -/
def ofPower (m b : Nat) : Int → Ratio
  | .ofNat e => ⟨m * b.pow e, 1⟩
  | .negSucc e => ⟨m, b.pow (e + 1)⟩

def lt (a b : Ratio) : Bool := a.num * b.den < b.num * a.den

def le (a b : Ratio) : Bool := a.num * b.den ≤ b.num * a.den

def mul (a b : Ratio) : Ratio := ⟨a.num * b.num, a.den * b.den⟩

def floor (a : Ratio) : Nat := a.num / a.den

end Ratio

/-- A value with the ends of the interval of reals that round to it. -/
structure Interval where
  low : Ratio
  value : Ratio
  high : Ratio
  /-- Whether the ends themselves round to the value. -/
  closed : Bool

/-- The reals that round to `m * 2 ^ e`. Below a power of two the neighbour is half as far. -/
def Interval.around (m : Nat) (e : Int) : Interval where
  low := .ofPower (4 * m - if m = Nat.pow 2 52 ∧ -1074 < e then 1 else 2) 2 (e - 2)
  value := .ofPower (4 * m) 2 (e - 2)
  high := .ofPower (4 * m + 2) 2 (e - 2)
  closed := m % 2 = 0

namespace Interval

/-- Whether a real rounds to the value. -/
def holds (i : Interval) (r : Ratio) : Bool :=
  if i.closed then i.low.le r && r.le i.high else i.low.lt r && r.lt i.high

/-- The multiple of `10 ^ g` next to the value that rounds to it: the nearer of two, the upper
on a tie. -/
def onGrid? (i : Interval) (g : Int) : Option Nat :=
  let below := (i.value.mul (.ofPower 1 10 (-g))).floor
  let point (d : Nat) := Ratio.ofPower d 10 g
  let nearer := (Ratio.ofPower (2 * below + 1) 10 g).le (i.value.mul ⟨2, 1⟩)
  match i.holds (point below), i.holds (point (below + 1)) with
  | true, true => some (if nearer then below + 1 else below)
  | true, false => some below
  | false, true => some (below + 1)
  | false, false => none

/-- The first of the grids `10 ^ g, 10 ^ (g - 1), …` with a point in the interval. -/
def search (i : Interval) : Nat → Int → Option (Nat × Int)
  | 0, _ => none
  | n + 1, g =>
    match i.onGrid? g with
    | some d => some (d, g)
    | none => i.search n (g - 1)

end Interval

/-- An exponent `g` such that `m * 2 ^ e` lies below `10 ^ g`, at most three grids too high. -/
def ceilingExponent (m : Nat) (e : Int) : Int := (Nat.log2 m + e) * 30103 / 100000 + 2

/-- Digits and exponent of the shortest decimal that rounds to `m * 2 ^ e`. -/
def shortest (m : Nat) (e : Int) : Nat × Int :=
  ((Interval.around m e).search 24 (ceilingExponent m e)).getD (m, 0)

/-- The decimal `d * 10 ^ g` in positional notation. -/
def positional (d : Nat) : Int → String
  | .ofNat g => toString d ++ String.ofList (List.replicate g '0')
  | .negSucc g =>
    let digits := (toString d).toList
    let padded := List.replicate (g + 2 - digits.length) '0' ++ digits
    let whole := padded.length - (g + 1)
    String.ofList (padded.take whole) ++ "." ++ String.ofList (padded.drop whole)

/-- The text of a double: its shortest decimal, positional, with a minus sign if it is negative. -/
def text (x : Float) : String :=
  let sign : UnpackedFloat.Sign → String
    | .positive => ""
    | .negative => "-"
  match x.toModel.unpack with
  | .notANumber => "NaN"
  | .infinity s => sign s ++ "inf"
  | .zero s => sign s ++ "0"
  | .finite s m e _ =>
    let (d, g) := shortest m e
    sign s ++ positional d g

end GeodesicDescent.Double
