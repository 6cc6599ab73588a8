import GeodesicDescent.Manifold
import GeodesicDescent.Solver.Options

/-!
# Configuration of the conjugate gradient rule

* `CGMethod`: the six formulas for the weight of the last direction, each with a code and a name;
* `CGConfig`: the formula and how often the rule restarts;
* `CGConfig.restartsAt`: the iterations at which it does;
* `CGConfig.applySettings`, `CGConfig.readSettings`: reads named settings, all or none.
-/

namespace GeodesicDescent

variable {K : Type}

/-- The formulas for the weight of the last direction. -/
inductive CGMethod
  | fletcherReeves
  | polakRibiereMod
  | hestenesStiefel
  | frPr
  | daiYuan
  | hagerZhang
  deriving DecidableEq, Repr

namespace CGMethod

/-- The methods in the order of their codes. -/
def all : List CGMethod :=
  [fletcherReeves, polakRibiereMod, hestenesStiefel, frPr, daiYuan, hagerZhang]

def code : CGMethod → Nat
  | fletcherReeves => 0
  | polakRibiereMod => 1
  | hestenesStiefel => 2
  | frPr => 3
  | daiYuan => 4
  | hagerZhang => 5

def name : CGMethod → String
  | fletcherReeves => "FLETCHER_REEVES"
  | polakRibiereMod => "POLAK_RIBIERE_MOD"
  | hestenesStiefel => "HESTENES_STIEFEL"
  | frPr => "FR_PR"
  | daiYuan => "DAI_YUAN"
  | hagerZhang => "HAGER_ZHANG"

/-- The method with a code. -/
def ofCode (value : Float) : Except (SolverError K) CGMethod := do
  match all[← readCount "RCGmethod" value]? with
  | some method => return method
  | none => throw (.invalidConfiguration "RCGmethod must be between 0 and 5" "RCGmethod"
      (Double.text value))

theorem getElem?_all_code (m : CGMethod) : all[m.code]? = some m := by cases m <;> rfl

end CGMethod

/-- The formula and the number of iterations between restarts. -/
structure CGConfig where
  restartPeriod : Nat := maxCount
  method : CGMethod := .polakRibiereMod
  deriving DecidableEq, Repr

namespace CGConfig

/-- Refuses a period of no iterations. -/
def validate (c : CGConfig) : Except (SolverError K) Unit :=
  if c.restartPeriod = 0 then
    .error (.invalidConfiguration "ManDim must be at least 1" "ManDim" "0")
  else .ok ()

/-- Whether the rule restarts at an iteration: at the multiples of the period. -/
def restartsAt (c : CGConfig) (iteration : Nat) : Bool :=
  c.restartPeriod ≠ 0 && iteration % c.restartPeriod = 0

/-- Reads one setting; unknown names are passed over. -/
def applySetting (c : CGConfig) (name : String) (value : Float) :
    Except (SolverError K) CGConfig :=
  match name with
  | "ManDim" => do
    let period ← readCount name value
    return { c with restartPeriod := period }
  | "RCGmethod" => do
    let method ← CGMethod.ofCode value
    return { c with method }
  | _ => return c

/-- Reads settings in their order and validates what they lead to. -/
def applySettings (c : CGConfig) (settings : Settings) : Except (SolverError K) CGConfig := do
  let updated ← settings.foldlM (fun c (name, value) => c.applySetting name value) c
  updated.validate
  return updated

/-- Reads settings into a configuration that is kept. Where one is refused it stays as it was. -/
def readSettings (settings : Settings) : ExceptT (SolverError K) (StateM CGConfig) Unit := do
  let updated ← (← get).applySettings (K := K) settings
  set updated

/-- Named properties, in text. -/
def summary (c : CGConfig) : List (String × String) :=
  [("ManDim", toString c.restartPeriod), ("RCGmethod", c.method.name)]

/-- The listing of the parameters. -/
def display (c : CGConfig) : String := listing "RCG METHOD PARAMETERS:" c.summary

end CGConfig

end GeodesicDescent
