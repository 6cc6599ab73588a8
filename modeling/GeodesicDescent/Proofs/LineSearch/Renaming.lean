import GeodesicDescent.Proofs.LineSearch.WolfeRuns
import GeodesicDescent.Solver.Run

/-!
# Searches that do not tell values apart

A search only compares values with each other. It goes the same way on a problem whose values have
other names, as long as the comparisons come out the same.

* `Renaming`: other names for values, which no comparison shows;
* `Problem.Parallel`: a problem that answers a search as another does, but for the names of values;
* `Backtracking.follows_trySteps`, `StrongWolfe.follows_doubling`: the loops of either search;
* **`SearchKind.follows_search`**: a search on a parallel problem ends as the other does, with the
  same step or the same failure.
-/

namespace GeodesicDescent

open Stateful

variable {K σ α : Type} [Scalar K]

/-- Other names for values, which no comparison in a run shows. -/
structure Renaming (K : Type) [Scalar K] where
  toFun : K → K
  isFinite_eq : ∀ v, Scalar.isFinite (toFun v) = Scalar.isFinite v
  le_iff : ∀ v w, toFun v ≤ toFun w ↔ v ≤ w
  le_add_iff : ∀ v w c, toFun v ≤ toFun w + c ↔ v ≤ w + c
  add_lt_iff : ∀ v w c, toFun w + c < toFun v ↔ w + c < v
  abs_sub_eq : ∀ v w, Scalar.abs (toFun v - toFun w) = Scalar.abs (v - w)

namespace Renaming

instance : CoeFun (Renaming K) fun _ => K → K := ⟨toFun⟩

/-- Every value keeps its name. -/
def refl (K : Type) [Scalar K] : Renaming K where
  toFun v := v
  isFinite_eq _ := rfl
  le_iff _ _ := Iff.rfl
  le_add_iff _ _ _ := Iff.rfl
  add_lt_iff _ _ _ := Iff.rfl
  abs_sub_eq _ _ := rfl

end Renaming

/-! ## What carries values -/

variable (φ : Renaming K)

def Accepted.rename (a : Accepted K) : Accepted K := { a with value := φ a.value }

/-- Of the faults of a search, its failure shows the value that it started with. -/
def Fault.rename : Fault (SolverError K) → Fault (SolverError K)
  | .refused (.lineSearchFailed reason evaluations step value) =>
    .refused (.lineSearchFailed reason evaluations step (φ value))
  | e => e

theorem Fault.rename_refl : Fault.rename (.refl K) = id := by
  funext e
  cases e with
  | refused e => cases e <;> rfl
  | _ => rfl

theorem Fault.rename_map_geometry (e : Fault GeometryError) :
    (e.map .geometry : Fault (SolverError K)).rename φ = e.map .geometry := by
  cases e <;> rfl

namespace StrongWolfe

def Trial.rename (t : Trial K) : Trial K := { t with value := φ t.value }

def Bracket.rename (b : Bracket K) : Bracket K := { b with lowValue := φ b.lowValue }

def Ray.rename (r : Ray K) : Ray K := { r with value := φ r.value }

def Halved.rename : Halved K → Halved K
  | .accepted t => .accepted (t.rename φ)
  | .half b => .half (b.rename φ)

def Doubled.rename : Doubled K → Doubled K
  | .accepted t => .accepted (t.rename φ)
  | .bracketed b => .bracketed (b.rename φ)
  | .longer t => .longer (t.rename φ)

end StrongWolfe

/-! ## Parallel problems -/

variable {φ} {R : Workspace K σ → Workspace K σ → Prop}

/-- From the point `x` along `ξ` the problem `p'` answers a search as `p` does, but for the names of
values. The derivative of the retraction is asked for at the point that a step leads to. -/
structure Problem.Parallel (φ : Renaming K) (R : Workspace K σ → Workspace K σ → Prop)
    (x ξ : Vec K) (p p' : Problem K σ) : Prop where
  inner_eq : p'.manifold.inner = p.manifold.inner
  retract_eq : p'.manifold.retract = p.manifold.retract
  eval : ∀ y, Follows R (Fault.rename φ) φ (Searching.ofEval (p.objective.eval y))
    (Searching.ofEval (p'.objective.eval y))
  evaluate : ∀ y, Follows R (Fault.rename φ) (Prod.map φ id) (p.evaluate y) (p'.evaluate y)
  differential : ∀ step y, p.manifold.retract x (Vec.scale ξ step) = .ok y →
    Follows R (Fault.rename φ) id
      (Searching.ofCached (p.manifold.differential x (Vec.scale ξ step) y ξ true))
      (Searching.ofCached (p'.manifold.differential x (Vec.scale ξ step) y ξ true))
  trials_eq : ∀ {w w'}, R w w' → w'.trials = w.trials
  trials : ∀ {w w'} n, R w w' → R { w with trials := n } { w' with trials := n }
  report : ∀ {w w'} e, R w w' →
    R { w with trace := w.trace.push e } { w' with trace := w'.trace.push e }

omit [Scalar K] in
theorem Searching.follows_ofChecked {k : Fault (SolverError K) → Fault (SolverError K)}
    (hk : ∀ e : Fault GeometryError, k (e.map .geometry) = e.map .geometry) (m : Checked α) :
    Follows R k id (ofChecked m) (ofChecked m) := by
  intro w w' hw
  refine ⟨?_, hw⟩
  cases m with
  | ok a => rfl
  | error e => exact congrArg Except.error (hk e).symm

variable {p p' : Problem K σ} {params : SearchParams K} {x ξ : Vec K}

namespace Problem

variable (hp : p.Parallel φ R x ξ p')
include hp

theorem follows_trialPoint (step : K) :
    Follows R (Fault.rename φ) id (p.trialPoint x ξ step) (p'.trialPoint x ξ step) := by
  rw [trialPoint, trialPoint, hp.retract_eq]
  exact Searching.follows_ofChecked (Fault.rename_map_geometry φ) _

theorem follows_downhillSlope (gradient : Vec K) :
    Follows R (Fault.rename φ) id (p.downhillSlope x gradient ξ)
      (p'.downhillSlope x gradient ξ) := by
  rw [downhillSlope, downhillSlope, hp.inner_eq]
  have hslope := Searching.follows_ofChecked (R := R) (Fault.rename_map_geometry φ)
    (p.manifold.inner x gradient ξ)
  refine follows_bind hslope fun slope _ => follows_ite Iff.rfl ?_ (follows_pure rfl)
  exact follows_bind (g := id) (follows_throw _) fun _ _ => follows_pure rfl

end Problem

/-! ## Backtracking -/

namespace Backtracking

theorem follows_trySteps (hp : p.Parallel φ R x ξ p') (value slope : K) (budget tried : Nat)
    (step : K) : Follows R (Fault.rename φ) (Accepted.rename φ)
      (trySteps p params x value slope ξ budget tried step)
      (trySteps p' params x (φ value) slope ξ budget tried step) := by
  induction budget generalizing tried step with
  | zero => exact follows_throw _
  | succ budget ih =>
    refine follows_bind (Problem.follows_trialPoint hp step) fun trial _ => ?_
    refine follows_bind (hp.eval trial) fun trialValue _ => follows_ite (φ.le_add_iff _ _ _) ?_ ?_
    · exact follows_bind (hp.evaluate trial) fun answer _ => follows_pure rfl
    · exact follows_ite Iff.rfl (follows_throw _) (ih _ _)

end Backtracking

/-! ## The strong Wolfe search -/

namespace StrongWolfe

variable {ray : Ray K}

theorem insufficient_rename (step value : K) :
    insufficient params (ray.rename φ) step (φ value) ↔ insufficient params ray step value :=
  φ.add_lt_iff _ _ _

variable (hp : p.Parallel φ R ray.point ray.direction p')
include hp

theorem follows_take (t : Trial K) : Follows R (Fault.rename φ) (Accepted.rename φ)
    (take t : Searching K σ (Accepted K)) (take (t.rename φ)) := by
  refine follows_get_bind fun w w' hw => ?_
  rw [hp.trials_eq hw]
  exact follows_pure rfl

theorem follows_fail {g : α → α} (reason : String) (step : K) :
    Follows R (Fault.rename φ) g (fail ray reason step : Searching K σ α)
      (fail (ray.rename φ) reason step) := by
  refine follows_get_bind fun w w' hw => ?_
  rw [hp.trials_eq hw]
  exact follows_throw _

theorem follows_tryStep (step : K) :
    Follows R (Fault.rename φ) (Trial.rename φ) (tryStep p ray step)
      (tryStep p' (ray.rename φ) step) := by
  refine follows_bind (Problem.follows_trialPoint hp step) fun y _ => ?_
  refine follows_bind (hp.evaluate y) fun answer _ => ?_
  refine follows_bind (follows_modify fun w w' hw => ?_) fun _ _ => follows_pure rfl
  rw [hp.trials_eq hw]
  exact hp.trials _ hw

/-- The slope is asked for at a trial that was made, so where the step leads. -/
theorem follows_slopeAt {t : Trial K} {step : K}
    (tried : ∃ w w', tryStep p ray step w = (.ok t, w')) :
    Follows R (Fault.rename φ) id (slopeAt p ray t) (slopeAt p' (ray.rename φ) (t.rename φ)) := by
  obtain ⟨w, w', tried⟩ := tried
  obtain ⟨_, _, reached, -, rfl, -⟩ := tryStep_eq_ok.1 tried
  have joined := (Problem.trialPoint_eq_ok.1 reached).1
  refine follows_bind (hp.differential _ _ joined) fun moved _ => ?_
  rw [hp.inner_eq]
  exact Searching.follows_ofChecked (Fault.rename_map_geometry φ) _

theorem follows_halve (b : Bracket K) :
    Follows R (Fault.rename φ) (Halved.rename φ) (halve p params ray b)
      (halve p' params (ray.rename φ) (b.rename φ)) := by
  refine follows_bind (follows_tryStep hp _) fun t ⟨w, w', tried⟩ => ?_
  refine follows_ite (or_congr (insufficient_rename _ _) (φ.le_iff _ _)) (follows_pure rfl) ?_
  refine follows_bind (follows_slopeAt hp ⟨w, w', tried⟩) fun slope _ => ?_
  exact follows_ite Iff.rfl (follows_pure rfl) (follows_pure rfl)

theorem follows_double (first : Bool) (previous previousValue step : K) :
    Follows R (Fault.rename φ) (Doubled.rename φ)
      (double p params ray first previous previousValue step)
      (double p' params (ray.rename φ) first previous (φ previousValue) step) := by
  refine follows_bind (follows_tryStep hp _) fun t ⟨w, w', tried⟩ => ?_
  refine follows_ite (or_congr (insufficient_rename _ _) (and_congr_right' (φ.le_iff _ _)))
    (follows_pure rfl) ?_
  refine follows_bind (follows_slopeAt hp ⟨w, w', tried⟩) fun slope _ => ?_
  refine follows_ite Iff.rfl (follows_pure rfl) (follows_ite Iff.rfl (follows_pure rfl) ?_)
  refine follows_ite Iff.rfl ?_ (follows_pure rfl)
  exact follows_bind (follows_modify fun w w' hw => hp.report _ hw) fun _ _ => follows_pure rfl

theorem follows_halving (budget : Nat) (b : Bracket K) :
    Follows R (Fault.rename φ) (Accepted.rename φ) (halving p params ray budget b)
      (halving p' params (ray.rename φ) budget (b.rename φ)) := by
  induction budget generalizing b with
  | zero => exact follows_fail hp _ _
  | succ budget ih =>
    refine follows_ite Iff.rfl (follows_fail hp _ _)
      (follows_bind (follows_halve hp b) fun r _ => ?_)
    cases r with
    | accepted t => exact follows_take hp t
    | half b' => exact ih b'

theorem follows_doubling (budget : Nat) (first : Bool) (previous previousValue step : K) :
    Follows R (Fault.rename φ) (Accepted.rename φ)
      (doubling p params ray budget first previous previousValue step)
      (doubling p' params (ray.rename φ) budget first previous (φ previousValue) step) := by
  induction budget generalizing first previous previousValue step with
  | zero => exact follows_fail hp _ _
  | succ budget ih =>
    refine follows_bind (follows_double hp _ _ _ _) fun r _ => ?_
    cases r with
    | accepted t => exact follows_take hp t
    | bracketed b => exact follows_halving hp _ b
    | longer t => exact ih _ _ _ _

end StrongWolfe

/-- **A search on a parallel problem ends as the other does.** -/
theorem SearchKind.follows_search (hp : p.Parallel φ R x ξ p') (kind : SearchKind) (value : K)
    (gradient : Vec K) : Follows R (Fault.rename φ) (Accepted.rename φ)
      (kind.search p params x value gradient ξ) (kind.search p' params x (φ value) gradient ξ) := by
  cases kind with
  | armijo =>
    exact follows_bind (Problem.follows_downhillSlope hp _) fun slope _ =>
      Backtracking.follows_trySteps hp value slope _ _ _
  | strongWolfe =>
    refine follows_bind (Problem.follows_downhillSlope hp _) fun slope _ => ?_
    refine follows_bind (follows_modify fun w w' hw => hp.trials 0 hw) fun _ _ => ?_
    let ray : StrongWolfe.Ray K := { point := x, value, slope, direction := ξ }
    have hray : p.Parallel φ R ray.point ray.direction p' := hp
    exact StrongWolfe.follows_doubling hray _ _ _ _ _

end GeodesicDescent
