import GeodesicDescent.Proofs.LineSearch.Counting
import GeodesicDescent.Proofs.LineSearch.FirstStep

/-!
# The inquiries of a search, one by one

A logged objective writes down what it is asked for, and in which order. What a search tells of its
inquiries, with the step that it accepts or with its failure, is its part of the log: it tells
neither of earlier inquiries nor of the trials of an earlier search.

* **`Objective.logged`**: the same objective with a log of the inquiries;
* `Objective.meters_logged`: what the log keeps;
* **`SearchKind.search_log`**: a search adds to the log what it tells of.
-/

namespace GeodesicDescent

open Stateful

variable {K σ α : Type}

/-- What an objective can be asked for. -/
inductive Inquiry
  | value
  | valueWithGradient
  | gradient
  | hessianProduct
  deriving DecidableEq, Repr

namespace Objective

/-- The state of a logged objective: that of the objective, and its inquiries in their order. -/
structure Logged (σ : Type) where
  inner : σ
  log : List Inquiry := []

/-- A computation of the objective inside, written down whatever it ends in. -/
def Logged.ask (i : Inquiry) (m : Eval σ α) : Eval (Logged σ) α := fun s =>
  let (result, inner) := m s.inner
  (result, { inner, log := s.log ++ [i] })

variable [Scalar K]

/-- The objective with a log of what it is asked for. What it asks itself is not written down. -/
def logged (f : Objective K σ) : Objective K (Logged σ) where
  eval point := Logged.ask .value (f.eval point)
  evalWithGradient point := Logged.ask .valueWithGradient (f.evalWithGradient point)
  gradient point := Logged.ask .gradient (f.gradient point)
  hessianProduct point vector := Logged.ask .hessianProduct (f.hessianProduct point vector)
  offersHessian := f.offersHessian

/-- After `before`, the log goes on with so many values alone and then with so many values with
gradients. -/
def Logged.GoesOn (before : List Inquiry) (values gradients : Nat) (s : Logged σ) : Prop :=
  s.log = before ++ (List.replicate values .value ++ List.replicate gradients .valueWithGradient)

theorem meters_logged (f : Objective K σ) (before : List Inquiry) :
    f.logged.Meters (Logged.GoesOn before) where
  eval {n s} x hs := by
    show s.log ++ [.value] = _
    rw [show s.log = _ from hs, List.replicate_zero, List.append_nil, List.append_nil,
      List.replicate_succ', List.append_assoc]
  evalWithGradient {n m s} x hs := by
    show s.log ++ [.valueWithGradient] = _
    rw [show s.log = _ from hs, List.replicate_succ', List.append_assoc, List.append_assoc]

end Objective

open Objective

variable [Scalar K] {p : Problem K σ} {params : SearchParams K}

/-- The problem whose objective keeps a log. -/
def Problem.logged (p : Problem K σ) : Problem K (Logged σ) :=
  { p with objective := p.objective.logged }

namespace SearchKind

omit [Scalar K] in
/-- What a search asks for at each of its trials. -/
def inquiry : SearchKind → Inquiry
  | .armijo => .value
  | .strongWolfe => .valueWithGradient

theorem goesOn_trials {kind : SearchKind} {before : List Inquiry} {trials : Nat} {s : Logged σ}
    (h : Logged.GoesOn before (kind.valuesAmong trials) (kind.gradientsAmong trials) s) :
    s.log = before ++ List.replicate trials kind.inquiry := by
  rw [show s.log = _ from h]
  cases kind with
  | armijo => exact congrArg (before ++ ·) (List.append_nil _)
  | strongWolfe => rfl

/-- **A search adds to the log what it tells of.** -/
theorem search_log (p : Problem K σ) (params : SearchParams K) (point : Vec K) (value : K)
    (gradient direction : Vec K) (w w' : Workspace K (Logged σ)) :
    (∀ a, strongWolfe.search p.logged params point value gradient direction w = (.ok a, w') →
      a.functionEvaluations = a.gradientEvaluations ∧ w'.objective.log =
        w.objective.log ++ List.replicate a.gradientEvaluations .valueWithGradient) ∧
    (∀ a, armijo.search p.logged params point value gradient direction w = (.ok a, w') →
      a.gradientEvaluations = 1 ∧ ∃ values, a.functionEvaluations = values + 1 ∧
        w'.objective.log =
          w.objective.log ++ (List.replicate values .value ++ [.valueWithGradient])) ∧
    (∀ kind : SearchKind, ∀ reason trials step start,
      kind.search p.logged params point value gradient direction w =
        (.error (.refused (.lineSearchFailed reason trials step start)), w') →
      w'.objective.log = w.objective.log ++ List.replicate trials kind.inquiry) := by
  have hP : p.logged.objective.Meters (Logged.GoesOn w.objective.log) :=
    p.objective.meters_logged w.objective.log
  have begun : Logged.GoesOn w.objective.log 0 0 w.objective := (List.append_nil _).symm
  have reports (kind : SearchKind) : Ensures _
      (kind.search p.logged params point value gradient direction) _ _ :=
    kind.ensures_reports hP point value gradient direction
  refine ⟨fun a h => ?_, fun a h => ?_, fun kind reason trials step start h => ?_⟩
  · obtain ⟨values, asked, told, spent⟩ := (reports .strongWolfe).of_ok begun h
    cases (spent : values = 0)
    exact ⟨told.trans (Nat.zero_add _), asked⟩
  · obtain ⟨values, asked, told, spent⟩ := (reports .armijo).of_ok begun h
    rw [show a.gradientEvaluations = 1 from spent] at asked told
    exact ⟨spent, values, told, asked⟩
  · exact goesOn_trials ((reports kind).of_error begun h trials rfl).2

/-- A search in the bowl from one, after a search that left seven trials and an objective that was
asked for a gradient before. -/
def lineBowlLogged (kind : SearchKind) (params : SearchParams ℚ) :
    Except (Fault (SolverError ℚ)) (Accepted ℚ) × Workspace ℚ (Logged Unit) :=
  kind.search Backtracking.lineBowl.logged params [1] (1 / 2) [1] [-3]
    { objective := { inner := (), log := [.gradient] }, trials := 7 }

theorem search_log_lineBowl :
    (∃ a w', lineBowlLogged .strongWolfe .strongWolfe = (.ok a, w') ∧ a.gradientEvaluations = 5 ∧
      w'.objective.log = .gradient :: List.replicate 5 .valueWithGradient) ∧
    (∃ a w', lineBowlLogged .armijo .backtracking = (.ok a, w') ∧ a.functionEvaluations = 4 ∧
      w'.objective.log = [.gradient, .value, .value, .value, .valueWithGradient]) ∧
    ∃ w', lineBowlLogged .armijo { SearchParams.backtracking with maxIterations := 2 } =
      (.error (Backtracking.failed 2 (1 / 4) (1 / 2)), w') ∧
      w'.objective.log = [.gradient, .value, .value] := by
  refine ⟨?_, ?_, ?_⟩
  · obtain ⟨a, w', found, hfive⟩ := exists_of_yields
      (x := lineBowlLogged .strongWolfe .strongWolfe) (P := fun a => a.gradientEvaluations = 5)
      (by decide +kernel)
    obtain ⟨-, hlog⟩ := (search_log Backtracking.lineBowl _ _ _ _ _ _ w').1 a found
    rw [hfive] at hlog
    exact ⟨a, w', found, hfive, hlog⟩
  · obtain ⟨a, w', found, hfour⟩ := exists_of_yields
      (x := lineBowlLogged .armijo .backtracking) (P := fun a => a.functionEvaluations = 4)
      (by decide +kernel)
    obtain ⟨-, values, hvalues, hlog⟩ :=
      (search_log Backtracking.lineBowl _ _ _ _ _ _ w').2.1 a found
    obtain rfl : values = 3 := by omega
    exact ⟨a, w', found, hfour, hlog⟩
  · obtain ⟨_, w', failed, rfl⟩ := exists_of_faults
      (x := lineBowlLogged .armijo { SearchParams.backtracking with maxIterations := 2 })
      (P := (· = Backtracking.failed 2 (1 / 4) (1 / 2))) (by decide +kernel)
    exact ⟨w', failed, (search_log Backtracking.lineBowl _ _ _ _ _ _ w').2.2 _ _ _ _ _ failed⟩

end SearchKind

end GeodesicDescent
