import GeodesicDescent.Proofs.LineSearch.Keeping

/-!
# What a search asks of an objective

A search asks an objective for values alone or for values with gradients, and tells how often it
did, whether it accepts a step or finds none. Whatever an objective keeps of these inquiries is in
agreement with what the search tells, and there are no more of them than the steps that may be tried
allow for.

* **`Objective.Meters`**: what an objective keeps of the inquiries;
* `SearchKind.Reports`, `SearchKind.ReportsFailure`: that a search tells of all its inquiries, if it
  accepts a step and if it finds none;
* **`SearchKind.ensures_reports`**: a search tells of all its inquiries;
* **`SearchKind.functionEvaluations_le`**: an accepted step tells of no more than the budget;
* **`SearchKind.ensures_tally`**: on a counted objective the tally after a search is the one before
  it and what the search tells;
* **`SearchKind.raises_search`**: it grows by no more than the budget.
-/

namespace GeodesicDescent

open Stateful Objective

variable {K σ α : Type}

/-- The evaluations that a search reports which finds no step. -/
def Fault.trials? : Fault (SolverError K) → Option Nat
  | .refused (.lineSearchFailed _ evaluations _ _) => some evaluations
  | _ => none

theorem Fault.trials?_map_geometry (e : Fault GeometryError) :
    (e.map .geometry : Fault (SolverError K)).trials? = none := by
  cases e <;> rfl

namespace SearchKind

variable (kind : SearchKind)

/-- After a search that accepts a step, the objective was asked for what the search reports. -/
def Reports (P : Nat → Nat → σ → Prop) (a : Accepted K) (w : Workspace K σ) : Prop :=
  ∃ values, P values a.gradientEvaluations w.objective ∧
    a.functionEvaluations = values + a.gradientEvaluations ∧
    kind.Spends values a.gradientEvaluations

variable [Scalar K]

/-- After a search that finds no step, the objective was asked for what the search reports, and for
something if the budget was for any trial. -/
def ReportsFailure (params : SearchParams K) (P : Nat → Nat → σ → Prop) (e : Fault (SolverError K))
    (w : Workspace K σ) : Prop :=
  ∀ n, e.trials? = some n → (0 < params.maxIterations → 0 < n) ∧
    P (kind.valuesAmong n) (kind.gradientsAmong n) w.objective

end SearchKind

variable [Scalar K]

/-- What an objective keeps of its inquiries: `P n m` holds of its states after `n` for a value
alone and then `m` for a value with its gradient, whatever they end in. -/
structure Objective.Meters (f : Objective K σ) (P : Nat → Nat → σ → Prop) : Prop where
  eval : ∀ {n s} x, P n 0 s → P (n + 1) 0 (f.eval x s).2
  evalWithGradient : ∀ {n m s} x, P n m s → P n (m + 1) (f.evalWithGradient x s).2

variable {kind : SearchKind} {p : Problem K σ} {params : SearchParams K}
variable {P : Nat → Nat → σ → Prop}

theorem Objective.Meters.accounts (hP : p.objective.Meters P) :
    p.Accounts fun n m w => P n m w.objective where
  eval x := hP.eval x
  evaluate {n m w} x hw := by
    obtain ⟨c, hc⟩ := Problem.evaluate_snd (p := p) x w
    rw [hc]
    exact hP.evalWithGradient x hw
  differential _ _ _ _ hw := hw
  trials _ hw := hw
  report _ hw := hw

namespace SearchKind

variable {point gradient direction : Vec K} {value : K}

/-- **A search tells of all its inquiries.** -/
theorem ensures_reports (hP : p.objective.Meters P) (kind : SearchKind)
    (point : Vec K) (value : K) (gradient direction : Vec K) :
    Ensures (fun w => P 0 0 w.objective) (kind.search p params point value gradient direction)
      (kind.Reports P) (kind.ReportsFailure params P) := by
  refine (ensures_search hP.accounts (fun e w hfault n hn => ?_) fun w _ n hn => nomatch hn).mono
    (fun a w hsettled => hsettled.told) fun _ _ hfault => hfault
  cases hfault with
  | relayed fault =>
    rw [Fault.trials?_map_geometry] at hn
    cases hn
  | failed _ _ _ known _ pos =>
    cases hn
    exact ⟨pos, known⟩

/-- **A step that a search accepts tells of no more evaluations than the budget.** -/
theorem functionEvaluations_le {a : Accepted K} {w w' : Workspace K σ}
    (h : kind.search p params point value gradient direction w = (.ok a, w')) :
    a.functionEvaluations ≤ kind.budget params.maxIterations := by
  have hend : Ensures (fun _ => True) (kind.search p params point value gradient direction)
      (kind.Settled params fun _ _ _ => True) fun _ _ => True :=
    ensures_search p.accounts_nothing (fun _ _ _ => trivial) fun _ _ => trivial
  exact (hend.of_ok trivial h).within

end SearchKind

/-! ## Counted objectives -/

/-- The tally after more evaluations, some of them with gradients. -/
def Objective.Tally.plus (t : Tally) (values gradients : Nat) : Tally :=
  { t with values := t.values + values, gradients := t.gradients + gradients }

/-- The tally has grown by the inquiries, those with gradients counted as both. -/
def Objective.Tally.Counts (t : Tally) (values gradients : Nat) (s : Counted σ) : Prop :=
  s.tally = t.plus (values + gradients) gradients

theorem Objective.meters_counted (f : Objective K σ) (t : Tally) : f.counted.Meters t.Counts where
  eval {n s} x hs := by
    show { s.tally with values := s.tally.values + 1 } = t.plus (n + 1 + 0) 0
    rw [show s.tally = t.plus (n + 0) 0 from hs]
    rfl
  evalWithGradient {n m s} x hs := by
    show { s.tally with values := s.tally.values + 1, gradients := s.tally.gradients + 1 } =
      t.plus (n + (m + 1)) (m + 1)
    rw [show s.tally = t.plus (n + m) m from hs]
    rfl

/-- The problem whose objective keeps a tally. -/
def Problem.counted (p : Problem K σ) : Problem K (Counted σ) :=
  { p with objective := p.objective.counted }

omit [Scalar K] in
/-- After a search that finds no step, the tally has grown by at least one evaluation, and by what
the search reports. -/
def Untaken (kind : SearchKind) (t : Tally) (e : Fault (SolverError K))
    (w : Workspace K (Counted σ)) : Prop :=
  ∀ n, e.trials? = some n → 0 < n ∧ w.objective.tally = t.plus n (kind.gradientsAmong n)

omit [Scalar K] in
/-- After a search that accepts a step, the tally has grown by what the search reports. -/
def Taken (t : Tally) (a : Accepted K) (w : Workspace K (Counted σ)) : Prop :=
  w.objective.tally = t.plus a.functionEvaluations a.gradientEvaluations

/-- **After a search the tally is the one before it and what the search tells.** -/
theorem SearchKind.ensures_tally {t : Tally} (hbudget : 0 < params.maxIterations)
    (kind : SearchKind) (point : Vec K) (value : K) (gradient direction : Vec K) :
    Ensures (fun w => w.objective.tally = t)
      (kind.search p.counted params point value gradient direction) (Taken t)
      (Untaken kind t) := by
  have hP : p.counted.objective.Meters t.Counts := p.objective.meters_counted t
  have start (w : Workspace K (Counted σ)) (h : w.objective.tally = t) :
      t.Counts 0 0 w.objective := h
  refine ((kind.ensures_reports hP point value gradient direction).of_imp start).mono ?_ ?_
  · rintro a w ⟨values, htally, hsum, -⟩
    rw [Taken, hsum]
    exact htally
  · intro e w h n hn
    obtain ⟨hpos, htally⟩ := h n hn
    rw [Tally.Counts, kind.valuesAmong_add_gradientsAmong] at htally
    exact ⟨hpos hbudget, htally⟩

/-- The evaluations of a counted objective. -/
def Workspace.evaluations (w : Workspace K (Counted σ)) : Nat := w.objective.tally.values

/-- **A search asks a counted objective for no more values than its budget.** -/
theorem SearchKind.raises_search (kind : SearchKind) {point gradient direction : Vec K}
    {value : K} :
    Raises Workspace.evaluations (kind.budget params.maxIterations)
      (kind.search p.counted params point value gradient direction) := by
  intro w
  have hP : p.counted.objective.Meters (Tally.Counts w.objective.tally) :=
    p.objective.meters_counted w.objective.tally
  have hwithin (n m : Nat) (w' : Workspace K (Counted σ))
      (within : n + m ≤ kind.budget params.maxIterations)
      (hw' : w.objective.tally.Counts n m w'.objective) :
      w'.evaluations ≤ w.evaluations + kind.budget params.maxIterations := by
    show w'.objective.tally.values ≤ _
    rw [show w'.objective.tally = _ from hw']
    exact Nat.add_le_add_left within _
  exact search_snd (R := fun w' => w'.evaluations ≤ w.evaluations + _) hP.accounts hwithin rfl

end GeodesicDescent
