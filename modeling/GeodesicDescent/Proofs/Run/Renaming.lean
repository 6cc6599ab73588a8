import GeodesicDescent.Proofs.LineSearch.Renaming
import GeodesicDescent.Proofs.Run.Iterations

/-!
# Runs that end alike

Two runs take the same steps where their rules choose the same directions and their objectives
differ in the names of values only, as long as no limit is set for the values.

* `Workspace.Alike`, `RunState.Alike`: states that differ in what no step reads, and in the names of
  values;
* `DirectionRule.Blind`: a rule that does not look at values, and at only a part of its own state;
* `Setup.Parallel`: a rule, an objective and a clock that a run does not tell from its own;
* `Running.follows_iterate`: an iteration of either run does what one of the other does;
* **`Setup.run_follows`**: the runs end alike.
-/

namespace GeodesicDescent

open Stateful

variable {K σ ρ α β : Type}

/-! ## States of a search -/

/-- The workspaces differ at most in what was reported. -/
structure Workspace.Alike (w w' : Workspace K σ) : Prop where
  cache_eq : w'.cache = w.cache
  objective_eq : w'.objective = w.objective
  trials_eq : w'.trials = w.trials

namespace Searching

variable {k : Fault (SolverError K) → Fault (SolverError K)}

theorem follows_ofCached (hk : ∀ e : Fault GeometryError, k (e.map .geometry) = e.map .geometry)
    (m : Cached K α) : Follows (Workspace.Alike (σ := σ)) k id (ofCached m) (ofCached m) := by
  intro w w' hw
  unfold ofCached
  rw [hw.cache_eq]
  rcases m w.cache with ⟨e | a, c⟩
  · exact ⟨congrArg Except.error (hk e).symm, rfl, hw.objective_eq, hw.trials_eq⟩
  · exact ⟨rfl, rfl, hw.objective_eq, hw.trials_eq⟩

theorem follows_ofEval (hk : ∀ e : Fault GeometryError, k (e.map .geometry) = e.map .geometry)
    {g : α → β} {m : Eval σ α} {m' : Eval σ β} (hm : m' = g <$> m) :
    Follows Workspace.Alike k g (ofEval m) (ofEval m') := by
  intro w w' hw
  unfold ofEval
  rw [hm, hw.objective_eq, map_apply]
  rcases m w.objective with ⟨e | a, o⟩
  · exact ⟨congrArg Except.error (hk e).symm, hw.cache_eq, rfl, hw.trials_eq⟩
  · exact ⟨rfl, hw.cache_eq, rfl, hw.trials_eq⟩

theorem follows_report (e e' : Event K) :
    Follows (Workspace.Alike (σ := σ)) k id (report e) (report e') :=
  fun _ _ hw => ⟨rfl, hw.cache_eq, hw.objective_eq, hw.trials_eq⟩

theorem follows_reportAll (es es' : List (Event K)) :
    Follows (Workspace.Alike (σ := σ)) k id (reportAll es) (reportAll es') := by
  intro w w' hw
  rw [Running.reportAll_apply, Running.reportAll_apply]
  exact ⟨rfl, hw.cache_eq, hw.objective_eq, hw.trials_eq⟩

end Searching

variable [Scalar K] {φ : Renaming K}

/-- The answers of `f'` are those of `f`, but for the names of values. -/
structure Objective.Renamed (φ : Renaming K) (f f' : Objective K σ) : Prop where
  eval_eq : ∀ x, f'.eval x = φ.toFun <$> f.eval x
  evalWithGradient_eq : ∀ x, f'.evalWithGradient x = Prod.map φ id <$> f.evalWithGradient x
  offersHessian_eq : f'.offersHessian = f.offersHessian

/-- The same problem with another objective. -/
def Problem.facing (p : Problem K σ) (f : Objective K σ) : Problem K σ := { p with objective := f }

namespace Problem

variable {p : Problem K σ} {f : Objective K σ} (hf : p.objective.Renamed φ f)
include hf

theorem follows_evaluate {k : Fault (SolverError K) → Fault (SolverError K)}
    (hk : ∀ e : Fault GeometryError, k (e.map .geometry) = e.map .geometry) (y : Vec K) :
    Follows Workspace.Alike k (Prod.map φ id) (p.evaluate y) ((p.facing f).evaluate y) := by
  refine follows_bind (Searching.follows_ofEval hk (hf.evalWithGradient_eq y)) fun answer _ => ?_
  exact follows_bind (Searching.follows_ofCached hk _) fun gradient _ => follows_pure rfl

theorem parallel_facing (x ξ : Vec K) : p.Parallel φ Workspace.Alike x ξ (p.facing f) where
  inner_eq := rfl
  retract_eq := rfl
  eval y := Searching.follows_ofEval (Fault.rename_map_geometry φ) (hf.eval_eq y)
  evaluate y := follows_evaluate hf (Fault.rename_map_geometry φ) y
  differential _ _ _ := Searching.follows_ofCached (Fault.rename_map_geometry φ) _
  trials_eq hw := hw.trials_eq
  trials _ hw := ⟨hw.cache_eq, hw.objective_eq, rfl⟩
  report _ hw := ⟨hw.cache_eq, hw.objective_eq, hw.trials_eq⟩

end Problem

/-! ## Rules -/

variable (φ)

def Iterate.rename (it : Iterate K) : Iterate K :=
  { it with value := φ it.value, nextValue := φ it.nextValue }

def Result.rename (r : Result K) : Result K :=
  { r with value := φ r.value, history := r.history.map φ }

variable {φ}

/-- The headings have the same direction and cache, and states of the rule that `T` relates. -/
structure Heading.Alike (T : ρ → ρ → Prop) (h h' : Heading K ρ) : Prop where
  direction_eq : h'.direction = h.direction
  cache_eq : h'.cache = h.cache
  rule : T h.rule h'.rule

namespace Steering

variable {T : ρ → ρ → Prop}

omit [Scalar K] in
theorem follows_ofChecked (m : Checked α) :
    Follows (Heading.Alike (K := K) T) id id (ofChecked m) (ofChecked m) :=
  fun _ _ hh => ⟨by cases m <;> rfl, hh⟩

omit [Scalar K] in
theorem follows_ofCached (m : Cached K α) :
    Follows (Heading.Alike T) id id (ofCached m) (ofCached m) := by
  intro h h' hh
  unfold ofCached
  rw [hh.cache_eq]
  rcases m h.cache with ⟨e | a, c⟩
  · exact ⟨rfl, hh.direction_eq, rfl, hh.rule⟩
  · exact ⟨rfl, hh.direction_eq, rfl, hh.rule⟩

end Steering

/-- The rule does the same on iterates that differ in the names of values, from any two of its
states that `T` relates. -/
structure DirectionRule.Blind (φ : Renaming K) (T : ρ → ρ → Prop) (M : Manifold K)
    (d : DirectionRule K ρ) : Prop where
  announce : ∀ {r r'}, T r r' →
    (d.announce r').map (fun _ => ()) = (d.announce r).map fun _ => ()
  steer : ∀ it, Follows (Heading.Alike T) id id (d.steer M it) (d.steer M (it.rename φ))
  learn : ∀ it, Follows (Heading.Alike T) id id (d.learn M it) (d.learn M (it.rename φ))

/-! ## Stopping -/

/-- The criterion sets no limit that shows the names of values or the time by another clock. -/
structure StoppingRule.Blind (φ : Renaming K) (clock clock' : Nat → Nat) (c : StoppingRule K) :
    Prop where
  target : ∀ goal, c.targetValue = some goal → ∀ v, φ v ≤ goal ↔ v ≤ goal
  time : ∀ limit, c.maxTime = some limit → clock' = clock

theorem StoppingRule.Blind.reason?_eq {clock clock' : Nat → Nat} {c : StoppingRule K}
    (hc : c.Blind φ clock clock') {s : Status K} {n : Nat} (helapsed : s.elapsed = clock n) :
    c.reason? { s with
      value := φ s.value
      previousValue := s.previousValue.map φ
      elapsed := clock' n } = c.reason? s := by
  have htarget : c.targetValue.any (φ s.value ≤ ·) = c.targetValue.any (s.value ≤ ·) := by
    cases h : c.targetValue with
    | none => rfl
    | some goal => exact decide_eq_decide.2 (hc.target goal h s.value)
  have htime : c.maxTime.any (· ≤ clock' n) = c.maxTime.any (· ≤ s.elapsed) := by
    cases h : c.maxTime with
    | none => rfl
    | some limit => rw [hc.time limit h, helapsed]
  have hchange (tolerance : K) :
      ((s.previousValue.map φ).any fun previous => Scalar.abs (previous - φ s.value) < tolerance) =
        s.previousValue.any fun previous => Scalar.abs (previous - s.value) < tolerance := by
    cases s.previousValue with
    | none => rfl
    | some previous => simp only [Option.map_some, Option.any_some, φ.abs_sub_eq]
  unfold reason?
  simp only [φ.isFinite_eq, htarget, htime, hchange]

/-! ## States of a run -/

/-- The states differ in the names of values, in what was reported, and in the state of the rule as
`T` allows. -/
structure RunState.Alike (φ : Renaming K) (T : ρ → ρ → Prop) (s s' : RunState K σ ρ) : Prop where
  iterate_eq : s'.iterate = s.iterate.rename φ
  direction_eq : s'.direction = s.direction
  rule : T s.rule s'.rule
  work : s.work.Alike s'.work
  functionEvaluations_eq : s'.functionEvaluations = s.functionEvaluations
  gradientEvaluations_eq : s'.gradientEvaluations = s.gradientEvaluations
  history_eq : s'.history = s.history.map φ
  previousValue_eq : s'.previousValue = s.previousValue.map φ

/-- The same setup with another objective and another clock. -/
def Setup.facing (u : Setup K σ ρ) (f : Objective K σ) (clock : Nat → Nat) : Setup K σ ρ :=
  { u with objective := f, clock }

/-- With the objective `f` and the clock `clock` a run goes on as it does without. -/
structure Setup.Parallel (φ : Renaming K) (T : ρ → ρ → Prop) (u : Setup K σ ρ) (f : Objective K σ)
    (clock : Nat → Nat) : Prop where
  objective : u.objective.Renamed φ f
  rule : u.rule.Blind φ T u.manifold
  criterion : u.config.criterion.Blind φ u.clock clock

variable {T : ρ → ρ → Prop} {u : Setup K σ ρ} {f : Objective K σ} {clock : Nat → Nat}

theorem Setup.problem_facing (hf : u.objective.Renamed φ f) (clock : Nat → Nat) :
    (u.facing f clock).problem = u.problem.facing f := by
  have husage : u.rule.usage.limitedTo f = u.rule.usage.limitedTo u.objective := by
    rw [Usage.limitedTo, hf.offersHessian_eq]
    rfl
  exact congrArg (Problem.mk f u.manifold) husage

namespace Running

theorem follows_ofSearching {g : α → β} {m : Searching K σ α} {m' : Searching K σ β}
    (hm : Follows Workspace.Alike id g m m') :
    Follows (RunState.Alike φ T) id g (ofSearching m) (ofSearching m') := fun s s' hs =>
  let ⟨hend, hwork⟩ := hm s.work s'.work hs.work
  ⟨hend, { hs with work := hwork }⟩

theorem follows_attempt {k : Fault (SolverError K) → Fault (SolverError K)} {g : α → β}
    {m : Searching K σ α} {m' : Searching K σ β} (hm : Follows Workspace.Alike k g m m') :
    Follows (RunState.Alike φ T) id (fun r => (r.map g).mapError k) (attempt m) (attempt m') :=
  fun s s' hs =>
    let ⟨hend, hwork⟩ := hm s.work s'.work hs.work
    ⟨congrArg Except.ok hend, { hs with work := hwork }⟩

theorem follows_ofSteering {g : α → β} {m : Steering K ρ α} {m' : Steering K ρ β}
    (hm : Follows (Heading.Alike T) id g m m') :
    Follows (RunState.Alike (σ := σ) φ T) id g (ofSteering m) (ofSteering m') := by
  intro s s' hs
  obtain ⟨hend, hdirection, hcache, hrule⟩ := hm ⟨s.direction, s.work.cache, s.rule⟩
    ⟨s'.direction, s'.work.cache, s'.rule⟩ ⟨hs.direction_eq, hs.work.cache_eq, hs.rule⟩
  exact ⟨hend, { hs with
    direction_eq := hdirection
    rule := hrule
    work := ⟨hcache, hs.work.objective_eq, hs.work.trials_eq⟩ }⟩

variable (hu : u.Parallel φ T f clock)
include hu

theorem follows_assess :
    Follows (RunState.Alike φ T) id id (assess u) (assess (u.facing f clock)) := by
  refine follows_get_bind fun s s' hs => ?_
  rw [hs.iterate_eq, hs.previousValue_eq, hs.functionEvaluations_eq]
  refine follows_bind (follows_ofSearching (Searching.follows_ofChecked (fun _ => rfl) _))
    fun norm _ => follows_pure ?_
  exact congrArg (Prod.mk norm) (hu.criterion.reason?_eq (s := status u s norm) rfl)

theorem follows_search :
    Follows (RunState.Alike φ T) id
      (fun r => (r.map (Accepted.rename φ)).mapError (Fault.rename φ)) (search u)
      (search (u.facing f clock)) := by
  refine follows_get_bind fun s s' hs => ?_
  rw [hs.iterate_eq, hs.direction_eq, Setup.problem_facing hu.objective]
  exact follows_attempt
    (SearchKind.follows_search (Problem.parallel_facing hu.objective _ _) _ _ _)

theorem follows_advance (norm : K) (a : Accepted K) :
    Follows (RunState.Alike φ T) id id (advance u norm a)
      (advance (u.facing f clock) norm (a.rename φ)) := by
  refine follows_bind (follows_modify fun s s' hs => ?_) fun _ _ => ?_
  · exact { hs with
      iterate_eq := by
        rw [enter, enter, hs.iterate_eq, hs.direction_eq]
        rfl
      functionEvaluations_eq := by
        rw [enter, enter, hs.functionEvaluations_eq]
        rfl
      gradientEvaluations_eq := by
        rw [enter, enter, hs.gradientEvaluations_eq]
        rfl }
  refine follows_get_bind fun s s' hs => ?_
  rw [hs.iterate_eq]
  refine follows_ite Iff.rfl ?_ ?_
  · exact follows_bind (follows_ofSearching (Searching.follows_report _ _))
      fun _ _ _ _ ht => ⟨rfl, ht⟩
  refine follows_bind (follows_modify fun t t' ht => { ht with iterate_eq := rfl }) fun _ _ => ?_
  refine follows_bind (follows_ofSteering (hu.rule.learn _)) fun _ _ => ?_
  refine follows_bind (follows_ofSearching (Searching.follows_report _ _)) fun _ _ => ?_
  refine follows_get_bind fun t t' ht => ?_
  refine follows_bind (follows_ofSearching (Searching.follows_reportAll _ _)) fun _ _ => ?_
  refine follows_modify fun r r' hr => { hr with
    iterate_eq := rfl
    history_eq := ?_
    previousValue_eq := rfl }
  rw [hr.history_eq, Array.map_push]
  rfl

theorem follows_iterate :
    Follows (RunState.Alike φ T) id id (iterate u) (iterate (u.facing f clock)) := by
  refine follows_bind (follows_assess hu) fun ⟨norm, reason⟩ _ => ?_
  cases reason with
  | some reason => exact follows_pure rfl
  | none =>
    refine follows_get_bind fun s s' hs => ?_
    rw [hs.iterate_eq]
    refine follows_bind (follows_ofSteering (hu.rule.steer _)) fun _ _ => ?_
    refine follows_bind (follows_search hu) fun result _ => ?_
    cases result with
    | ok a => exact follows_bind (follows_advance hu norm a) fun _ _ => follows_pure rfl
    | error fault =>
      cases fault with
      | refused e =>
        cases e with
        | lineSearchFailed =>
          refine follows_get_bind fun s s' hs => ?_
          exact follows_bind (follows_ofSearching (Searching.follows_report _ _)) fun _ _ =>
            follows_pure rfl
        | _ => exact follows_throw _
      | _ => exact follows_throw _

theorem follows_loop (budget : Nat) :
    Follows (RunState.Alike φ T) id id (loop u budget) (loop (u.facing f clock) budget) := by
  induction budget with
  | zero => exact follows_throw _
  | succ budget ih =>
    refine follows_bind (follows_iterate hu) fun outcome _ => ?_
    cases outcome with
    | some outcome => exact follows_pure rfl
    | none => exact ih

theorem follows_finish :
    Follows (RunState.Alike φ T) id (Result.rename φ) (finish u) (finish (u.facing f clock)) := by
  refine follows_bind (follows_loop hu _) fun ⟨reason, norm⟩ _ => ?_
  refine follows_get_bind fun s s' hs => ?_
  refine follows_bind (follows_ofSearching (Searching.follows_report _ _)) fun _ _ =>
    follows_pure ?_
  rw [hs.iterate_eq, hs.functionEvaluations_eq, hs.gradientEvaluations_eq, hs.history_eq]
  rfl

end Running

/-! ## A whole run -/

namespace Setup

variable (hu : u.Parallel φ T f clock) {start start' : ρ}
include hu

theorem follows_begin (hstart : T start start') (point : Vec K) :
    Follows Workspace.Alike id (Iterate.rename φ) (u.begin start point)
      ((u.facing f clock).begin start' point) := by
  refine follows_bind (Searching.follows_report _ _) fun _ _ => ?_
  have hannounce := hu.rule.announce hstart
  -- What follows the announcement, which both rules make or neither does.
  have hrest : Follows (Workspace.Alike (σ := σ)) id (Iterate.rename φ) (do
        Searching.ofChecked (Checked.ofExcept u.config.searchParams.validate)
        Searching.report (Running.started u)
        let answer ← u.problem.evaluate point
        return Iterate.start point answer.1 answer.2 u.config.lineSearch)
      (do
        Searching.ofChecked (Checked.ofExcept u.config.searchParams.validate)
        Searching.report (Running.started (u.facing f clock))
        let answer ← (u.facing f clock).problem.evaluate point
        return Iterate.start point answer.1 answer.2 u.config.lineSearch) := by
    refine follows_bind (Searching.follows_ofChecked (fun _ => rfl) _) fun _ _ => ?_
    refine follows_bind (Searching.follows_report _ _) fun _ _ => ?_
    rw [problem_facing hu.objective]
    exact follows_bind (Problem.follows_evaluate hu.objective (fun _ => rfl) point) fun _ _ =>
      follows_pure rfl
  have hrule : (u.facing f clock).rule.announce start' = u.rule.announce start' := rfl
  rw [hrule]
  revert hannounce
  rcases u.rule.announce start with e | events <;> rcases u.rule.announce start' with e' | events'
  all_goals intro hannounce
  · cases hannounce
    exact follows_bind (g := id) (follows_throw _) fun _ _ => hrest
  · cases hannounce
  · cases hannounce
  · exact follows_bind (Searching.follows_reportAll _ _) fun _ _ => hrest

/-- **The runs end alike**: both with the same fault, or both with results that differ in the names
of values only. -/
theorem run_follows (hstart : T start start') (state : σ) (point : Vec K) :
    ((u.facing f clock).run start' state point).1 =
        (u.run start state point).1.map (Result.rename φ) ∧
      ((u.facing f clock).run start' state point).2.objective =
        (u.run start state point).2.objective := by
  have hempty : Workspace.Alike (K := K) { objective := state } { objective := state } :=
    ⟨rfl, rfl, rfl⟩
  have hend := (follows_begin hu hstart point).end_eq hempty
  have hwork := (follows_begin hu hstart point _ _ hempty).2
  unfold run
  rcases hit : (u.begin start point) { objective := state } with ⟨e | it, work⟩ <;>
    rcases hit' : ((u.facing f clock).begin start' point) { objective := state } with
      ⟨e' | it', work'⟩
  all_goals rw [hit, hit'] at hend hwork
  · cases hend
    exact ⟨rfl, hwork.objective_eq⟩
  · cases hend
  · cases hend
  · cases hend
    have hinitial : RunState.Alike φ T (initial it start work)
        (initial (it.rename φ) start' work') :=
      ⟨rfl, rfl, hstart, hwork, rfl, rfl, by simp [initial, Iterate.rename], rfl⟩
    have hfinish := Running.follows_finish hu
    exact ⟨hfinish.end_eq hinitial, (hfinish _ _ hinitial).2.work.objective_eq⟩

end Setup

end GeodesicDescent
