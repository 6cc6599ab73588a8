import GeodesicDescent.Proofs.LineSearch.Workspace
import GeodesicDescent.Solver.Run
import Mathlib.Logic.Relation

/-!
# Iterations of a run

A run is the repetition of one step, and this module says once what that step can do.

* `Running.Steers`: there is no reason to stop, and the rule has chosen a direction;
* **`iterates_of_eq_ok`**: an iteration stops, takes a step or finds none;
* `advance_eq_ok`: the state after a step;
* `Running.Steps`: an iteration that takes a step, with all that happens on the way;
* **`Setup.Visits`**: the states in which the iterations of a run start;
* **`begin_inv`**, **`run_inv`**: what precedes a run, and how a run that succeeds ends;
* `run_of_refused`: a run with parameters that are refused;
* `after?`, `exists_of_after?`: the same states by evaluation, and what that shows.
-/

namespace GeodesicDescent

open Stateful Relation

variable {K σ ρ α : Type}

namespace Running

variable {s s' : RunState K σ ρ} {a : α}

/-! ## Parts of a run -/

theorem ofSearching_eq_ok {m : Searching K σ α} :
    (ofSearching m : Running K σ ρ α) s = (.ok a, s') ↔
      ∃ work, m s.work = (.ok a, work) ∧ s' = { s with work } := by
  unfold ofSearching
  rcases m s.work with ⟨r, work⟩
  exact part_eq_ok (fun work : Workspace K σ => { s with work }) Iff.rfl

theorem attempt_eq_ok {m : Searching K σ α} {r : Except (Fault (SolverError K)) α} :
    (attempt m : Running K σ ρ _) s = (.ok r, s') ↔
      ∃ work, m s.work = (r, work) ∧ s' = { s with work } := by
  unfold attempt
  rcases m s.work with ⟨r', work⟩
  constructor
  · intro h
    cases h
    exact ⟨work, rfl, rfl⟩
  · rintro ⟨_, h, rfl⟩
    cases h
    rfl

theorem ofSteering_eq_ok {m : Steering K ρ α} :
    (ofSteering m : Running K σ ρ α) s = (.ok a, s') ↔
      ∃ h, m ⟨s.direction, s.work.cache, s.rule⟩ = (.ok a, h) ∧ s' = { s with
        direction := h.direction
        work := { s.work with cache := h.cache }
        rule := h.rule } := by
  unfold ofSteering
  rcases m ⟨s.direction, s.work.cache, s.rule⟩ with ⟨r, h⟩
  let put (h : Heading K ρ) : RunState K σ ρ := { s with
    direction := h.direction
    work := { s.work with cache := h.cache }
    rule := h.rule }
  exact part_eq_ok put Iff.rfl

theorem report_apply (e : Event K) (w : Workspace K σ) :
    (Searching.report e : Searching K σ Unit) w = (.ok (), { w with trace := w.trace.push e }) :=
  rfl

theorem reportAll_apply (es : List (Event K)) (w : Workspace K σ) :
    (Searching.reportAll es : Searching K σ Unit) w =
      (.ok (), { w with trace := es.foldl Array.push w.trace }) := by
  induction es generalizing w with
  | nil => rfl
  | cons e es ih => exact ih _

end Running

variable [Scalar K] {u : Setup K σ ρ} {s s' t : RunState K σ ρ}

namespace Running

/-! ## One iteration -/

/-- Where a run stands in a state, for the stopping rule. -/
def status (u : Setup K σ ρ) (s : RunState K σ ρ) (norm : K) : Status K where
  iteration := s.iterate.iteration
  value := s.iterate.value
  previousValue := s.previousValue
  gradientNorm := norm
  functionEvaluations := s.functionEvaluations
  elapsed := u.clock s.iterate.iteration

theorem assess_eq_ok {norm : K} {reason : Option Reason} :
    assess u s = (.ok (norm, reason), s') ↔
      u.manifold.norm s.iterate.point s.iterate.gradient = .ok norm ∧
      u.config.criterion.reason? (status u s norm) = reason ∧ s' = s := by
  simp only [assess, bind_eq_ok, get_apply, ok_eq_ok, pure_apply, ofSearching_eq_ok,
    Searching.ofChecked_eq_ok, Prod.mk.injEq]
  constructor
  · rintro ⟨_, _, ⟨rfl, rfl⟩, _, _, ⟨_, ⟨hnorm, rfl⟩, rfl⟩, ⟨rfl, hreason⟩, rfl⟩
    exact ⟨hnorm, hreason, rfl⟩
  · rintro ⟨hnorm, hreason, rfl⟩
    exact ⟨_, _, ⟨rfl, rfl⟩, norm, _, ⟨_, ⟨hnorm, rfl⟩, rfl⟩, ⟨rfl, hreason⟩, rfl⟩

/-- There is no reason to stop in `s`, and the rule has chosen the direction of `t`. -/
structure Steers (u : Setup K σ ρ) (s : RunState K σ ρ) (norm : K) (t : RunState K σ ρ) :
    Prop where
  norm_eq : u.manifold.norm s.iterate.point s.iterate.gradient = .ok norm
  goes_on : u.config.criterion.reason? (status u s norm) = none
  steered : ofSteering (u.rule.steer u.manifold s.iterate) s = (.ok (), t)

/-- A rule writes the direction, the cache and its own state, and nothing else. -/
theorem Steers.frame {norm : K} (h : Steers u s norm t) : t = { s with
    direction := t.direction
    work := { s.work with cache := t.work.cache }
    rule := t.rule } := by
  obtain ⟨_, -, rfl⟩ := ofSteering_eq_ok.1 h.steered
  rfl

/-- The direction that is chosen in a state without a reason to stop, with the gradient norm. -/
def steered? (u : Setup K σ ρ) (s : RunState K σ ρ) : Option (K × RunState K σ ρ) :=
  match assess u s, ofSteering (u.rule.steer u.manifold s.iterate) s with
  | (.ok (norm, none), _), (.ok (), t) => some (norm, t)
  | _, _ => none

theorem steers_of_steered? {norm : K} (h : steered? u s = some (norm, t)) : Steers u s norm t := by
  unfold steered? at h
  split at h
  · next assessed steered =>
    cases h
    obtain ⟨norm_eq, goes_on, -⟩ := assess_eq_ok.1 assessed
    exact ⟨norm_eq, goes_on, steered⟩
  · cases h

theorem Steers.iterate_eq {norm : K} (h : Steers u s norm t) : t.iterate = s.iterate := by
  rw [h.frame]

theorem Steers.history_eq {norm : K} (h : Steers u s norm t) : t.history = s.history := by
  rw [h.frame]

/-- The line search of a run along the direction of a state. -/
def searchFrom (u : Setup K σ ρ) (t : RunState K σ ρ) : Searching K σ (Accepted K) :=
  u.config.lineSearch.search u.problem u.config.searchParams t.iterate.point t.iterate.value
    t.iterate.gradient t.direction

theorem search_apply (t : RunState K σ ρ) : search u t = attempt (searchFrom u t) t := rfl

/-- An iteration that starts in `s` searches from `t` and accepts the step `a`. -/
def Accepts (u : Setup K σ ρ) (s t : RunState K σ ρ) (norm : K) (a : Accepted K)
    (work : Workspace K σ) : Prop :=
  Steers u s norm t ∧ searchFrom u t t.work = (.ok a, work)

/-- What an iteration that does not fault leads to. -/
inductive Iterates (u : Setup K σ ρ) (s : RunState K σ ρ) :
    Option (Reason × K) → RunState K σ ρ → Prop
  /-- There is a reason to stop. -/
  | stops {norm reason} (norm_eq : u.manifold.norm s.iterate.point s.iterate.gradient = .ok norm)
      (reason_eq : u.config.criterion.reason? (status u s norm) = some reason) :
      Iterates u s (some (reason, norm)) s
  /-- A step is taken. -/
  | moves {norm t a work s'} (accepts : Accepts u s t norm a work)
      (advanced : advance u norm a { t with work } = (.ok (), s')) :
      Iterates u s none s'
  /-- The search finds no step. -/
  | stuck {norm t reason tried last value work} (steers : Steers u s norm t)
      (failed : searchFrom u t t.work =
        (.error (.refused (.lineSearchFailed reason tried last value)), work)) :
      Iterates u s (some (.lineSearchFailed, norm)) { t with
        work := { work with trace := work.trace.push (searchFailed t.iterate.iteration reason) } }

/-- **An iteration that does not fault stops, moves or is stuck.** -/
theorem iterates_of_eq_ok {outcome : Option (Reason × K)} (h : iterate u s = (.ok outcome, s')) :
    Iterates u s outcome s' := by
  simp only [iterate, bind_eq_ok] at h
  obtain ⟨⟨norm, reason⟩, _, hassess, h⟩ := h
  obtain ⟨hnorm, hreason, rfl⟩ := assess_eq_ok.1 hassess
  cases reason with
  | some r =>
    cases h
    exact .stops hnorm hreason
  | none =>
    simp only [bind_eq_ok, get_apply, ok_eq_ok, search_apply, attempt_eq_ok] at h
    obtain ⟨_, _, ⟨rfl, rfl⟩, _, t, hsteer, result, _, ⟨work, found, rfl⟩, h⟩ := h
    have steers : Steers u _ norm t := ⟨hnorm, hreason, hsteer⟩
    split at h
    · simp only [bind_eq_ok, pure_apply, ok_eq_ok] at h
      obtain ⟨_, _, advanced, rfl, rfl⟩ := h
      exact .moves ⟨steers, found⟩ advanced
    · have stuck := Iterates.stuck steers found
      cases h
      exact stuck
    · cases h

/-! ## The state after a step -/

/-- The iterate that a rule learns from after a step. -/
def entered (t : RunState K σ ρ) (a : Accepted K) : Iterate K :=
  { (enter t a).iterate with iteration := t.iterate.iteration + 1 }

/-- What is reported after a step, to the events so far. -/
def reported (u : Setup K σ ρ) (norm : K) (it : Iterate K) (r : ρ) (trace : Array (Event K)) :
    Array (Event K) :=
  (u.rule.report r it).foldl Array.push
    (trace.push (completed it.iteration it.nextValue it.step norm))

/-- The state after a step from `t`, with the heading that the rule has learnt. -/
def moved (u : Setup K σ ρ) (norm : K) (t : RunState K σ ρ) (a : Accepted K) (h : Heading K ρ) :
    RunState K σ ρ where
  iterate := (entered t a).shift
  direction := h.direction
  rule := h.rule
  work := { t.work with
    cache := h.cache
    trace := reported u norm (entered t a) h.rule t.work.trace }
  functionEvaluations := t.functionEvaluations + a.functionEvaluations
  gradientEvaluations := t.gradientEvaluations + a.gradientEvaluations
  history := t.history.push a.value
  previousValue := some t.iterate.value

/-- **A step is taken** only where it stays on the manifold, and the rule learns from it. -/
theorem advance_eq_ok {norm : K} {a : Accepted K} (h : advance u norm a t = (.ok (), s')) :
    u.manifold.containsPoint a.point Scalar.pointTolerance = true ∧ ∃ h,
      u.rule.learn u.manifold (entered t a) ⟨t.direction, t.work.cache, t.rule⟩ = (.ok (), h) ∧
      s' = moved u norm t a h := by
  simp only [advance, bind_eq_ok, modify_apply, get_apply, ok_eq_ok] at h
  obtain ⟨_, _, ⟨-, rfl⟩, _, _, ⟨rfl, rfl⟩, h⟩ := h
  by_cases hout :
      u.manifold.containsPoint (enter t a).iterate.nextPoint Scalar.pointTolerance = false
  · rw [if_pos hout] at h
    cases h
  · rw [if_neg hout] at h
    simp only [bind_eq_ok, modify_apply, get_apply, ok_eq_ok, ofSteering_eq_ok, ofSearching_eq_ok,
      report_apply, reportAll_apply] at h
    obtain ⟨_, _, ⟨-, rfl⟩, _, _, ⟨h', hlearn, rfl⟩, _, _, ⟨_, ⟨-, rfl⟩, rfl⟩, h⟩ := h
    obtain ⟨_, _, ⟨rfl, rfl⟩, _, _, ⟨_, ⟨-, rfl⟩, rfl⟩, -, rfl⟩ := h
    exact ⟨Bool.of_not_eq_false hout, h', hlearn, rfl⟩

/-- The iteration that starts in `s` searches from `t`, accepts the step `a`, which leaves `work`,
learns the heading `h` from it, and leads to `s'`. -/
structure Steps (u : Setup K σ ρ) (s : RunState K σ ρ) (norm : K) (t : RunState K σ ρ)
    (a : Accepted K) (work : Workspace K σ) (h : Heading K ρ) (s' : RunState K σ ρ) : Prop where
  accepts : Accepts u s t norm a work
  stays : u.manifold.containsPoint a.point Scalar.pointTolerance = true
  learnt : u.rule.learn u.manifold (entered t a) ⟨t.direction, work.cache, t.rule⟩ = (.ok (), h)
  state_eq : s' = moved u norm { t with work } a h

theorem steps_of_iterate (hi : iterate u s = (.ok none, s')) :
    ∃ norm t a work h, Steps u s norm t a work h s' := by
  cases iterates_of_eq_ok hi with
  | @moves norm t a work _ accepts advanced =>
    obtain ⟨stays, h, learnt, rfl⟩ := advance_eq_ok advanced
    exact ⟨norm, t, a, work, h, accepts, stays, learnt, rfl⟩

theorem iteration_of_iterate (h : iterate u s = (.ok none, s')) :
    s'.iterate.iteration = s.iterate.iteration + 1 := by
  obtain ⟨norm, t, a, work, h, ⟨steers, -⟩, -, -, rfl⟩ := steps_of_iterate h
  show t.iterate.iteration + 1 = _
  rw [steers.iterate_eq]

theorem loop_eq_ok {budget : Nat} {outcome : Reason × K}
    (h : loop u budget s = (.ok outcome, s')) : ∃ t,
      ReflTransGen (fun a b => iterate u a = (.ok none, b)) s t ∧
      iterate u t = (.ok (some outcome), s') := by
  induction budget generalizing s with
  | zero => cases h
  | succ budget ih =>
    obtain ⟨result, s₁, hiterate, h⟩ := bind_eq_ok.1 h
    cases result with
    | some found =>
      cases h
      exact ⟨s, .refl, hiterate⟩
    | none =>
      obtain ⟨t, hreach, hstop⟩ := ih h
      exact ⟨t, .head hiterate hreach, hstop⟩

/-- What is returned in a state, for a reason and with the gradient norm there. -/
def concluded (s : RunState K σ ρ) (reason : Reason) (norm : K) : Result K where
  point := s.iterate.point
  value := s.iterate.value
  gradientNorm := some norm
  iterations := s.iterate.iteration
  functionEvaluations := s.functionEvaluations
  gradientEvaluations := s.gradientEvaluations
  reason
  history := s.history

/-- The state after the end of a run was reported. -/
def closed (u : Setup K σ ρ) (s : RunState K σ ρ) (reason : Reason) (norm : K) :
    RunState K σ ρ :=
  let e := finished u s.iterate.iteration s.iterate.value norm reason
  { s with work := { s.work with trace := s.work.trace.push e } }

theorem finish_eq_ok {result : Result K} (h : finish u s = (.ok result, s')) :
    ∃ t reason norm, loop u UInt64.size s = (.ok (reason, norm), t) ∧
      result = concluded t reason norm ∧ s' = closed u t reason norm := by
  simp only [finish, bind_eq_ok, get_apply, ok_eq_ok, ofSearching_eq_ok, report_apply,
    pure_apply] at h
  obtain ⟨⟨reason, norm⟩, t, hloop, _, _, ⟨rfl, rfl⟩, _, _, ⟨_, ⟨-, rfl⟩, rfl⟩, rfl, rfl⟩ := h
  exact ⟨t, reason, norm, hloop, rfl, rfl⟩

end Running

/-! ## A whole run -/

omit [Scalar K] in
/-- What a run that ends in a state leaves behind. -/
def RunState.aftermath (s : RunState K σ ρ) : Aftermath K σ ρ where
  rule := s.rule
  objective := s.work.objective
  trace := s.work.trace

namespace Setup

variable {start : ρ} {objective : σ} {point : Vec K}

/-- What a run reports before its first iteration, to the events so far. -/
def opening (u : Setup K σ ρ) (events : List (Event K)) (trace : Array (Event K)) :
    Array (Event K) :=
  (events.foldl Array.push (trace.push u.manifold.parameters)).push (Running.started u)

/-- **What precedes a run** is announced, checked and evaluated. -/
theorem begin_inv {it : Iterate K} {w work : Workspace K σ}
    (h : u.begin start point w = (.ok it, work)) : ∃ events value gradient,
      u.rule.announce start = .ok events ∧ u.config.searchParams.validate = .ok () ∧
      u.problem.evaluate point { w with trace := u.opening events w.trace } =
        (.ok (value, gradient), work) ∧
      it = .start point value gradient u.config.lineSearch := by
  simp only [begin, bind_eq_ok, Running.report_apply, ok_eq_ok] at h
  obtain ⟨_, _, ⟨-, rfl⟩, h⟩ := h
  cases hannounce : u.rule.announce start with
  | error e =>
    rw [hannounce] at h
    cases h
  | ok events =>
    simp only [hannounce, bind_eq_ok, Running.report_apply, Running.reportAll_apply, ok_eq_ok,
      Searching.ofChecked_eq_ok, pure_apply] at h
    obtain ⟨_, _, ⟨-, rfl⟩, _, _, ⟨hvalid, rfl⟩, _, _, ⟨-, rfl⟩, ⟨value, gradient⟩, _, heval, rfl,
      rfl⟩ := h
    exact ⟨events, value, gradient, rfl, ofExcept_eq_ok.1 hvalid, heval, rfl⟩

theorem begin_eq_ok {it : Iterate K} {work : Workspace K σ}
    (h : u.begin start point { objective } = (.ok it, work)) :
    u.config.searchParams.validate = .ok () ∧ ∃ value gradient w, w.cache = {} ∧
      u.problem.evaluate point w = (.ok (value, gradient), work) ∧
      it = .start point value gradient u.config.lineSearch := by
  obtain ⟨events, value, gradient, -, hvalid, heval, rfl⟩ := begin_inv h
  exact ⟨hvalid, value, gradient, _, rfl, heval, rfl⟩

theorem exists_begin_eq_ok {events : List (Event K)} {value : K} {gradient : Vec K}
    (hannounce : u.rule.announce start = .ok events)
    (hvalid : u.config.searchParams.validate = .ok ())
    (heval : ∀ w, ∃ w', u.problem.evaluate point w = (.ok (value, gradient), w')) :
    ∃ work, u.begin start point { objective } =
      (.ok (.start point value gradient u.config.lineSearch), work) := by
  simp only [begin, hannounce, bind_eq_ok, Running.report_apply, Running.reportAll_apply, ok_eq_ok,
    Searching.ofChecked_eq_ok, ofExcept_eq_ok, pure_apply]
  obtain ⟨work, hwork⟩ := heval _
  exact ⟨work, (), _, ⟨trivial, rfl⟩, (), _, ⟨trivial, rfl⟩, (), _, ⟨hvalid, rfl⟩, (), _,
    ⟨trivial, rfl⟩, (value, gradient), work, hwork, rfl, rfl⟩

theorem run_of_refused {events : List (Event K)} {e : GeometryError}
    (hannounce : u.rule.announce start = .ok events)
    (hrefused : u.config.searchParams.validate = .error e) :
    (u.run start objective point).1 = .error (.refused (.geometry e)) := by
  have hbegin : ∃ work, u.begin start point { objective } =
      (.error (.refused (.geometry e)), work) := by
    rw [begin, bind_apply, Running.report_apply]
    dsimp only
    rw [hannounce]
    dsimp only
    rw [bind_apply, Running.reportAll_apply]
    dsimp only
    rw [hrefused]
    exact ⟨_, rfl⟩
  obtain ⟨work, hwork⟩ := hbegin
  unfold run
  rw [hwork]

/-- The states in which the iterations of a run start. -/
inductive Visits (u : Setup K σ ρ) (start : ρ) (objective : σ) (point : Vec K) :
    RunState K σ ρ → Prop
  | first {it work} (begun : u.begin start point { objective } = (.ok it, work)) :
      Visits u start objective point (initial it start work)
  | next {r r'} (visited : Visits u start objective point r)
      (moved : Running.iterate u r = (.ok none, r')) : Visits u start objective point r'

theorem Visits.of_reflTransGen (h : u.Visits start objective point s)
    (hs : ReflTransGen (fun a b => Running.iterate u a = (.ok none, b)) s t) :
    u.Visits start objective point t := by
  induction hs with
  | refl => exact h
  | tail _ moved ih => exact .next ih moved

theorem Visits.begun (h : u.Visits start objective point s) :
    (∃ events, u.rule.announce start = .ok events) ∧
      u.config.searchParams.validate = .ok () := by
  induction h with
  | first begun =>
    obtain ⟨events, _, _, hannounce, hvalid, -, -⟩ := begin_inv begun
    exact ⟨⟨events, hannounce⟩, hvalid⟩
  | next _ _ ih => exact ih

/-- The state in which the iteration starts that comes after so many others. -/
def after? (u : Setup K σ ρ) (start : ρ) (objective : σ) (point : Vec K) :
    Nat → Option (RunState K σ ρ)
  | 0 =>
    match (u.begin start point) { objective } with
    | (.ok it, work) => some (initial it start work)
    | (.error _, _) => none
  | n + 1 =>
    match (u.after? start objective point n).map (Running.iterate u) with
    | some (.ok none, s) => some s
    | _ => none

theorem visits_of_after? {n : Nat} (h : u.after? start objective point n = some s) :
    u.Visits start objective point s := by
  induction n generalizing s with
  | zero =>
    unfold after? at h
    split at h
    · next begun =>
      cases h
      exact .first begun
    · cases h
  | succ n ih =>
    unfold after? at h
    split at h
    · next moved =>
      cases h
      obtain ⟨r, hr, moved⟩ := Option.map_eq_some_iff.1 moved
      exact .next (ih hr) moved
    · cases h

theorem iteration_of_after? {n : Nat} (h : u.after? start objective point n = some s) :
    s.iterate.iteration = n := by
  induction n generalizing s with
  | zero =>
    unfold after? at h
    split at h
    · next begun =>
      cases h
      obtain ⟨_, _, _, -, -, -, rfl⟩ := begin_inv begun
      rfl
    · cases h
  | succ n ih =>
    unfold after? at h
    split at h
    · next moved =>
      cases h
      obtain ⟨r, hr, moved⟩ := Option.map_eq_some_iff.1 moved
      rw [Running.iteration_of_iterate moved, ih hr]
    · cases h

theorem exists_of_after? (start : ρ) (objective : σ) (point : Vec K) (n : Nat)
    {P : RunState K σ ρ → RunState K σ ρ → Bool}
    (h : (u.after? start objective point n).any
      (fun s => (Running.steered? u s).any fun q => P s q.2) = true) :
    ∃ s norm t, u.Visits start objective point s ∧ Running.Steers u s norm t ∧ P s t = true := by
  obtain ⟨s, hs, h⟩ := (Option.any_eq_true _ _).1 h
  obtain ⟨⟨norm, t⟩, ht, h⟩ := (Option.any_eq_true _ _).1 h
  exact ⟨s, norm, t, visits_of_after? hs, Running.steers_of_steered? ht, h⟩

/-- **A run that succeeds** visits a state whose iteration has a reason to stop, and returns and
leaves behind what it finds there. -/
theorem run_inv {result : Result K} {after : Aftermath K σ ρ}
    (h : u.run start objective point = (.ok result, after)) :
    ∃ s s' reason norm, u.Visits start objective point s ∧
      Running.Iterates u s (some (reason, norm)) s' ∧
      result = Running.concluded s' reason norm ∧
      after = (Running.closed u s' reason norm).aftermath := by
  unfold run at h
  rcases hbegin : (u.begin start point) { objective } with ⟨fault | it, work⟩
  · rw [hbegin] at h
    cases h
  · rw [hbegin] at h
    rcases hfinish : Running.finish u (initial it start work) with ⟨_, s₁⟩
    simp only [hfinish, Prod.mk.injEq] at h
    obtain ⟨rfl, rfl⟩ := h
    obtain ⟨s', reason, norm, hloop, rfl, rfl⟩ := Running.finish_eq_ok hfinish
    obtain ⟨s, hreach, hstop⟩ := Running.loop_eq_ok hloop
    exact ⟨s, s', reason, norm, .of_reflTransGen (.first hbegin) hreach,
      Running.iterates_of_eq_ok hstop, rfl, rfl⟩

theorem run_eq_ok {result : Result K} {after : Aftermath K σ ρ}
    (h : u.run start objective point = (.ok result, after)) :
    ∃ s s' reason norm, u.Visits start objective point s ∧
      Running.Iterates u s (some (reason, norm)) s' ∧
      result = Running.concluded s' reason norm := by
  obtain ⟨s, s', reason, norm, visited, ends, hresult, -⟩ := run_inv h
  exact ⟨s, s', reason, norm, visited, ends, hresult⟩

end Setup

end GeodesicDescent
