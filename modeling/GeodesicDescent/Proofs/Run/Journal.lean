import GeodesicDescent.Proofs.Run.Reports
import GeodesicDescent.Proofs.Run.Shift

/-!
# What a run reports of its iterations

One event is reported for every iteration. Its number, its value and its step belong to the point
that the iteration leads to, but its gradient norm to the point that it leaves.

* `completions`: the events of the ends of iterations among all that were reported;
* `Running.Steps.completions_eq`: one step adds one of them;
* `Setup.Passes`: an iteration of a run, with the gradient norms before and after it;
* **`Setup.run_journal`**: the events of a run, iteration by iteration;
* `Setup.run_journal_stale`: a gradient norm that is not the one at the point reached.
-/

namespace GeodesicDescent

open Stateful

variable {K σ ρ : Type}

/-! ## Events of ends of iterations -/

/-- The events that report the ends of iterations, in their order. -/
def completions (trace : Array (Event K)) : List (Event K) :=
  trace.toList.filter fun e => e.message = "iteration completed"

theorem completions_push (trace : Array (Event K)) (e : Event K) :
    completions (trace.push e) = completions trace ++ completions #[e] := by
  rw [completions, Array.toList_push, List.filter_append]
  rfl

theorem completions_pushAll {trace : Array (Event K)} {es : List (Event K)}
    (h : ∀ e ∈ es, completions #[e] = []) :
    completions (es.foldl Array.push trace) = completions trace := by
  induction es generalizing trace with
  | nil => rfl
  | cons e es ih =>
    rw [List.foldl_cons, ih fun e' he' => h e' (List.mem_cons_of_mem e he'), completions_push,
      h e List.mem_cons_self, List.append_nil]

variable [Scalar K]

theorem Problem.partsKeep_completions (p : Problem K σ) (l : List (Event K)) :
    p.PartsKeep fun w => completions w.trace = l where
  eval _ _ hw := hw
  evaluate _ := keeps_bind (fun _ hw => hw) fun _ =>
    keeps_bind (fun _ hw => hw) fun _ => keeps_pure _
  differential _ _ _ _ _ hw := hw
  trials _ _ hw := hw
  report w step hw := by
    rw [completions_push, hw]
    exact List.append_nil l

omit [Scalar K] in
theorem ConjugateGradient.completions_announce {r : ConjugateGradient K} {events : List (Event K)}
    (h : r.announce = .ok events) : ∀ e ∈ events, completions #[e] = [] := by
  obtain ⟨_, -, h⟩ := checked_bind_eq_ok.1 h
  cases h
  simp [completions]

/-! ## One iteration -/

namespace Running

variable {M : Manifold K} {config : SolverOptions K} {objective : Objective K σ}
variable {clock : Nat → Nat} {r r' t : RunState K σ (ConjugateGradient K)} {norm : K}
variable {a : Accepted K} {work : Workspace K σ} {h : Heading K (ConjugateGradient K)}

theorem completions_searchFrom {result : Except (Fault (SolverError K)) (Accepted K)}
    (steers : Steers (M.conjugateGradients config objective clock) r norm t)
    (found : searchFrom (M.conjugateGradients config objective clock) t t.work = (result, work)) :
    completions work.trace = completions r.work.trace := by
  refine (keeps_searchFrom (Problem.partsKeep_completions _ _) t).of_eq ?_ found
  rw [steers.work_eq]

/-- **A step adds one event to those of earlier iterations, and its value to the history.** -/
theorem Steps.completions_eq
    (hs : Steps (M.conjugateGradients config objective clock) r norm t a work h r') :
    completions r'.work.trace = completions r.work.trace ++
      [completed (r.iterate.iteration + 1) a.value a.step norm] ∧
    r'.history = r.history.push a.value := by
  obtain ⟨⟨steers, found⟩, -, -, rfl⟩ := hs
  constructor
  · show completions (reported _ norm (entered t a) h.rule work.trace) = _
    have hreport : ∀ e ∈ ConjugateGradient.report h.rule (entered t a), completions #[e] = [] := by
      simp [ConjugateGradient.report, completions]
    have hcompleted (iteration : Nat) (value step : K) :
        completions #[completed iteration value step norm] =
          [completed iteration value step norm] := rfl
    rw [reported, show (M.conjugateGradients config objective clock).rule.report =
      ConjugateGradient.report from rfl, completions_pushAll hreport, completions_push,
      completions_searchFrom steers found, hcompleted, ← steers.iterate_eq]
    rfl
  · show t.history.push a.value = _
    rw [steers.history_eq]

theorem Iterates.completions_eq {reason : Reason} (hi : Iterates
    (M.conjugateGradients config objective clock) r (some (reason, norm)) r') :
    M.norm r.iterate.point r.iterate.gradient = .ok norm ∧ r'.iterate = r.iterate ∧
      r'.history = r.history ∧ completions r'.work.trace = completions r.work.trace := by
  cases hi with
  | stops norm_eq => exact ⟨norm_eq, rfl, rfl, rfl⟩
  | stuck steers failed =>
    refine ⟨steers.norm_eq, steers.iterate_eq, steers.history_eq, ?_⟩
    rw [← completions_searchFrom steers failed]
    exact (completions_push _ _).trans (List.append_nil _)

end Running

/-! ## A whole run -/

namespace Setup

theorem after?_succ {u : Setup K σ ρ} {start : ρ} {state : σ} {x₀ : Vec K} {n : Nat}
    {r : RunState K σ ρ} : u.after? start state x₀ (n + 1) = some r ↔
      ∃ r₀, u.after? start state x₀ n = some r₀ ∧ Running.iterate u r₀ = (.ok none, r) := by
  rw [after?]
  cases u.after? start state x₀ n with
  | none => simp
  | some r₀ =>
    simp only [Option.map_some, Option.some.injEq, exists_eq_left']
    rcases Running.iterate u r₀ with ⟨_ | _ | _, r'⟩
    · exact iff_of_false (by rintro ⟨⟩) (by rintro ⟨⟩)
    · simp
    · exact iff_of_false (by rintro ⟨⟩) (by rintro ⟨⟩)

theorem Visits.exists_after? {u : Setup K σ ρ} {start : ρ} {state : σ} {x₀ : Vec K}
    {r : RunState K σ ρ} (h : u.Visits start state x₀ r) :
    ∃ n, u.after? start state x₀ n = some r := by
  induction h with
  | first begun => exact ⟨0, by rw [after?, begun]⟩
  | next _ moved ih =>
    obtain ⟨n, hn⟩ := ih
    exact ⟨n + 1, after?_succ.2 ⟨_, hn, moved⟩⟩

/-- The iteration of a run after `k` others takes the step `a` from a point where the gradient norm
is `before`. -/
def Passes (u : Setup K σ ρ) (start : ρ) (state : σ) (x₀ : Vec K) (k : Nat) (before : K)
    (a : Accepted K) : Prop :=
  ∃ r t work h r', u.after? start state x₀ k = some r ∧ u.after? start state x₀ (k + 1) = some r' ∧
    Running.Steps u r before t a work h r'

variable {M : Manifold K} {config : SolverOptions K} {objective : Objective K σ}
variable {clock : Nat → Nat} {start : ConjugateGradient K} {state : σ} {x₀ : Vec K}

/-- What was reported up to the state after `n` iterations. -/
structure Journal (u : Setup K σ ρ) (start : ρ) (state : σ) (x₀ : Vec K) (n : Nat)
    (r : RunState K σ ρ) (events : List (Event K)) : Prop where
  reported : completions r.work.trace = completions #[u.manifold.parameters] ++ events
  length_eq : events.length = n
  size_eq : r.history.size = n + 1
  passes : ∀ k < n, ∃ before a, u.Passes start state x₀ k before a ∧
    r.history[k + 1]? = some a.value ∧
    events[k]? = some (Running.completed (k + 1) a.value a.step before)

theorem journal_begin {r : RunState K σ (ConjugateGradient K)}
    (h : (M.conjugateGradients config objective clock).after? start state x₀ 0 = some r) :
    (M.conjugateGradients config objective clock).Journal start state x₀ 0 r [] := by
  rw [after?] at h
  split at h
  · next it work begun =>
    cases h
    obtain ⟨events, value, gradient, hannounce, -, evaluated, -⟩ := begin_inv begun
    refine ⟨?_, rfl, rfl, fun k hk => absurd hk (Nat.not_lt_zero k)⟩
    refine (((Problem.partsKeep_completions _ _).evaluate x₀).of_eq rfl evaluated).trans ?_
    rw [opening, completions_push, completions_pushAll
      (ConjugateGradient.completions_announce hannounce)]
    rfl
  · cases h

theorem journal_of_after? {n : Nat} {r : RunState K σ (ConjugateGradient K)}
    (h : (M.conjugateGradients config objective clock).after? start state x₀ n = some r) :
    ∃ events, (M.conjugateGradients config objective clock).Journal start state x₀ n r events := by
  induction n generalizing r with
  | zero => exact ⟨[], journal_begin h⟩
  | succ n ih =>
    obtain ⟨r₀, hr₀, moved⟩ := after?_succ.1 h
    obtain ⟨events, reported, length_eq, size_eq, passes⟩ := ih hr₀
    obtain ⟨norm, t, a, work, heading, steps⟩ := Running.steps_of_iterate moved
    obtain ⟨hcompletions, hhistory⟩ := steps.completions_eq
    rw [iteration_of_after? hr₀, reported, List.append_assoc] at hcompletions
    refine ⟨_, hcompletions, by rw [List.length_append, length_eq]; rfl,
      by rw [hhistory, Array.size_push, size_eq], fun k hk => ?_⟩
    rw [hhistory]
    obtain hlt | rfl := Nat.lt_succ_iff_lt_or_eq.1 hk
    · obtain ⟨before, a₀, hpasses, hvalue, hevent⟩ := passes k hlt
      refine ⟨before, a₀, hpasses, ?_, ?_⟩
      · rw [Array.getElem?_push, if_neg (by omega), hvalue]
      · rw [List.getElem?_append_left (by omega), hevent]
    · refine ⟨norm, a, ⟨r₀, t, work, heading, r, hr₀, h, steps⟩, ?_, ?_⟩
      · rw [← size_eq, Array.getElem?_push_size]
      · rw [← length_eq, List.getElem?_concat_length]

theorem Passes.exists_after? {u : Setup K σ ρ} {start : ρ} {k : Nat} {before : K} {a : Accepted K}
    (h : u.Passes start state x₀ k before a) : ∃ r', u.after? start state x₀ (k + 1) = some r' ∧
      r'.iterate.point = a.point ∧ r'.iterate.gradient = a.gradient := by
  obtain ⟨r, t, work, heading, r', -, hr', steps⟩ := h
  refine ⟨r', hr', ?_⟩
  rw [steps.state_eq]
  exact ⟨rfl, rfl⟩

/-- **The events of a run tell its steps one by one**, with the gradient norm before each step. -/
theorem run_journal {result : Result K} {after : Aftermath K σ (ConjugateGradient K)}
    (h : (M.conjugateGradients config objective clock).run start state x₀ = (.ok result, after)) :
    ∃ events, completions after.trace = completions #[M.parameters] ++ events ∧
      events.length = result.iterations ∧ result.history.size = result.iterations + 1 ∧
      ∀ k < result.iterations, ∃ before now a,
        (M.conjugateGradients config objective clock).Passes start state x₀ k before a ∧
        M.norm a.point a.gradient = .ok now ∧
        result.history[k + 1]? = some a.value ∧
        events[k]? = some (Running.completed (k + 1) a.value a.step before) ∧
        (events[k]? = some (Running.completed (k + 1) a.value a.step now) ↔ now = before) := by
  obtain ⟨s, s', reason, norm, visited, ends, rfl, rfl⟩ := run_inv h
  obtain ⟨n, hs⟩ := visited.exists_after?
  obtain ⟨events, reported, length_eq, size_eq, passes⟩ := journal_of_after? hs
  obtain ⟨hnorm, hsame, hhistory, hcompletions⟩ := ends.completions_eq
  have hcount : s'.iterate.iteration = n := by rw [hsame, iteration_of_after? hs]
  have hclosed : completions (Running.closed (M.conjugateGradients config objective clock) s' reason
      norm).work.trace = completions s'.work.trace :=
    (completions_push _ _).trans (List.append_nil _)
  -- The gradient norm after an iteration is found by the next one, also where it ends the run.
  have hnow {k : Nat} {r : RunState K σ (ConjugateGradient K)} (hk : k ≤ n)
      (hr : (M.conjugateGradients config objective clock).after? start state x₀ k = some r) :
      ∃ now, M.norm r.iterate.point r.iterate.gradient = .ok now := by
    obtain hlt | rfl := Nat.lt_or_eq_of_le hk
    · obtain ⟨before, a, ⟨r₀, t, work, heading, r', hr₀, -, steps⟩, -⟩ := passes k hlt
      cases hr.symm.trans hr₀
      exact ⟨before, steps.accepts.1.norm_eq⟩
    · cases hr.symm.trans hs
      exact ⟨norm, hnorm⟩
  refine ⟨events, hclosed.trans (hcompletions.trans reported), length_eq.trans hcount.symm, ?_, ?_⟩
  · show s'.history.size = s'.iterate.iteration + 1
    rw [hhistory, size_eq, hcount]
  · intro k hk
    replace hk : k < n := hcount ▸ hk
    obtain ⟨before, a, hpasses, hvalue, hevent⟩ := passes k hk
    obtain ⟨r', hr', hpoint, hgradient⟩ := hpasses.exists_after?
    obtain ⟨now, hnorm'⟩ := hnow hk hr'
    rw [hpoint, hgradient] at hnorm'
    refine ⟨before, now, a, hpasses, hnorm', (congrArg (·[k + 1]?) hhistory).trans hvalue,
      hevent, ?_⟩
    rw [hevent]
    simp [Running.completed, eq_comm]

/-- Two steps into a bowl, with an event for each. -/
theorem run_journal_bowl : ∃ result after events,
    briefDescent.run bowlStart () [1, 1] = (.ok result, after) ∧
    completions after.trace = events ∧ events.length = 2 ∧ result.history.size = 3 ∧
    ∃ before a, briefDescent.Passes bowlStart () [1, 1] 1 before a ∧
      events[1]? = some (Running.completed 2 a.value a.step before) := by
  obtain ⟨result, after, hrun, htwo⟩ := exists_of_yields
    (x := briefDescent.run bowlStart () [1, 1]) (P := fun r => r.iterations = 2) (by decide +kernel)
  have hrun' : ((Flat.manifold ⟨2⟩).conjugateGradients briefDescent.config bowlDescent.objective
      bowlDescent.clock).run bowlStart () [1, 1] = (.ok result, after) := hrun
  obtain ⟨events, hreported, hlength, hsize, hevents⟩ := run_journal hrun'
  obtain ⟨before, -, a, hpasses, -, -, hevent, -⟩ := hevents 1 (by omega)
  exact ⟨result, after, events, hrun, hreported, hlength.trans htwo, by rw [hsize, htwo],
    before, a, hpasses, hevent⟩

/-- Conjugate gradients with backtracking on the line, for `2x²`. -/
def valley : Setup ℚ Unit (ConjugateGradient ℚ) :=
  (Flat.manifold ⟨1⟩).conjugateGradients { lineSearch := .armijo }
    (⟨⟨1, [[4]], by decide⟩, [0], 0⟩ : Quadratic ℚ).objective fun _ => 0

/-- **A gradient norm that is out of date**: the step leads to zero, and its event has the norm at
one. -/
theorem run_journal_stale :
    (∃ result after, valley.run (.new {}) () [1] = (.ok result, after) ∧ result.iterations = 1 ∧
      result.point = [0] ∧ result.value = 0 ∧ result.gradientNorm = some 0) ∧
    completions (valley.run (.new {}) () [1]).2.trace = [Running.completed 1 0 (1 / 4) 4] :=
  ⟨exists_of_yields (P := fun r : Result ℚ => r.iterations = 1 ∧ r.point = [0] ∧ r.value = 0 ∧
    r.gradientNorm = some 0) (by decide +kernel), by decide +kernel⟩

end Setup

end GeodesicDescent
