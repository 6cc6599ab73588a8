import GeodesicDescent.Proofs.LineSearch.Decrease
import GeodesicDescent.Proofs.Run.Counts
import GeodesicDescent.Proofs.Sphere.Transparency

/-!
# What a result tells is how things are

The point, the value, the gradient norm and the history of a result belong together, and its reason
is the one that the stopping rule gives for them, unless the last search failed.

* `Objective.Steady`, `Manifold.Steady`: what is asked for does not depend on what was asked before;
* `Result.status`: where a run stood at its end, by its result alone;
* `Running.Coherent`, **`Running.Steps.coherent`**: what holds in every state that a run visits;
* `Result.Coherent`, **`Setup.run_coherent`**: what a result shows, and that every result does.
-/

namespace GeodesicDescent

open Stateful

variable {K σ ρ : Type} [Scalar K]

/-! ## Answers that do not depend on the past -/

/-- The objective answers with the same value and gradient whenever it is asked. -/
def Objective.Steady (f : Objective K σ) : Prop :=
  ∀ x s s', (f.evalWithGradient x s).1 = (f.evalWithGradient x s').1

/-- The gradient on the manifold does not depend on the cache. -/
def Manifold.Steady (M : Manifold K) : Prop :=
  ∀ x g usage c c', (M.convertGradient x g usage c).1 = (M.convertGradient x g usage c').1

theorem Quadratic.objective_steady (q : Quadratic K) : (q.objective : Objective K σ).Steady := by
  intro x s s'
  simp only [objective, bind_apply, lift_apply]
  cases q.a.mulVec x with
  | error e => rfl
  | ok product =>
    dsimp only
    cases q.valueWith x product with
    | error e => rfl
    | ok value =>
      dsimp only
      cases Vec.add product q.b <;> rfl

theorem Flat.manifold_steady (s : Flat) : (s.manifold : Manifold K).Steady :=
  fun x g usage c c' => by
    have hkept := Cached.keepGradient_apply usage ((s.manifold : Manifold K).projectTangent x g) x g
    exact (congrArg Prod.fst (hkept c)).trans (congrArg Prod.fst (hkept c')).symm

theorem Sphere.manifold_steady (s : Sphere) : (s.manifold : Manifold K).Steady :=
  fun x g usage c c' => by rw [convertGradient_apply, convertGradient_apply]

theorem Problem.evaluate_steady {p : Problem K σ} (hf : p.objective.Steady)
    (hM : p.manifold.Steady) {x g : Vec K} {value : K} {w w' : Workspace K σ}
    (h : p.evaluate x w = (.ok (value, g), w')) (w₁ : Workspace K σ) :
    (p.evaluate x w₁).1 = .ok (value, g) := by
  obtain ⟨ambient, o, c, ho, hc, -⟩ := evaluate_eq_ok.1 h
  rcases ho₁ : p.objective.evalWithGradient x w₁.objective with ⟨answer, o₁⟩
  rcases hc₁ : p.manifold.convertGradient x ambient p.usage w₁.cache with ⟨image, c₁⟩
  have hanswer := hf x w₁.objective w.objective
  have himage := hM x ambient p.usage w₁.cache w.cache
  rw [ho₁, ho] at hanswer
  rw [hc₁, hc] at himage
  obtain rfl : answer = .ok (value, ambient) := hanswer
  obtain rfl : image = .ok g := himage
  rw [evaluate_eq_ok.2 ⟨ambient, o₁, c₁, ho₁, hc₁, rfl⟩]

/-! ## Along a run -/

/-- Where the run stood that ended with a result. -/
def Result.status (r : Result K) (norm : K) (elapsed : Nat) : Status K where
  iteration := r.iterations
  value := r.value
  previousValue := r.history.pop.back?
  gradientNorm := norm
  functionEvaluations := r.functionEvaluations
  elapsed

namespace Running

variable {u : Setup K σ ρ} {s s' t : RunState K σ ρ}

/-- Value and gradient are those of the point, the history ends with the last two values, and there
were not more iterations than the run may make. -/
structure Coherent (u : Setup K σ ρ) (s : RunState K σ ρ) : Prop where
  evaluated : ∀ w, (u.problem.evaluate s.iterate.point w).1 =
    .ok (s.iterate.value, s.iterate.gradient)
  size_eq : s.history.size = s.iterate.iteration + 1
  last_eq : s.history.back? = some s.iterate.value
  previous_eq : s.previousValue = s.history.pop.back?
  within : ∀ limit, u.config.criterion.maxIterations = some limit → s.iterate.iteration ≤ limit

/-- **A step leads from a coherent state to a coherent one.** -/
theorem Steps.coherent {norm : K} {a : Accepted K} {work : Workspace K σ} {h : Heading K ρ}
    (hf : u.objective.Steady) (hM : u.manifold.Steady) (hs : Steps u s norm t a work h s')
    (hc : Coherent u s) : Coherent u s' := by
  obtain ⟨⟨steers, found⟩, -, -, rfl⟩ := hs
  obtain ⟨-, _, _, evaluated⟩ := SearchKind.search_reaches found
  have hiterate := steers.iterate_eq
  have hhistory := steers.history_eq
  constructor
  · exact Problem.evaluate_steady (p := u.problem) hf hM evaluated
  · show (t.history.push a.value).size = t.iterate.iteration + 1 + 1
    rw [Array.size_push, hhistory, hiterate, hc.size_eq]
  · exact Array.back?_push
  · show some t.iterate.value = (t.history.push a.value).pop.back?
    rw [Array.pop_push, hhistory, hiterate, hc.last_eq]
  · intro limit hlimit
    show t.iterate.iteration + 1 ≤ limit
    rw [hiterate]
    exact StoppingRule.lt_of_reason?_eq_none steers.goes_on hlimit

theorem Iterates.concluded_eq {reason : Reason} {norm : K}
    (h : Iterates u s (some (reason, norm)) s') :
    concluded s' reason norm = concluded s reason norm := by
  cases h with
  | stops => rfl
  | stuck steers =>
    rw [steers.frame]
    rfl

theorem Coherent.status_eq (hc : Coherent u s) (reason : Reason) (norm : K) :
    (concluded s reason norm).status norm (u.clock s.iterate.iteration) = status u s norm := by
  rw [status, hc.previous_eq]
  rfl

end Running

/-! ## The result -/

/-- What a result tells is how things are at its point, and its reason is the one to stop there, if
there is one. -/
structure Result.Coherent (u : Setup K σ ρ) (result : Result K) (norm : K) : Prop where
  evaluated : ∃ gradient,
    (∀ w, (u.problem.evaluate result.point w).1 = .ok (result.value, gradient)) ∧
      u.manifold.norm result.point gradient = .ok norm
  norm_eq : result.gradientNorm = some norm
  size_eq : result.history.size = result.iterations + 1
  last_eq : result.history.back? = some result.value
  reason_eq : u.config.criterion.reason? (result.status norm (u.clock result.iterations)) =
    if result.reason = .lineSearchFailed then none else some result.reason
  limit_eq : result.reason = .maxIterations →
    u.config.criterion.maxIterations = some result.iterations

namespace Running

variable {u : Setup K σ ρ} {s s' : RunState K σ ρ}

theorem Coherent.concluded {reason : Reason} {norm : K} (hc : Coherent u s)
    (h : Iterates u s (some (reason, norm)) s') :
    (concluded s reason norm).Coherent u norm := by
  have hstatus := hc.status_eq reason norm
  cases h with
  | stops norm_eq reason_eq =>
    have hreason := StoppingRule.ne_lineSearchFailed reason_eq
    refine ⟨⟨_, hc.evaluated, norm_eq⟩, rfl, hc.size_eq, hc.last_eq, ?_, ?_⟩
    · exact (congrArg _ hstatus).trans (reason_eq.trans (if_neg hreason).symm)
    · rintro rfl
      obtain ⟨limit, hlimit, hle⟩ :=
        StoppingRule.exists_of_reason?_eq_maxIterations reason_eq
      exact hlimit.trans (congrArg some (Nat.le_antisymm hle (hc.within limit hlimit)))
  | stuck steers =>
    refine ⟨⟨_, hc.evaluated, steers.norm_eq⟩, rfl, hc.size_eq, hc.last_eq, ?_, nofun⟩
    exact (congrArg _ hstatus).trans steers.goes_on

end Running

namespace Setup

variable {u : Setup K σ ρ} {start : ρ} {state : σ} {point : Vec K} {s : RunState K σ ρ}

/-- **Every state that a run visits is coherent.** -/
theorem Visits.coherent (hf : u.objective.Steady) (hM : u.manifold.Steady)
    (h : u.Visits start state point s) : Running.Coherent u s := by
  induction h with
  | first begun =>
    obtain ⟨events, value, gradient, -, -, evaluated, rfl⟩ := begin_inv begun
    exact ⟨Problem.evaluate_steady hf hM evaluated, rfl, rfl, rfl, fun limit _ => limit.zero_le⟩
  | next visited moved ih =>
    obtain ⟨norm, t, a, work, h, steps⟩ := Running.steps_of_iterate moved
    exact steps.coherent hf hM ih

/-- **The result of a run is coherent**: it tells what the last iteration started with. -/
theorem run_coherent {result : Result K} {after : Aftermath K σ ρ} (hf : u.objective.Steady)
    (hM : u.manifold.Steady) (h : u.run start state point = (.ok result, after)) :
    ∃ s norm, u.Visits start state point s ∧
      result = Running.concluded s result.reason norm ∧ result.Coherent u norm ∧
      (result.reason = .lineSearchFailed → ∃ t fault work, Running.Steers u s norm t ∧
        Running.searchFrom u t t.work = (.error fault, work)) := by
  obtain ⟨s, s', reason, norm, visited, ends, hresult, -⟩ := run_inv h
  rw [ends.concluded_eq] at hresult
  subst hresult
  refine ⟨s, norm, visited, rfl, (visited.coherent hf hM).concluded ends, fun hfailed => ?_⟩
  cases ends with
  | stops _ reason_eq => exact absurd hfailed (StoppingRule.ne_lineSearchFailed reason_eq)
  | stuck steers failed => exact ⟨_, _, _, steers, failed⟩

theorem run_coherent_steepParabola :
    ∃ result after norm, (steepParabola 1).run () () [1] = (.ok result, after) ∧
      result.reason = .lineSearchFailed ∧ result.Coherent (steepParabola 1) norm := by
  obtain ⟨result, after, hrun, hreason⟩ := exists_of_yields
    (x := (steepParabola 1).run () () [1])
    (P := fun r => r.reason = .lineSearchFailed) (by decide +kernel)
  obtain ⟨s, norm, -, -, coherent, -⟩ :=
    run_coherent (Quadratic.objective_steady _) (Flat.manifold_steady _) hrun
  exact ⟨result, after, norm, hrun, hreason, coherent⟩

end Setup

end GeodesicDescent
