import GeodesicDescent.Manifold.Flat
import GeodesicDescent.Proofs.Direction.ConjugateGradient
import GeodesicDescent.Proofs.Run.Iterations

/-!
# What the direction rule writes

Of all that changes during a run, a direction rule is handed a heading: the direction, the cache
and its own state. The conjugate gradient rule asks the manifold for everything that can be refused
before it writes its first field. A refusal thus leaves no new weight beside an old direction, and
of a half-finished step the cache alone may tell.

* `Heading.Recached`: headings that differ in the cache at most;
* `ConjugateGradient.ensures_steer`, `ensures_learn`: what the rule writes, and what a refusal
  leaves;
* `ConjugateGradient.learn_of_restart`: before a restart the rule writes nothing;
* **`Running.rule_atomic`**: the same, said of the whole state of a run.
-/

namespace GeodesicDescent

open Stateful

variable {K σ ρ α : Type}

/-- The other heading has the same direction and the same rule; its cache may be any. -/
def Heading.Recached (h h' : Heading K ρ) : Prop := ∃ cache, h' = { h with cache }

theorem Heading.Recached.refl (h : Heading K ρ) : h.Recached h := ⟨h.cache, rfl⟩

namespace Steering

theorem keeps_ofChecked {P : Heading K ρ → Prop} (m : Checked α) :
    Keeps P (ofChecked m : Steering K ρ α) := fun _ hP => hP

theorem keeps_ofCached {h : Heading K ρ} (m : Cached K α) :
    Keeps h.Recached (ofCached m : Steering K ρ α) := by
  rintro _ ⟨cache, rfl⟩
  exact ⟨(m cache).2, rfl⟩

end Steering

/-! ## One call of the rule -/

namespace ConjugateGradient

variable [Scalar K] {M : Manifold K} {it : Iterate K}

theorem ensures_steer (h : Heading K (ConjugateGradient K)) :
    Ensures (· = h) (steer M it)
      (fun _ h' => ∃ direction restarted,
        h' = { h with direction, rule := { h.rule with restarted } })
      fun _ h' => h' = h := by
  rintro h rfl
  refine ensures_bind (P := (· = h)) (Steering.keeps_ofChecked _).ensures (fun slope => ?_) h rfl
  refine ensures_modify ?_
  rintro _ rfl
  exact ⟨_, _, rfl⟩

/-- After a step the rule writes the direction, the cache and what it has weighed. What is refused
leaves the cache at most. -/
theorem ensures_learn (h : Heading K (ConjugateGradient K)) :
    Ensures (· = h) (learn M it)
      (fun _ h' => ∃ direction cache sigma zeta gradientChange,
        h' = { direction, cache, rule := { h.rule with sigma, zeta, gradientChange } })
      fun _ => h.Recached := by
  rintro h rfl
  refine ensures_ite (P := h.Recached) ?_ ?_ h (.refl h)
  · apply ensures_pure
    rintro _ ⟨cache, rfl⟩
    exact ⟨_, cache, _, _, _, rfl⟩
  · -- whatever the manifold refuses, it refuses before the fields are written together
    refine ensures_bind (Steering.keeps_ofCached _).ensures fun w => ?_
    refine ensures_bind (Steering.keeps_ofChecked _).ensures fun direction => ?_
    refine ensures_ite (ensures_throw fun _ hsame => hsame) (ensures_modify ?_)
    rintro _ ⟨cache, rfl⟩
    exact ⟨direction, cache, w.sigma, w.zeta, w.gradientChange, rfl⟩

theorem learn_of_restart {h : Heading K (ConjugateGradient K)}
    (hrestart : h.rule.config.restartsAt it.iteration = true) :
    learn M it h = (.ok (), h) := by
  rw [learn, get_bind_apply, if_pos hrestart]
  rfl

end ConjugateGradient

/-! ## In a state of a run -/

namespace RunState

/-- What a rule is handed of a run. -/
def heading (s : RunState K σ ρ) : Heading K ρ := ⟨s.direction, s.work.cache, s.rule⟩

/-- The state with what a rule has written. -/
def withHeading (s : RunState K σ ρ) (h : Heading K ρ) : RunState K σ ρ :=
  { s with
    direction := h.direction
    work := { s.work with cache := h.cache }
    rule := h.rule }

end RunState

namespace Running

theorem ofSteering_apply (m : Steering K ρ α) (s : RunState K σ ρ) :
    (ofSteering m : Running K σ ρ α) s =
      ((m s.heading).1, s.withHeading (m s.heading).2) := rfl

theorem ensures_ofSteering {s : RunState K σ ρ} {m : Steering K ρ α}
    {Q : α → Heading K ρ → Prop} {E : Fault (SolverError K) → Heading K ρ → Prop}
    (hm : Ensures (· = s.heading) m Q E) :
    Ensures (· = s) (ofSteering m) (fun a s' => ∃ h, Q a h ∧ s' = s.withHeading h)
      fun e s' => ∃ h, E e h ∧ s' = s.withHeading h := by
  rintro s rfl
  rw [ofSteering_apply]
  rcases hms : m s.heading with ⟨e | a, h⟩
  · exact ⟨h, hm.of_error rfl hms, rfl⟩
  · exact ⟨h, hm.of_ok rfl hms, rfl⟩

variable [Scalar K]

open ConjugateGradient in
/-- **The rule writes all that it has to write, or nothing**, before a restart nothing at all. -/
theorem rule_atomic (M : Manifold K) (s : RunState K σ (ConjugateGradient K)) :
    Ensures (· = s) (ofSteering (rule.steer M s.iterate))
      (fun _ s' => ∃ direction restarted, s' = { s with
        direction
        rule := { s.rule with restarted } })
      (fun fault s' => ∀ e, fault = .refused e → s' = s) ∧
    Ensures (· = s) (ofSteering (rule.learn M s.iterate))
      (fun _ s' => ∃ direction cache sigma zeta gradientChange, s' = { s with
        direction
        work := { s.work with cache }
        rule := { s.rule with sigma, zeta, gradientChange } })
      (fun fault s' => ∀ e, fault = .refused e → ∃ cache, s' = { s with
        work := { s.work with cache } }) ∧
    (s.rule.config.restartsAt s.iterate.iteration = true →
      ofSteering (rule.learn M s.iterate) s = (.ok (), s)) := by
  refine ⟨?_, ?_, fun hrestart => ?_⟩
  · refine (ensures_ofSteering (ensures_steer s.heading)).mono ?_ ?_
    · rintro _ _ ⟨_, ⟨direction, restarted, rfl⟩, rfl⟩
      exact ⟨direction, restarted, rfl⟩
    · rintro _ _ ⟨_, rfl, rfl⟩ _ _
      rfl
  · refine (ensures_ofSteering (ensures_learn s.heading)).mono ?_ ?_
    · rintro _ _ ⟨_, ⟨direction, cache, sigma, zeta, gradientChange, rfl⟩, rfl⟩
      exact ⟨direction, cache, sigma, zeta, gradientChange, rfl⟩
    · rintro _ _ ⟨_, ⟨cache, rfl⟩, rfl⟩ _ _
      exact ⟨cache, rfl⟩
  · exact ofSteering_eq_ok.2 ⟨s.heading, learn_of_restart hrestart, rfl⟩

/-! ## A manifold that fails halfway -/

/-- The line, where the vector one cannot be carried and every other one counts as computed. -/
def brittleLine : Manifold ℚ :=
  { (Flat.manifold ⟨1⟩ : Manifold ℚ) with
    transport := fun _ _ _ ξ => do
      if ξ = [1] then throw (.refused (.numerical "no image"))
      modify fun c => { c with computations := c.computations + 1 }
      return ξ }

/-- A state with gradient one and the formula of Hestenes and Stiefel. -/
def brittleState (iteration : Nat) (direction : Vec ℚ) :
    RunState ℚ Unit (ConjugateGradient ℚ) where
  iterate :=
    { point := [0], nextPoint := [-1], gradient := [1], nextGradient := [3], displacement := [-1]
      value := 0, nextValue := -1, iteration, step := 1, lineSearch := .armijo }
  direction
  rule := .new { method := .hestenesStiefel }
  work := { objective := () }
  functionEvaluations := 1
  gradientEvaluations := 1
  history := #[0]

open ConjugateGradient in
/-- A direction of a wrong length is refused before the search, and a gradient after the step. -/
theorem rule_atomic_brittle :
    (∃ e s', ofSteering (rule.steer brittleLine (brittleState 1 [-2, 0]).iterate)
        (brittleState 1 [-2, 0]) = (.error (.refused e), s') ∧ s' = brittleState 1 [-2, 0]) ∧
    (∃ e s', ofSteering (rule.learn brittleLine (brittleState 1 [-2]).iterate)
        (brittleState 1 [-2]) = (.error (.refused e), s') ∧
      s'.work.cache.computations = 1 ∧ ∃ cache, s' = { brittleState 1 [-2] with
        work := { (brittleState 1 [-2]).work with cache } }) ∧
    ofSteering (rule.learn brittleLine (brittleState 0 [-2]).iterate) (brittleState 0 [-2]) =
      (.ok (), brittleState 0 [-2]) := by
  refine ⟨?_, ?_, ?_⟩
  · obtain ⟨fault, s', hsteer, rfl⟩ := exists_of_faults
      (x := ofSteering (rule.steer brittleLine (brittleState 1 [-2, 0]).iterate)
        (brittleState 1 [-2, 0]))
      (P := (· = .refused (.geometry (.lengths 1 2)))) (by decide +kernel)
    exact ⟨_, s', hsteer, (rule_atomic brittleLine _).1.of_error rfl hsteer _ rfl⟩
  · have hcount : (ofSteering (rule.learn brittleLine (brittleState 1 [-2]).iterate)
        (brittleState 1 [-2])).2.work.cache.computations = 1 := by decide +kernel
    obtain ⟨fault, s', hlearn, rfl⟩ := exists_of_faults
      (x := ofSteering (rule.learn brittleLine (brittleState 1 [-2]).iterate)
        (brittleState 1 [-2]))
      (P := (· = .refused (.geometry (.numerical "no image")))) (by decide +kernel)
    rw [hlearn] at hcount
    exact ⟨_, s', hlearn, hcount, (rule_atomic brittleLine _).2.1.of_error rfl hlearn _ rfl⟩
  · exact (rule_atomic brittleLine (brittleState 0 [-2])).2.2 rfl

end Running

end GeodesicDescent
