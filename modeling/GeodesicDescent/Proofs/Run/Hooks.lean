import GeodesicDescent.Proofs.Run.Iterations
import GeodesicDescent.Solver.Hooks

/-!
# Runs with hooks

A run whose rule may write all that it is handed is taken apart like any other, but for what the
rule may do to where the run stands. With the hooks of a direction rule it is the run of that rule.

* `Hooks.Counting`: hooks that never lower the number of iterations;
* **`Running.StepsWith`**, `stepsWith_of_iterateWith`: an iteration that takes a step;
* `Setup.Reaches`: the states in which the iterations start, with the number of steps before them;
* `runWith_eq_ok`: how a run that succeeds ends;
* **`Setup.runWith_hooks`**: the hooks of a direction rule make the run of that rule.
-/

namespace GeodesicDescent

open Stateful

variable {K σ ρ α : Type}

/-! ## Parts of a run -/

namespace Running

variable {s s' : RunState K σ ρ}

theorem ofHook_eq_ok {m : Hooking K ρ α} {a : α} :
    (ofHook m : Running K σ ρ α) s = (.ok a, s') ↔ ∃ h, m s.hand = (.ok a, h) ∧ s' = { s with
      iterate := h.iterate
      direction := h.direction
      work := { s.work with cache := h.cache }
      rule := h.rule } := by
  unfold ofHook
  rcases m s.hand with ⟨r, h⟩
  let put (h : Hand K ρ) : RunState K σ ρ := { s with
    iterate := h.iterate
    direction := h.direction
    work := { s.work with cache := h.cache }
    rule := h.rule }
  exact part_eq_ok put Iff.rfl

end Running

variable [Scalar K] {u : Setup K σ ρ} {hooks : Hooks K ρ} {s s' : RunState K σ ρ}

/-- The hooks never lower the number of iterations. -/
structure Hooks.Counting (hooks : Hooks K ρ) (M : Manifold K) : Prop where
  steer : ∀ {h h'}, hooks.steer M h = (.ok (), h') → h.iterate.iteration ≤ h'.iterate.iteration
  learn : ∀ {h h'}, hooks.learn M h = (.ok (), h') → h.iterate.iteration ≤ h'.iterate.iteration

theorem DirectionRule.hooks_counting (rule : DirectionRule K ρ) (M : Manifold K) :
    rule.hooks.Counting M where
  steer h := Nat.le_of_eq (congrArg (fun x => Iterate.iteration (Hand.iterate x.2)) h)
  learn h := Nat.le_of_eq (congrArg (fun x => Iterate.iteration (Hand.iterate x.2)) h)

namespace Running

/-! ## One iteration -/

/-- Where a run stands in a state, for the stopping rule; the time is that after the steps taken. -/
def statusWith (u : Setup K σ ρ) (s : RunState K σ ρ) (norm : K) : Status K :=
  { status u s norm with elapsed := u.clock (s.history.size - 1) }

theorem assessWith_eq_ok {norm : K} {reason : Option Reason} :
    assessWith u s = (.ok (norm, reason), s') ↔
      u.manifold.norm s.iterate.point s.iterate.gradient = .ok norm ∧
      u.config.criterion.reason? (statusWith u s norm) = reason ∧ s' = s := by
  unfold assessWith
  rw [get_bind_apply]
  exact assess_eq_ok

theorem assessWith_snd (u : Setup K σ ρ) (s : RunState K σ ρ) : (assessWith u s).2 = s := by
  unfold assessWith assess
  rw [get_bind_apply, get_bind_apply, bind_pure_snd]
  rfl

/-- The state after a step, at the end of the iteration. -/
def settled (hooks : Hooks K ρ) (norm : K) (s : RunState K σ ρ) :
    RunState K σ ρ :=
  let it := s.iterate
  { s with
    history := s.history.push it.nextValue
    previousValue := some it.value
    iterate := it.shift
    work := { s.work with
      trace := (hooks.report s.hand).foldl Array.push
        (s.work.trace.push (completed it.iteration it.nextValue it.step norm)) } }

/-- The iteration that starts in `s` has no reason to stop, is steered to `t`, accepts the step `a`,
which leaves `work`, and learns from it what `t'` holds. -/
structure StepsWith (u : Setup K σ ρ) (hooks : Hooks K ρ) (s : RunState K σ ρ) (norm : K)
    (t : RunState K σ ρ) (a : Accepted K) (work : Workspace K σ) (t' : RunState K σ ρ) : Prop where
  goes_on : u.config.criterion.reason? (statusWith u s norm) = none
  steered : ofHook (hooks.steer u.manifold) s = (.ok (), t)
  found : searchFrom u t t.work = (.ok a, work)
  learnt : ofHook (hooks.learn u.manifold) (enter { t with work } a).counted = (.ok (), t')

theorem advanceWith_eq_ok {norm : K} {a : Accepted K}
    (h : advanceWith u hooks norm a s = (.ok (), s')) : ∃ t,
      ofHook (hooks.learn u.manifold) (enter s a).counted = (.ok (), t) ∧
      s' = settled hooks norm t := by
  simp only [advanceWith, bind_eq_ok, modify_apply, get_apply, ok_eq_ok] at h
  obtain ⟨_, _, ⟨-, rfl⟩, _, _, ⟨rfl, rfl⟩, h⟩ := h
  by_cases hout :
      u.manifold.containsPoint (enter s a).iterate.nextPoint Scalar.pointTolerance = false
  · rw [if_pos hout] at h
    cases h
  · rw [if_neg hout] at h
    simp only [bind_eq_ok, modify_apply, get_apply, ok_eq_ok, ofSearching_eq_ok, report_apply,
      reportAll_apply] at h
    obtain ⟨_, _, ⟨-, rfl⟩, _, t, hlearn, _, _, ⟨rfl, rfl⟩, _, _, ⟨_, ⟨-, rfl⟩, rfl⟩, h⟩ := h
    obtain ⟨_, _, ⟨_, ⟨-, rfl⟩, rfl⟩, -, rfl⟩ := h
    exact ⟨t, hlearn, rfl⟩

/-- **An iteration that takes a step** is steered, searches and learns. -/
theorem stepsWith_of_iterateWith (h : iterateWith u hooks s = (.ok none, s')) :
    ∃ norm t a work t', StepsWith u hooks s norm t a work t' ∧
      s' = settled hooks norm t' := by
  simp only [iterateWith, bind_eq_ok] at h
  obtain ⟨⟨norm, reason⟩, _, hassess, h⟩ := h
  obtain ⟨-, hreason, rfl⟩ := assessWith_eq_ok.1 hassess
  cases reason with
  | some r => cases h
  | none =>
    simp only [bind_eq_ok, search_apply, attempt_eq_ok] at h
    obtain ⟨_, t, hsteer, result, _, ⟨work, found, rfl⟩, h⟩ := h
    split at h
    · simp only [bind_eq_ok, pure_apply, ok_eq_ok] at h
      obtain ⟨_, _, advanced, -, rfl⟩ := h
      obtain ⟨t', learnt, rfl⟩ := advanceWith_eq_ok advanced
      exact ⟨norm, t, _, work, t', ⟨hreason, hsteer, found, learnt⟩, rfl⟩
    · cases h
    · cases h

theorem sums_of_iterateWith {outcome : Reason × K}
    (h : iterateWith u hooks s = (.ok (some outcome), s')) :
    s'.functionEvaluations = s.functionEvaluations ∧ s'.history = s.history := by
  simp only [iterateWith, bind_eq_ok] at h
  obtain ⟨⟨norm, reason⟩, _, hassess, h⟩ := h
  obtain ⟨-, hreason, rfl⟩ := assessWith_eq_ok.1 hassess
  cases reason with
  | some r =>
    cases h
    exact ⟨rfl, rfl⟩
  | none =>
    simp only [bind_eq_ok, search_apply, attempt_eq_ok] at h
    obtain ⟨_, t, hsteer, result, _, ⟨work, found, rfl⟩, h⟩ := h
    obtain ⟨_, -, rfl⟩ := ofHook_eq_ok.1 hsteer
    split at h
    · simp only [bind_eq_ok, pure_apply, ok_eq_ok] at h
      obtain ⟨_, _, -, hnone, -⟩ := h
      cases hnone
    · cases h
      exact ⟨rfl, rfl⟩
    · cases h

theorem finishWith_eq_ok {result : Result K} (h : finishWith u hooks s = (.ok result, s')) :
    ∃ t reason norm, loopWith u hooks UInt64.size s = (.ok (reason, norm), t) ∧
      result = concluded t reason norm := by
  simp only [finishWith, bind_eq_ok, get_apply, ok_eq_ok, ofSearching_eq_ok, report_apply,
    pure_apply] at h
  obtain ⟨⟨reason, norm⟩, t, hloop, _, _, ⟨rfl, rfl⟩, _, _, -, rfl, -⟩ := h
  exact ⟨t, reason, norm, hloop, rfl⟩

end Running

/-! ## A whole run -/

namespace Setup

variable {start : ρ} {objective : σ} {point : Vec K}

/-- The states in which the iterations of a run start, with the number of steps before them. -/
inductive Reaches (u : Setup K σ ρ) (hooks : Hooks K ρ) (start : ρ) (objective : σ)
    (point : Vec K) : Nat → RunState K σ ρ → Prop
  | first {it work} (begun : u.begin start point { objective } = (.ok it, work)) :
      Reaches u hooks start objective point 0 (initial it start work)
  | next {n r r'} (reached : Reaches u hooks start objective point n r)
      (moved : Running.iterateWith u hooks r = (.ok none, r')) :
      Reaches u hooks start objective point (n + 1) r'

theorem Reaches.of_loopWith {n budget : Nat} {outcome : Reason × K}
    (hr : u.Reaches hooks start objective point n s)
    (h : Running.loopWith u hooks budget s = (.ok outcome, s')) :
    ∃ n' t, u.Reaches hooks start objective point n' t ∧
      Running.iterateWith u hooks t = (.ok (some outcome), s') := by
  induction budget generalizing s n with
  | zero => cases h
  | succ budget ih =>
    obtain ⟨result, s₁, hiterate, h⟩ := bind_eq_ok.1 h
    cases result with
    | some found =>
      cases h
      exact ⟨n, s, hr, hiterate⟩
    | none => exact ih (.next hr hiterate) h

theorem runWith_eq_ok {result : Result K} {after : Aftermath K σ ρ}
    (h : u.runWith hooks start objective point = (.ok result, after)) :
    ∃ n r r' reason norm, u.Reaches hooks start objective point n r ∧
      Running.iterateWith u hooks r = (.ok (some (reason, norm)), r') ∧
      result = Running.concluded r' reason norm := by
  unfold runWith at h
  rcases hbegin : (u.begin start point) { objective } with ⟨fault | it, work⟩
  · rw [hbegin] at h
    cases h
  · rw [hbegin] at h
    rcases hfinish : Running.finishWith u hooks (initial it start work) with ⟨_, s₁⟩
    simp only [hfinish, Prod.mk.injEq] at h
    obtain ⟨rfl, -⟩ := h
    obtain ⟨r', reason, norm, hloop, rfl⟩ := Running.finishWith_eq_ok hfinish
    obtain ⟨n, r, reached, hstop⟩ := Reaches.of_loopWith (.first hbegin) hloop
    exact ⟨n, r, r', reason, norm, reached, hstop, rfl⟩

end Setup

/-! ## The hooks of a direction rule -/

namespace Running

/-- Where each step was counted, the time is the same. -/
theorem assessWith_eq (h : s.history.size = s.iterate.iteration + 1) :
    assessWith u s = assess u s := by
  unfold assessWith assess
  rw [get_bind_apply, get_bind_apply, get_bind_apply, h]
  rfl

theorem advanceWith_hooks (norm : K) (a : Accepted K) :
    advanceWith u u.rule.hooks norm a s = advance u norm a s := by
  refine bind_congr_at rfl fun _ t _ => ?_
  rw [get_bind_apply, get_bind_apply]
  refine ite_congr_at (fun _ => rfl) fun _ => bind_congr_at rfl fun _ t₁ hcounted => ?_
  cases hcounted
  refine bind_congr_at rfl fun _ t₂ hlearnt => ?_
  obtain ⟨heading, -, rfl⟩ := ofSteering_eq_ok.1 hlearnt
  rw [get_bind_apply]
  refine bind_congr_at rfl fun _ t₃ hreported => ?_
  cases hreported
  rw [get_bind_apply]
  refine bind_congr_at rfl fun _ t₄ hreported => ?_
  obtain ⟨work, hwork, rfl⟩ := ofSearching_eq_ok.1 hreported
  rfl

theorem iterateWith_hooks (h : s.history.size = s.iterate.iteration + 1) :
    iterateWith u u.rule.hooks s = iterate u s := by
  refine bind_congr_at (assessWith_eq h) fun ⟨norm, reason⟩ t hassess => ?_
  cases reason with
  | some reason => rfl
  | none =>
    refine bind_congr_at rfl fun _ t₁ _ => bind_congr_at rfl fun found t₂ _ => ?_
    cases found with
    | ok a => exact bind_congr_at (advanceWith_hooks norm a) fun _ _ _ => rfl
    | error e =>
      cases e with
      | refused e => cases e <;> rfl
      | _ => rfl

theorem size_of_iterate (h : iterate u s = (.ok none, s'))
    (hsize : s.history.size = s.iterate.iteration + 1) :
    s'.history.size = s'.iterate.iteration + 1 := by
  obtain ⟨norm, t, a, work, heading, ⟨steers, -⟩, -, -, rfl⟩ := steps_of_iterate h
  show (t.history.push a.value).size = t.iterate.iteration + 1 + 1
  rw [Array.size_push, steers.history_eq, steers.iterate_eq, hsize]

theorem loopWith_hooks (budget : Nat) (h : s.history.size = s.iterate.iteration + 1) :
    loopWith u u.rule.hooks budget s = loop u budget s := by
  induction budget generalizing s with
  | zero => rfl
  | succ budget ih =>
    refine bind_congr_at (iterateWith_hooks h) fun outcome t hiterate => ?_
    cases outcome with
    | some outcome => rfl
    | none => exact ih (size_of_iterate hiterate h)

end Running

/-- **With the hooks of its direction rule a run is the run of that rule.** -/
theorem Setup.runWith_hooks (u : Setup K σ ρ) (start : ρ) (objective : σ) (point : Vec K) :
    u.runWith u.rule.hooks start objective point = u.run start objective point := by
  unfold runWith run
  rcases hbegin : u.begin start point { objective } with ⟨fault | it, work⟩
  · rfl
  · have hsize : (initial it start work).history.size =
        (initial it start work).iterate.iteration + 1 := by
      obtain ⟨_, _, _, -, -, -, rfl⟩ := begin_inv hbegin
      rfl
    have hfinish : Running.finishWith u u.rule.hooks (initial it start work) =
        Running.finish u (initial it start work) :=
      bind_congr_at (Running.loopWith_hooks _ hsize) fun _ _ _ => rfl
    exact congrArg (fun r : Except (Fault (SolverError K)) (Result K) × RunState K σ ρ =>
      (r.1, r.2.aftermath)) hfinish

end GeodesicDescent
