import GeodesicDescent.Proofs.Run.Iterations

/-!
# How a run faults

A run that does not succeed ends where it begins, or in an iteration of a state that it visits.

* `Running.Breaks`: the part of an iteration that faults, with what came before it;
* **`breaks_of_eq_error`**: an iteration faults in one of its parts;
* `loop_eq_error`: a loop faults in an iteration, or has none left;
* **`Setup.run_eq_error`**: where a run faults, and what it leaves behind.
-/

namespace GeodesicDescent

open Stateful Relation

variable {K σ ρ : Type} [Scalar K] {u : Setup K σ ρ} {s s' : RunState K σ ρ}
variable {fault : Fault (SolverError K)}

namespace Running

/-- The part of an iteration that faults. -/
inductive Breaks (u : Setup K σ ρ) (s : RunState K σ ρ) (fault : Fault (SolverError K)) :
    RunState K σ ρ → Prop
  /-- The gradient has no norm. -/
  | assess {r} (failed : assess u s = (.error fault, r)) : Breaks u s fault r
  /-- The rule finds no direction. -/
  | steer {r} (failed : ofSteering (u.rule.steer u.manifold s.iterate) s = (.error fault, r)) :
      Breaks u s fault r
  /-- The search faults otherwise than by finding no step. -/
  | search {norm t work} (steers : Steers u s norm t)
      (failed : searchFrom u t t.work = (.error fault, work)) : Breaks u s fault { t with work }
  /-- The step leads out of the manifold, or the rule does not learn from it. -/
  | advance {norm t a work r} (accepts : Accepts u s t norm a work)
      (failed : advance u norm a { t with work } = (.error fault, r)) : Breaks u s fault r

/-- **An iteration faults in one of its parts.** -/
theorem breaks_of_eq_error (h : iterate u s = (.error fault, s')) : Breaks u s fault s' := by
  unfold iterate at h
  obtain hassess | ⟨⟨norm, reason⟩, _, hassess, h⟩ := bind_eq_error.1 h
  · exact .assess hassess
  obtain ⟨hnorm, hreason, rfl⟩ := assess_eq_ok.1 hassess
  cases reason with
  | some r => cases h
  | none =>
    obtain hsteer | ⟨_, t, hsteer, h⟩ := bind_eq_error.1 ((get_bind_apply _).symm.trans h)
    · exact .steer hsteer
    have steers : Steers u _ norm t := ⟨hnorm, hreason, hsteer⟩
    obtain ⟨_, _, hsearch, h⟩ := (bind_eq_error.1 h).resolve_left nofun
    obtain ⟨work, found, rfl⟩ := attempt_eq_ok.1 hsearch
    split at h
    · obtain advanced | ⟨_, _, _, h⟩ := bind_eq_error.1 h
      · exact .advance ⟨steers, found⟩ advanced
      · cases h
    · cases h
    · cases h
      exact .search steers found

theorem loop_eq_error {budget : Nat} (h : loop u budget s = (.error fault, s')) : ∃ t,
    ReflTransGen (fun a b => iterate u a = (.ok none, b)) s t ∧
    (iterate u t = (.error fault, s') ∨ fault = .countOverflow ∧ s' = t) := by
  induction budget generalizing s with
  | zero =>
    cases h
    exact ⟨_, .refl, .inr ⟨rfl, rfl⟩⟩
  | succ budget ih =>
    obtain hiterate | ⟨result, s₁, hiterate, h⟩ := bind_eq_error.1 h
    · exact ⟨s, .refl, .inl hiterate⟩
    cases result with
    | some found => cases h
    | none =>
      obtain ⟨t, hreach, hend⟩ := ih h
      exact ⟨t, .head hiterate hreach, hend⟩

theorem finish_eq_error (h : finish u s = (.error fault, s')) :
    loop u UInt64.size s = (.error fault, s') := by
  obtain hloop | ⟨_, _, _, h⟩ := bind_eq_error.1 h
  · exact hloop
  · cases h

end Running

namespace Setup

variable {start : ρ} {objective : σ} {point : Vec K} {after : Aftermath K σ ρ}

/-- **A run that faults** does so before its first iteration, or in an iteration of a state that it
visits, or by their number. -/
theorem run_eq_error (h : u.run start objective point = (.error fault, after)) :
    (∃ work, (u.begin start point) { objective } = (.error fault, work)) ∨
      ∃ s s', u.Visits start objective point s ∧ after = s'.aftermath ∧
        (Running.iterate u s = (.error fault, s') ∨ fault = .countOverflow ∧ s' = s) := by
  unfold run at h
  rcases hbegin : (u.begin start point) { objective } with ⟨fault' | it, work⟩
  · rw [hbegin] at h
    cases h
    exact .inl ⟨work, rfl⟩
  · rw [hbegin] at h
    rcases hfinish : Running.finish u (initial it start work) with ⟨_, s'⟩
    simp only [hfinish, Prod.mk.injEq] at h
    obtain ⟨rfl, rfl⟩ := h
    obtain ⟨s, hreach, hend⟩ := Running.loop_eq_error (Running.finish_eq_error hfinish)
    exact .inr ⟨s, s', .of_reflTransGen (.first hbegin) hreach, rfl, hend⟩

end Setup

end GeodesicDescent
