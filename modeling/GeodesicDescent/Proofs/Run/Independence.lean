import GeodesicDescent.Proofs.Run.Directions
import GeodesicDescent.Proofs.Run.Renaming

/-!
# What the end of a run does not depend on

Of the state that the conjugate gradient rule starts with, a run reads the configuration only: the
rest is written before it is read. Where the rule restarts in every iteration, it does not read the
method either.

* `ConjugateGradient.Alike`: states of the rule that a run does not tell apart;
* `ConjugateGradient.rule_blind`: the rule looks at no more of its state;
* **`Setup.run_alike`**: a run ends the same from states that its rule does not tell apart;
* **`Setup.forgets_earlier_use`**: runs and searches end as with a new rule and a new search;
* **`Setup.runs_steepest`**: with a restart in every iteration every method goes against the
  gradient.
-/

namespace GeodesicDescent

open Stateful

variable {K σ ρ : Type} [Scalar K]

/-! ## States of the rule -/

theorem CGConfig.restartsAt_of_one {c : CGConfig} (h : c.restartPeriod = 1) (k : Nat) :
    c.restartsAt k = true := by
  rw [restartsAt_eq_true (by omega), h]
  exact Nat.one_dvd k

namespace ConjugateGradient

/-- Both restart in the same iterations, and use the same method unless they restart in every
one. -/
structure Alike (r r' : ConjugateGradient K) : Prop where
  period_eq : r'.config.restartPeriod = r.config.restartPeriod
  method_eq : r.config.restartPeriod = 1 ∨ r'.config.method = r.config.method

omit [Scalar K] in
theorem Alike.restartsAt_eq {r r' : ConjugateGradient K} (h : r.Alike r') (k : Nat) :
    r'.config.restartsAt k = r.config.restartsAt k := by
  unfold CGConfig.restartsAt
  rw [h.period_eq]

omit [Scalar K] in
theorem Alike.method_eq_of_goes {r r' : ConjugateGradient K} (h : r.Alike r') {k : Nat}
    (hgoes : ¬ r.config.restartsAt k = true) : r'.config.method = r.config.method :=
  h.method_eq.resolve_left fun hone => hgoes (CGConfig.restartsAt_of_one hone k)

variable {M : Manifold K} (it : Iterate K)

theorem follows_steer : Follows (Heading.Alike Alike) id id (steer M it) (steer M it) := by
  refine follows_get_bind fun h h' hh => ?_
  rw [hh.direction_eq]
  refine follows_bind (Steering.follows_ofChecked _) fun slope _ => ?_
  intro s s' hs
  simp only [id, set_apply, hh.rule.restartsAt_eq it.iteration]
  exact ⟨rfl, rfl, hh.cache_eq, hh.rule.period_eq, hh.rule.method_eq⟩

theorem follows_learn : Follows (Heading.Alike Alike) id id (learn M it) (learn M it) := by
  refine follows_get_bind fun h h' hh => ?_
  have hrestarts := hh.rule.restartsAt_eq it.iteration
  by_cases hrestart : h.rule.config.restartsAt it.iteration = true
  · rw [if_pos hrestart, if_pos (hrestarts.trans hrestart)]
    exact follows_pure rfl
  · rw [if_neg hrestart, if_neg fun h => hrestart (hrestarts.symm.trans h), hh.direction_eq,
      hh.rule.method_eq_of_goes hrestart]
    refine follows_bind (Steering.follows_ofCached _) fun w _ => ?_
    refine follows_bind (Steering.follows_ofChecked _) fun direction _ => ?_
    -- The clash of lengths ends the computation, but what comes after it is there in both branches.
    refine follows_ite Iff.rfl (follows_bind (g := id) (follows_throw _) fun _ _ => ?_) ?_
    all_goals exact follows_modify fun s s' hs =>
      ⟨rfl, hs.cache_eq, hs.rule.period_eq, hs.rule.method_eq⟩

/-- **The rule looks at its period and, where it goes on, at its method.** -/
theorem rule_blind (φ : Renaming K) (M : Manifold K) :
    (rule : DirectionRule K (ConjugateGradient K)).Blind φ Alike M where
  announce {r r'} h := by
    change (announce r').map _ = (announce r).map _
    unfold announce CGConfig.validate
    rw [h.period_eq]
    split_ifs <;> rfl
  steer it := follows_steer it
  learn it := follows_learn it

end ConjugateGradient

/-! ## The tally of a search -/

/-- The workspace as a search that is new finds it. -/
def Workspace.fresh (w : Workspace K σ) : Workspace K σ := { w with trials := 0 }

theorem Problem.exists_downhillSlope_eq (p : Problem K σ) (x gradient ξ : Vec K) :
    ∃ r, ∀ w, p.downhillSlope x gradient ξ w = (r, w) := by
  rcases hinner : p.manifold.inner x gradient ξ with e | slope
  · refine ⟨.error (e.map .geometry), fun w => ?_⟩
    rw [downhillSlope, bind_apply, hinner]
    rfl
  · by_cases hup : 0 ≤ slope
    · refine ⟨.error (.refused .invalidDirection), fun w => ?_⟩
      rw [downhillSlope, bind_apply, hinner]
      exact congrFun (if_pos hup) w
    · refine ⟨.ok slope, fun w => ?_⟩
      rw [downhillSlope, bind_apply, hinner]
      exact congrFun (if_neg hup) w

theorem StrongWolfe.search_fresh (p : Problem K σ) (params : SearchParams K) (x : Vec K) (value : K)
    (gradient ξ : Vec K) (w : Workspace K σ) :
    (search p params x value gradient ξ w).1 = (search p params x value gradient ξ w.fresh).1 ∧
      (search p params x value gradient ξ w).2.fresh =
        (search p params x value gradient ξ w.fresh).2.fresh := by
  obtain ⟨slope, hslope⟩ := p.exists_downhillSlope_eq x gradient ξ
  unfold search
  rw [bind_apply, bind_apply, hslope, hslope]
  cases slope with
  | error e => exact ⟨rfl, rfl⟩
  | ok slope => exact ⟨rfl, rfl⟩

/-! ## Runs -/

theorem Objective.Renamed.refl (f : Objective K σ) : f.Renamed (.refl K) f where
  eval_eq _ := (id_map _).symm
  evalWithGradient_eq _ := (id_map _).symm
  offersHessian_eq := rfl

theorem Result.rename_refl (r : Result K) : r.rename (.refl K) = r :=
  congrArg (fun history => { r with history }) (Array.map_id' _)

namespace Setup

/-- **A run ends the same from states that its rule does not tell apart.** -/
theorem run_alike {u : Setup K σ ρ} {T : ρ → ρ → Prop} (hrule : u.rule.Blind (.refl K) T u.manifold)
    {start start' : ρ} (hstart : T start start') (state : σ) (point : Vec K) :
    (u.run start' state point).1 = (u.run start state point).1 ∧
      (u.run start' state point).2.objective = (u.run start state point).2.objective := by
  have hu : u.Parallel (.refl K) T u.objective u.clock :=
    ⟨.refl _, hrule, fun _ _ _ => Iff.rfl, fun _ _ => rfl⟩
  obtain ⟨hend, hstate⟩ := run_follows hu hstart state point
  refine ⟨?_, hstate⟩
  rw [show Result.rename (.refl K) = id from funext Result.rename_refl, Except.map_id] at hend
  exact hend

variable (M : Manifold K) (config : SolverOptions K) (objective : Objective K σ)
variable (clock : Nat → Nat)

/-- **Runs and searches forget what was before them.** -/
theorem forgets_earlier_use :
    (∀ (start : ConjugateGradient K) (state : σ) (x₀ : Vec K),
      ((M.conjugateGradients config objective clock).run start state x₀).1 =
        ((M.conjugateGradients config objective clock).run (.new start.config) state x₀).1 ∧
      ((M.conjugateGradients config objective clock).run start state x₀).2.objective =
        ((M.conjugateGradients config objective clock).run (.new start.config) state
          x₀).2.objective) ∧
    ∀ (p : Problem K σ) (params : SearchParams K) (x : Vec K) (value : K) (gradient ξ : Vec K)
      (w : Workspace K σ),
      (StrongWolfe.search p params x value gradient ξ w).1 =
        (StrongWolfe.search p params x value gradient ξ w.fresh).1 ∧
      (StrongWolfe.search p params x value gradient ξ w).2.fresh =
        (StrongWolfe.search p params x value gradient ξ w.fresh).2.fresh := by
  constructor
  · intro start state x₀
    exact run_alike (ConjugateGradient.rule_blind _ M) ⟨rfl, .inr rfl⟩ state x₀
  · exact StrongWolfe.search_fresh

/-- **With a restart in every iteration every method goes against the gradient.** -/
theorem runs_steepest {start : ConjugateGradient K} (hone : start.config.restartPeriod = 1)
    (state : σ) (x₀ : Vec K) :
    (∀ r norm t, (M.conjugateGradients config objective clock).Visits start state x₀ r →
      Running.Steers (M.conjugateGradients config objective clock) r norm t →
      t.direction = Vec.neg r.iterate.gradient) ∧
    ∀ method,
      ((M.conjugateGradients config objective clock).run
        { start with config := { start.config with method } } state x₀).1 =
      ((M.conjugateGradients config objective clock).run start state x₀).1 := by
  constructor
  · intro r norm t visited steers
    obtain hneg | ⟨hgoes, -⟩ := steers.neg_or_kept
    · exact hneg
    · rw [visited.config_eq, CGConfig.restartsAt_of_one hone] at hgoes
      exact nomatch hgoes
  · intro method
    exact (run_alike (ConjugateGradient.rule_blind _ M) ⟨rfl, .inl hone⟩ state x₀).1

/-- The rule of Fletcher and Reeves, restarted in every iteration. -/
def restless : ConjugateGradient ℚ := .new { restartPeriod := 1, method := .fletcherReeves }

theorem runs_steepest_bowl :
    (∃ r norm t, bowlDescent.Visits restless () [1, 1] r ∧ Running.Steers bowlDescent r norm t ∧
      r.iterate.iteration = 1 ∧ t.direction = Vec.neg r.iterate.gradient) ∧
    (bowlDescent.run (.new { restartPeriod := 1, method := .hagerZhang }) () [1, 1]).1 =
      (bowlDescent.run restless () [1, 1]).1 := by
  obtain ⟨r, norm, t, visited, steers, h⟩ := exists_of_after?
    (u := bowlDescent) restless () [1, 1] 1
    (P := fun r _ => r.iterate.iteration = 1) (by decide +kernel)
  have hone : restless.config.restartPeriod = 1 := rfl
  have hsteepest := runs_steepest bowlDescent.manifold bowlDescent.config bowlDescent.objective
    bowlDescent.clock hone () [1, 1]
  exact ⟨⟨r, norm, t, visited, steers, of_decide_eq_true h, hsteepest.1 r norm t visited steers⟩,
    hsteepest.2 .hagerZhang⟩

end Setup

end GeodesicDescent
