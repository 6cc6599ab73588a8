import GeodesicDescent.Proofs.Sphere.Geometry
import GeodesicDescent.Proofs.Direction.ConjugateGradient
import GeodesicDescent.Proofs.LineSearch.Decrease
import GeodesicDescent.Proofs.Run.Reports

/-!
# Conjugate gradients stay on the sphere

Over the real numbers a run of the conjugate gradient rule on a sphere never leaves it, and every
search goes along a tangent vector. The direction that is kept between iterations may be tangent at
the wrong point, but only where the rule is about to restart.

* `Sphere.conjugateGradients`: the rule on a sphere, with any search and any objective;
* `Running.Tangential`: what holds in every state that a run visits;
* `Running.tangential_of_iterate`: an iteration keeps it;
* **`Setup.run_tangential`**: in every iteration of every run point, gradient, direction and next
  point are where they belong.
-/

namespace GeodesicDescent

open Stateful

/-- Conjugate gradients on a sphere. -/
def Sphere.conjugateGradients {K σ : Type} [Scalar K] (s : Sphere) (config : SolverOptions K)
    (objective : Objective K σ) (clock : Nat → Nat) : Setup K σ (ConjugateGradient K) where
  config
  rule := ConjugateGradient.rule
  objective
  manifold := s.manifold
  clock

section

variable {σ : Type} [Tolerances ℝ] {s : Sphere} {config : SolverOptions ℝ}
variable {objective : Objective ℝ σ} {clock : Nat → Nat}

namespace Sphere

theorem keeps_transport (x y ξ : Vec ℝ) : Keeps Cache.Faithful (s.transport x y ξ) :=
  fun c hc => (transparent_transport ξ c hc).2

theorem OnSphere.containsPoint {x : Vec ℝ} (hx : s.OnSphere x) :
    s.containsPoint x Scalar.pointTolerance = true := by
  rw [Sphere.containsPoint, show s.inner x x = .ok 1 from hx]
  show decide (|(1 : ℝ) - 1| < Tolerances.pointTolerance) = true
  rw [sub_self, abs_zero, decide_eq_true_iff]
  exact Tolerances.pointTolerance_pos

theorem calm_conjugateGradients : (s.conjugateGradients config objective clock).Calm where
  parameters := by rintro ⟨⟩
  announce start es h := by
    obtain ⟨_, -, h⟩ := checked_bind_eq_ok.1 h
    cases h
    simp
  report _ _ := by simp [conjugateGradients, ConjugateGradient.rule, ConjugateGradient.report]

theorem partsKeep_faithful :
    (s.conjugateGradients config objective clock).problem.PartsKeep fun w => w.cache.Faithful :=
  Problem.partsKeep_of_cache (fun _ g c hc => (transparent_convertGradient g _ c hc).2)
    fun _ η _ ξ c hc => (transparent_differential η ξ true c hc).2

theorem tangent_of_evaluate {x g : Vec ℝ} {value : ℝ} {w w' : Workspace ℝ σ} (hx : s.OnSphere x)
    (h : (s.conjugateGradients config objective clock).problem.evaluate x w =
      (.ok (value, g), w')) : s.Tangent x g := by
  obtain ⟨ambient, o, c, -, hg, -⟩ := Problem.evaluate_eq_ok.1 h
  exact tangent_of_convertGradient hx hg

end Sphere

namespace Running

/-- The current point is on the sphere and the gradient tangent there. So is the direction that was
prepared, unless the rule restarts. -/
structure Tangential (s : Sphere) (r : RunState ℝ σ (ConjugateGradient ℝ)) : Prop where
  point : s.OnSphere r.iterate.point
  gradient : s.Tangent r.iterate.point r.iterate.gradient
  direction : r.rule.config.restartsAt r.iterate.iteration = true ∨
    s.Tangent r.iterate.point r.direction
  cache : r.work.cache.Faithful

variable {r r' t : RunState ℝ σ (ConjugateGradient ℝ)} {norm : ℝ} {a : Accepted ℝ}
variable {work : Workspace ℝ σ}

/-- Where a search starts the direction is tangent too, for at a restart it is the gradient's. -/
theorem tangential_of_steers (hr : Tangential s r)
    (h : Steers (s.conjugateGradients config objective clock) r norm t) :
    Tangential s t ∧ s.Tangent t.iterate.point t.direction := by
  obtain ⟨_, hsteer, rfl⟩ := ofSteering_eq_ok.1 h.steered
  obtain ⟨slope, -, rfl⟩ := ConjugateGradient.steer_eq_ok.1 hsteer
  have hdirection : s.Tangent r.iterate.point
      (if r.rule.restarts r.iterate.iteration slope then Vec.neg r.iterate.gradient
        else r.direction) := by
    split_ifs with hrestart
    · exact Sphere.tangent_neg hr.gradient
    · refine hr.direction.resolve_left fun hperiod => hrestart ?_
      rw [ConjugateGradient.restarts, hperiod, Bool.true_or]
  exact ⟨⟨hr.point, hr.gradient, .inr hdirection, hr.cache⟩, hdirection⟩

theorem onSphere_of_searchFrom
    (h : searchFrom (s.conjugateGradients config objective clock) t t.work = (.ok a, work)) :
    s.OnSphere a.point ∧ s.Tangent a.point a.gradient := by
  obtain ⟨hreach, _, _, hevaluate⟩ := SearchKind.search_reaches h
  have hpoint := Sphere.onSphere_of_retract hreach
  exact ⟨hpoint, Sphere.tangent_of_evaluate hpoint hevaluate⟩

theorem tangential_of_advance (ht : Tangential s t)
    (hpoint : s.OnSphere a.point) (hgradient : s.Tangent a.point a.gradient)
    (h : advance (s.conjugateGradients config objective clock) norm a t = (.ok (), r')) :
    Tangential s r' := by
  obtain ⟨-, h', hlearn, rfl⟩ := advance_eq_ok h
  obtain ⟨hrestart, rfl⟩ | ⟨w, c, hweigh, hdirection, rfl, hrule⟩ :=
    ConjugateGradient.learn_eq_ok hlearn
  · exact ⟨hpoint, hgradient, .inl hrestart, ht.cache⟩
  · have hkeep (v : Vec ℝ) : Keeps Cache.Faithful (s.transport t.iterate.point a.point v) :=
      Sphere.keeps_transport _ _ v
    have hcache := (ConjugateGradient.keeps_weigh hkeep).of_eq ht.cache hweigh
    have hcarried {v image : Vec ℝ} (h : ConjugateGradient.Carried s.manifold (entered t a)
        Cache.Faithful v image) : s.Tangent a.point image := by
      obtain ⟨_, _, hc, htransport⟩ := h
      exact Sphere.tangent_of_transport hc ht.point hpoint htransport
    have hzeta : s.Tangent a.point w.zeta := by
      obtain hzeta | ⟨image, himage, hchange⟩ :=
        ConjugateGradient.zeta_of_weigh hkeep ht.cache hweigh
      · exact hcarried hzeta
      · exact Sphere.tangent_combines hgradient (hcarried himage) (Vec.combines_sub hchange)
    have hnew := Sphere.tangent_combines hzeta hgradient (Vec.combines_axpy hdirection)
    exact ⟨hpoint, hgradient, .inr hnew, hcache⟩

/-- **An iteration keeps a run on the sphere.** -/
theorem tangential_of_iterate (hr : Tangential s r)
    (h : iterate (s.conjugateGradients config objective clock) r = (.ok none, r')) :
    Tangential s r' := by
  cases iterates_of_eq_ok h with
  | @moves norm t a work _ accepts advanced =>
    obtain ⟨steers, found⟩ := accepts
    obtain ⟨hpoint, hgradient⟩ := onSphere_of_searchFrom found
    have ht := (tangential_of_steers hr steers).1
    have hwork : work.cache.Faithful :=
      (keeps_searchFrom Sphere.partsKeep_faithful t).of_eq ht.cache found
    have ht' : Tangential s { t with work } := ⟨ht.point, ht.gradient, ht.direction, hwork⟩
    exact tangential_of_advance ht' hpoint hgradient advanced

end Running

namespace Setup

variable {start : ConjugateGradient ℝ} {state : σ} {x₀ : Vec ℝ}
variable {r : RunState ℝ σ (ConjugateGradient ℝ)}

theorem Visits.tangential (hx₀ : s.OnSphere x₀)
    (h : (s.conjugateGradients config objective clock).Visits start state x₀ r) :
    Running.Tangential s r := by
  induction h with
  | @first it work begun =>
    obtain ⟨-, value, gradient, w, hempty, hevaluate, rfl⟩ := begin_eq_ok begun
    have hw : w.cache.Faithful := by
      rw [hempty]
      exact Cache.faithful_empty
    have hwork := (Sphere.partsKeep_faithful.evaluate x₀).of_eq hw hevaluate
    exact ⟨hx₀, Sphere.tangent_of_evaluate hx₀ hevaluate, .inr (Sphere.tangent_zeros hx₀), hwork⟩
  | next visited moved ih => exact Running.tangential_of_iterate ih moved

/-- **A run of conjugate gradients on a sphere never leaves it**, and its directions are tangent. -/
theorem run_tangential (hx₀ : s.inner x₀ x₀ = .ok 1) :
    (∀ r norm t, (s.conjugateGradients config objective clock).Visits start state x₀ r →
      Running.Steers (s.conjugateGradients config objective clock) r norm t →
      s.OnSphere t.iterate.point ∧ s.Tangent t.iterate.point t.iterate.gradient ∧
        s.Tangent t.iterate.point t.direction ∧
        ∀ a work,
          Running.searchFrom (s.conjugateGradients config objective clock) t t.work =
            (.ok a, work) →
          s.OnSphere a.point ∧ s.Tangent a.point a.gradient ∧
            s.containsPoint a.point Scalar.pointTolerance = true) ∧
    Quiet ((s.conjugateGradients config objective clock).run start state x₀).2.trace := by
  constructor
  · intro r norm t visited steers
    obtain ⟨ht, hdirection⟩ := Running.tangential_of_steers (visited.tangential hx₀) steers
    refine ⟨ht.point, ht.gradient, hdirection, fun a work found => ?_⟩
    obtain ⟨hpoint, hgradient⟩ := Running.onSphere_of_searchFrom found
    exact ⟨hpoint, hgradient, hpoint.containsPoint⟩
  · refine quiet_run Sphere.calm_conjugateGradients fun r norm t a work _ accepts => ?_
    exact (Running.onSphere_of_searchFrom accepts.2).1.containsPoint

end Setup

end

/-! ## The smallest sphere -/

theorem Sphere.inner_segment (a b c d : ℝ) :
    Sphere.segment.inner [a, b] [c, d] = .ok ((a * c + b * d) / 2) :=
  Sphere.inner_eq_ok.2 ⟨rfl, rfl, Sphere.form_segment a b c d⟩

namespace Setup

/-- Conjugate gradients on the smallest sphere, for the inner product with `(-1, 1)`. -/
noncomputable def segmentDescent : Setup ℝ Unit (ConjugateGradient ℝ) :=
  Sphere.segment.conjugateGradients {} (.linear Sphere.segment.manifold [1, -1]) fun _ => 0

theorem evaluate_segmentDescent (w : Workspace ℝ Unit) :
    segmentDescent.problem.evaluate [1, 1] w = (.ok (-0, [-1, 1]), w) := by
  have hvalue : Sphere.segment.inner [1, -1] [1, 1] = .ok (0 : ℝ) := by
    rw [Sphere.inner_segment]
    norm_num
  have hgradient : Vec.neg ([1, -1] : Vec ℝ) = [-1, 1] := by norm_num [Vec.neg]
  have hproject : Sphere.segment.projectTangent [1, 1] [-1, 1] = .ok ([-1, 1] : Vec ℝ) := by
    refine checked_bind_eq_ok.2 ⟨(), Sphere.requireLength_eq_ok.2 rfl, ?_⟩
    refine checked_bind_eq_ok.2 ⟨(), Sphere.requireLength_eq_ok.2 rfl, ?_⟩
    refine checked_bind_eq_ok.2 ⟨_, Sphere.inner_segment .., ?_⟩
    norm_num [Vec.sub, Vec.combine, Vec.scale]
  refine Problem.evaluate_eq_ok.2 ⟨[-1, 1], w.objective, w.cache, ?_, ?_, rfl⟩
  · refine bind_eq_ok.2 ⟨0, w.objective, lift_eq_ok.2 ⟨hvalue, rfl⟩, ?_⟩
    rw [hgradient]
    rfl
  · exact lift_eq_ok.2 ⟨hproject, rfl⟩

theorem segmentDescent_steers : ∃ r norm t, segmentDescent.Visits (.new {}) () [1, 1] r ∧
    Running.Steers segmentDescent r norm t := by
  have hvalid : segmentDescent.config.searchParams.validate = .ok () := by
    simp only [segmentDescent, Sphere.conjugateGradients, SolverOptions.searchParams,
      SearchParams.strongWolfe, SearchParams.validate]
    norm_num
  have hnorm : segmentDescent.manifold.norm [1, 1] [-1, 1] = .ok √1 := by
    show Scalar.sqrt <$> Sphere.segment.inner ([-1, 1] : Vec ℝ) [-1, 1] = _
    rw [Sphere.inner_segment]
    show Except.ok √_ = _
    norm_num
  obtain ⟨work, begun⟩ : ∃ work, segmentDescent.begin (.new {}) [1, 1] { objective := () } =
      (.ok (.start [1, 1] (-0) [-1, 1] .strongWolfe), work) :=
    exists_begin_eq_ok rfl hvalid fun w => ⟨w, evaluate_segmentDescent w⟩
  refine ⟨_, √1, _, .first begun, hnorm, ?_, Running.ofSteering_eq_ok.2
    ⟨_, ConjugateGradient.steer_eq_ok.2 ⟨_, Sphere.inner_segment .., rfl⟩, rfl⟩⟩
  norm_num [StoppingRule.reason?, Running.status, segmentDescent, Sphere.conjugateGradients,
    initial, Iterate.start]

theorem run_tangential_segment : Sphere.segment.inner ([1, 1] : Vec ℝ) [1, 1] = .ok 1 ∧
    (∃ r norm t, segmentDescent.Visits (.new {}) () [1, 1] r ∧
      Running.Steers segmentDescent r norm t ∧
      Sphere.segment.Tangent t.iterate.point t.direction) ∧
    Quiet (segmentDescent.run (.new {}) () [1, 1]).2.trace := by
  have hx₀ : Sphere.segment.inner ([1, 1] : Vec ℝ) [1, 1] = .ok 1 := by
    rw [Sphere.inner_segment]
    norm_num
  obtain ⟨r, norm, t, visited, steers⟩ := segmentDescent_steers
  obtain ⟨-, -, tangent, -⟩ := (run_tangential hx₀).1 r norm t visited steers
  exact ⟨hx₀, ⟨r, norm, t, visited, steers, tangent⟩, (run_tangential hx₀).2⟩

end Setup

end GeodesicDescent
