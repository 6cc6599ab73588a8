import GeodesicDescent.Proofs.Spaces
import GeodesicDescent.Proofs.LineSearch.Curvature
import GeodesicDescent.Proofs.LineSearch.Descent
import GeodesicDescent.Proofs.Run.Directions
import GeodesicDescent.Proofs.Run.Reports

/-!
# The slopes of conjugate gradients

With the weight of Fletcher and Reeves, or one kept within its bounds, every direction leads
downhill neither too steeply nor too gently for the gradient. What the strong Wolfe search leaves of
the slope after a step is what the rule carries into the next direction.

* `SlopeBounds`, `SlopeBounds.of_restart`, **`SlopeBounds.of_curvature`**: the bounds, and how they
  pass from one direction to the next;
* `Running.SeesSlopes`, `Running.Steps.curvature`: what the search of a step leaves of the slope;
* `Running.Steps.slopeBounded`: a prepared direction is within the bounds if the last one was;
* `Setup.Visits.onlyLongest_of_reported`: what it means that a step is reported as the longest;
* **`Setup.run_slopes`**: as long as none is, every direction of a run is within the bounds.
-/

namespace GeodesicDescent

open Stateful

/-! ## The bounds -/

/-- A slope within the bounds that the squared gradient sets. -/
structure SlopeBounds {K : Type} [Field K] [LE K] (c2 square slope : K) : Prop where
  lower : -(square / (1 - c2)) ≤ slope
  upper : slope ≤ -((1 - 2 * c2) / (1 - c2) * square)

variable {K σ : Type} [Field K] [LinearOrder K]

namespace SlopeBounds

variable [IsStrictOrderedRing K] {c2 old new slope sigma along : K}

theorem of_restart (hpos : 0 < c2) (hlt : c2 < 1) (hnew : 0 ≤ new) :
    SlopeBounds c2 new (-new) where
  lower := by
    rw [neg_le_neg_iff, le_div_iff₀ (sub_pos.2 hlt)]
    exact mul_le_of_le_one_right hnew (sub_le_self 1 hpos.le)
  upper := by
    rw [neg_le_neg_iff]
    refine mul_le_of_le_one_left hnew ((div_le_one (sub_pos.2 hlt)).2 ?_)
    linarith

/-- **What is left of a slope within its bounds keeps the next slope within its bounds.** -/
theorem of_curvature (hpos : 0 < c2) (hlt : c2 < 1) (hold : SlopeBounds c2 old slope)
    (hdown : slope < 0) (hnew : 0 ≤ new) (hleft : |along| ≤ -c2 * slope)
    (hsigma : |sigma| ≤ |new / old|) : SlopeBounds c2 new (sigma * along - new) := by
  have hgap : 0 < 1 - c2 := sub_pos.2 hlt
  have hsteep : -slope ≤ old / (1 - c2) := neg_le.1 hold.lower
  have hold_pos : 0 < old := by
    have := (neg_pos.2 hdown).trans_le hsteep
    rwa [div_pos_iff_of_pos_right hgap] at this
  have hratio : 0 ≤ new / old := div_nonneg hnew hold_pos.le
  have hshare : |sigma * along| ≤ new * (c2 / (1 - c2)) := calc
    |sigma * along| = |sigma| * |along| := abs_mul _ _
    _ ≤ new / old * (-c2 * slope) :=
      mul_le_mul (hsigma.trans (abs_of_nonneg hratio).le) hleft (abs_nonneg _) hratio
    _ = new / old * (c2 * -slope) := by ring
    _ ≤ new / old * (c2 * (old / (1 - c2))) :=
      mul_le_mul_of_nonneg_left (mul_le_mul_of_nonneg_left hsteep hpos.le) hratio
    _ = new * (c2 / (1 - c2)) := by field_simp
  obtain ⟨hlow, hhigh⟩ := abs_le.1 hshare
  constructor
  · have : new / (1 - c2) = new * (c2 / (1 - c2)) + new := by
      field_simp
      ring
    linarith
  · have : (1 - 2 * c2) / (1 - c2) * new = new - new * (c2 / (1 - c2)) := by
      field_simp
      ring
    linarith

end SlopeBounds

/-! ## The slope along a direction -/

variable [Elementary K] [Tolerances K]

/-- The slope along a direction is within the bounds that the gradient at the point sets. -/
def Manifold.SlopeBounded (M : Manifold K) (c2 : K) (point gradient direction : Vec K) : Prop :=
  ∃ square slope, M.inner point gradient gradient = .ok square ∧
    M.inner point gradient direction = .ok slope ∧ SlopeBounds c2 square slope

variable {S : Space} {config : SolverOptions K} {objective : Objective K σ} {clock : Nat → Nat}

theorem Space.slopeBounded_neg [IsStrictOrderedRing K] {c2 norm : K} {point gradient : Vec K}
    (hpos : 0 < c2) (hlt : c2 < 1) (h : S.manifold.norm point gradient = .ok norm) :
    S.manifold.SlopeBounded c2 point gradient (Vec.neg gradient) := by
  obtain ⟨square, hsquare⟩ := Manifold.inner_of_norm h
  obtain ⟨hlength, -, hform⟩ := Space.inner_eq_ok.1 hsquare
  refine ⟨square, -square, hsquare, Space.inner_eq_ok.2 ⟨hlength, ?_, ?_⟩, ?_⟩
  · exact (Vec.length_neg gradient).trans hlength
  · rw [Space.form_comm, Space.form_neg, hform]
  · exact .of_restart hpos hlt (hform ▸ Space.form_self_nonneg gradient)

theorem Space.partsKeep_faithful :
    (S.manifold.conjugateGradients config objective clock).problem.PartsKeep
      fun w => w.cache.Faithful :=
  Problem.partsKeep_of_cache (fun x g c hc => (S.transparent_convertGradient x g _ c hc).2)
    fun x η y ξ c hc => (S.transparent_differential x η y ξ c hc).2

/-! ## One step -/

namespace Running

variable {r r' t : RunState K σ (ConjugateGradient K)} {norm : K} {a : Accepted K}
variable {work : Workspace K σ} {h : Heading K (ConjugateGradient K)}

theorem Steps.faithful
    (hs : Steps (S.manifold.conjugateGradients config objective clock) r norm t a work h r')
    (hr : r.work.cache.Faithful) : t.work.cache.Faithful ∧ work.cache.Faithful ∧
      r'.work.cache.Faithful := by
  obtain ⟨⟨steers, found⟩, -, learnt, rfl⟩ := hs
  have ht : t.work.cache.Faithful := by
    rw [steers.work_eq]
    exact hr
  have hwork : work.cache.Faithful :=
    (keeps_searchFrom Space.partsKeep_faithful t).of_eq ht found
  refine ⟨ht, hwork, ?_⟩
  show h.cache.Faithful
  obtain ⟨-, rfl⟩ | ⟨w, c, hweigh, -, rfl, -⟩ := ConjugateGradient.learn_eq_ok learnt
  · exact hwork
  · have hkeep (v : Vec K) : Keeps Cache.Faithful (S.manifold.transport (entered t a).point
        (entered t a).displacement (entered t a).nextPoint v) := Space.keeps_transport _ _ _ _
    exact (ConjugateGradient.keeps_weigh hkeep).of_eq hwork hweigh

/-- What a search sees of the slope, before a step and after it. -/
structure SeesSlopes (M : Manifold K) (t : RunState K σ (ConjugateGradient K)) (a : Accepted K)
    (slope left : K) : Prop where
  before : M.inner t.iterate.point t.iterate.gradient t.direction = .ok slope
  downhill : slope < 0
  after : StrongWolfe.SlopeAfter M Cache.Faithful t.iterate.point t.direction a left

/-- A step after which more than the permitted share of the slope is left, so that it was taken only
for being the longest. -/
def OnlyLongest (params : SearchParams K) (a : Accepted K) (slope left : K) : Prop :=
  params.maxStep ≤ a.step ∧ ¬ |left| ≤ -params.c2 * slope

/-- The search leaves at most a share of the slope, or reports that the step is the longest. -/
theorem Steps.curvature
    (hs : Steps (S.manifold.conjugateGradients config objective clock) r norm t a work h r')
    (hsearch : config.lineSearch = .strongWolfe) (hr : r.work.cache.Faithful) : ∃ slope left,
      SeesSlopes S.manifold t a slope left ∧
      (|left| ≤ -config.searchParams.c2 * slope ∧ work.trace = r.work.trace ∨
        OnlyLongest config.searchParams a slope left ∧
          work.trace = r.work.trace.push (StrongWolfe.reachedMaximum a.step)) := by
  obtain ⟨ht, -, -⟩ := hs.faithful hr
  obtain ⟨⟨steers, found⟩, -, -, rfl⟩ := hs
  rw [searchFrom, show (S.manifold.conjugateGradients config objective clock).config.lineSearch =
    .strongWolfe from hsearch] at found
  obtain ⟨slope, left, hslope, hdown, seen, hwhy⟩ :=
    StrongWolfe.search_curvature Space.partsKeep_faithful ht found
  refine ⟨slope, left, ⟨hslope, not_le.1 hdown, seen⟩, ?_⟩
  rw [← steers.work_eq]
  obtain ⟨flat, htrace⟩ | ⟨steep, -, longest, htrace⟩ := hwhy
  · exact .inl ⟨flat, htrace⟩
  · exact .inr ⟨⟨longest, steep⟩, htrace⟩

theorem Steps.reachedMaximum_mem_iff {M : Manifold K} {step : K}
    (hs : Steps (M.conjugateGradients config objective clock) r norm t a work h r') :
    StrongWolfe.reachedMaximum step ∈ r'.work.trace ↔
      StrongWolfe.reachedMaximum step ∈ work.trace := by
  rw [hs.state_eq, moved, reported]
  simp [StrongWolfe.reachedMaximum, completed, Manifold.conjugateGradients,
    ConjugateGradient.rule, ConjugateGradient.report]

variable [IsStrictOrderedRing K]

/-- **A direction that is prepared after a step is within the bounds if the last one was.** -/
theorem Steps.slopeBounded
    (hs : Steps (S.manifold.conjugateGradients config objective clock) r norm t a work h r')
    (hv : config.searchParams.Valid) (hr : r.work.cache.Faithful) {slope left : K}
    (seen : SeesSlopes S.manifold t a slope left)
    (hleft : |left| ≤ -config.searchParams.c2 * slope) {method : CGMethod}
    (hmethod : method = .fletcherReeves ∨ method = .frPr) {w : Weighing K} {d : Vec K}
    (prepares : Prepares S.manifold method t a work w d)
    (ht : S.manifold.SlopeBounded config.searchParams.c2 t.iterate.point t.iterate.gradient
      t.direction) :
    S.manifold.SlopeBounded config.searchParams.c2 a.point a.gradient d := by
  obtain ⟨-, hwork, -⟩ := hs.faithful hr
  obtain ⟨hslope, hdown, moved, c, _, hc, hmoved, halong⟩ := seen
  obtain ⟨⟨_, hweigh⟩, hcombined⟩ := prepares
  obtain ⟨⟨_, _, hc', htransport⟩, old, new, hold, hnew, hsigma⟩ :=
    ConjugateGradient.abs_sigma_le hmethod (fun _ => Space.keeps_transport _ _ _ _) hwork hweigh
  -- what the search saw of the old direction is what the rule weighs
  obtain rfl : moved = w.zeta := Space.differential_eq_transport hc hc' hmoved htransport
  obtain ⟨old', slope', hold', hslope', hbounds⟩ := ht
  obtain rfl : old = old' := Except.ok.inj (hold.symm.trans hold')
  obtain rfl : slope = slope' := Except.ok.inj (hslope.symm.trans hslope')
  have hlength : a.gradient.length = S.size := (Space.inner_eq_ok.1 hnew).1
  have hsquare : S.form a.gradient a.gradient = new := (Space.inner_eq_ok.1 hnew).2.2
  have hzeta : S.form w.zeta a.gradient = left := by
    rw [Space.form_comm]
    exact (Space.inner_eq_ok.1 halong).2.2
  have hcombines := Vec.combines_axpy hcombined
  have hd : S.form a.gradient d = w.sigma * left - new := by
    rw [Space.form_comm, Space.form_combines hcombines, hzeta]
    show w.sigma * left + -1 * S.form a.gradient a.gradient = _
    rw [hsquare]
    ring
  refine ⟨new, w.sigma * left - new, hnew, Space.inner_eq_ok.2
    ⟨hlength, hcombines.length_right.trans hlength, hd⟩, ?_⟩
  exact hbounds.of_curvature (hv.c1_pos.trans hv.c1_lt_c2) hv.c2_lt_one hdown
    (hsquare ▸ Space.form_self_nonneg _) hleft hsigma

end Running

/-! ## A whole run -/

namespace Setup

variable {start : ConjugateGradient K} {state : σ} {x₀ : Vec K}
variable {r t : RunState K σ (ConjugateGradient K)}

theorem Visits.faithful
    (visited : (S.manifold.conjugateGradients config objective clock).Visits start state x₀ r) :
    r.work.cache.Faithful := by
  induction visited with
  | first begun =>
    obtain ⟨-, value, gradient, w, hempty, hevaluate, -⟩ := begin_eq_ok begun
    have hw : w.cache.Faithful := by
      rw [hempty]
      exact Cache.faithful_empty
    exact (Space.partsKeep_faithful.evaluate x₀).of_eq hw hevaluate
  | next _ moved ih =>
    obtain ⟨norm, t, a, work, h, steps⟩ := Running.steps_of_iterate moved
    exact (steps.faithful ih).2.2

theorem reachedMaximum_not_mem_opening {events : List (Event K)} {step : K}
    (h : start.announce = .ok events) : StrongWolfe.reachedMaximum step ∉
      (S.manifold.conjugateGradients config objective clock).opening events #[] := by
  intro hmem
  rw [opening, Array.mem_push, mem_pushAll, Array.mem_push] at hmem
  obtain ((hmem | hparameters) | hmem) | hstarted := hmem
  · exact absurd hmem (by simp)
  · cases S <;> exact nomatch congrArg Event.level hparameters
  · exact nomatch ConjugateGradient.level_of_announce h _ hmem
  · exact nomatch congrArg Event.level hstarted

/-- **Only a step that was taken for being the longest is reported as such.** -/
theorem Visits.onlyLongest_of_reported (hsearch : config.lineSearch = .strongWolfe) {step : K}
    (visited : (S.manifold.conjugateGradients config objective clock).Visits start state x₀ r)
    (hmem : StrongWolfe.reachedMaximum step ∈ r.work.trace) :
    ∃ s norm t a work h s' slope left,
      (S.manifold.conjugateGradients config objective clock).Visits start state x₀ s ∧
      Running.Steps (S.manifold.conjugateGradients config objective clock) s norm t a work h s' ∧
      Running.SeesSlopes S.manifold t a slope left ∧ a.step = step ∧
      Running.OnlyLongest config.searchParams a slope left := by
  induction visited with
  | first begun =>
    obtain ⟨events, value, gradient, announced, -, evaluated, -⟩ := begin_inv begun
    obtain ⟨_, _, _, -, -, rfl⟩ := Problem.evaluate_eq_ok.1 evaluated
    exact absurd hmem (reachedMaximum_not_mem_opening announced)
  | next visited moved ih =>
    obtain ⟨norm, t, a, work, h, steps⟩ := Running.steps_of_iterate moved
    rw [steps.reachedMaximum_mem_iff] at hmem
    obtain ⟨slope, left, seen, ⟨-, htrace⟩ | ⟨only, htrace⟩⟩ :=
      steps.curvature hsearch visited.faithful
    · exact ih (htrace ▸ hmem)
    · rw [htrace, Array.mem_push] at hmem
      obtain hmem | hmem := hmem
      · exact ih hmem
      · obtain rfl : step = a.step := by simpa [StrongWolfe.reachedMaximum] using hmem
        exact ⟨_, norm, t, a, work, h, _, slope, left, visited, steps, seen, rfl, only⟩

variable [IsStrictOrderedRing K]

/-- **Every direction of a run is within the bounds that the squared gradient sets**, as long as no
step was taken only for being the longest. -/
theorem run_slopes (hsearch : config.lineSearch = .strongWolfe)
    (hmethod : start.config.method = .fletcherReeves ∨ start.config.method = .frPr) {norm : K}
    (visited : (S.manifold.conjugateGradients config objective clock).Visits start state x₀ r)
    (steers : Running.Steers (S.manifold.conjugateGradients config objective clock) r norm t)
    (hlongest : ∀ step, StrongWolfe.reachedMaximum step ∉ r.work.trace) :
    S.manifold.SlopeBounded config.searchParams.c2 r.iterate.point r.iterate.gradient
      t.direction := by
  have hv : config.searchParams.Valid := SearchParams.valid_of_validate visited.begun.2
  have hpos := hv.c1_pos.trans hv.c1_lt_c2
  -- on the iterations: a search starts within the bounds if the one before it did
  induction visited generalizing norm t with
  | first begun =>
    obtain ⟨_, _, _, -, -, -, rfl⟩ := begin_inv begun
    have hrestart := (CGConfig.restartsAt_eq_true
      (Visits.first begun).restartPeriod_ne_zero 0).2 (dvd_zero _)
    obtain hneg | ⟨hgoes, -⟩ := steers.neg_or_kept
    · rw [hneg]
      exact Space.slopeBounded_neg hpos hv.c2_lt_one steers.norm_eq
    · exact absurd (hrestart.symm.trans hgoes) (by decide)
  | @next r r' visited moved ih =>
    obtain hneg | ⟨hgoes, hkept⟩ := steers.neg_or_kept
    · rw [hneg]
      exact Space.slopeBounded_neg hpos hv.c2_lt_one steers.norm_eq
    obtain ⟨norm₀, t₀, a, work, h, steps⟩ := Running.steps_of_iterate moved
    obtain ⟨-, hrestart | ⟨w, prepares⟩⟩ := steps.prepares
    · exact absurd (hrestart.symm.trans hgoes) (by decide)
    have hwork (step : K) : StrongWolfe.reachedMaximum step ∉ work.trace := fun hmem =>
      hlongest step (steps.reachedMaximum_mem_iff.2 hmem)
    obtain ⟨slope, left, seen, ⟨hleft, htrace⟩ | ⟨-, htrace⟩⟩ :=
      steps.curvature hsearch visited.faithful
    · have ht₀ := ih steps.accepts.1 (htrace ▸ hwork)
      rw [← steps.accepts.1.iterate_eq] at ht₀
      rw [← visited.config_eq] at hmethod
      rw [hkept, show r'.iterate = (Running.entered t₀ a).shift from congrArg _ steps.state_eq]
      exact steps.slopeBounded hv visited.faithful seen hleft hmethod prepares ht₀
    · refine absurd ?_ (hwork a.step)
      rw [htrace]
      exact Array.mem_push_self

theorem run_slopes_bowl :
    ∃ r norm t, bowlDescent.Visits bowlStart () [1, 1] r ∧ Running.Steers bowlDescent r norm t ∧
      (r.iterate.iteration = 2 ∧ t.direction ≠ Vec.neg r.iterate.gradient) ∧
      (Flat.manifold ⟨2⟩ : Manifold ℚ).SlopeBounded bowlDescent.config.searchParams.c2
        r.iterate.point r.iterate.gradient t.direction := by
  obtain ⟨r, norm, t, visited, steers, h⟩ := exists_of_after?
    (u := bowlDescent) bowlStart () [1, 1] 2
    (P := fun r t => (r.iterate.iteration = 2 ∧ t.direction ≠ Vec.neg r.iterate.gradient) ∧
      r.work.trace.all fun e => e.message ≠ "strong Wolfe reached the maximum step")
    (by decide +kernel)
  obtain ⟨hkept, htrace⟩ := of_decide_eq_true h
  have hlongest (step : ℚ) : StrongWolfe.reachedMaximum step ∉ r.work.trace := fun hmem =>
    of_decide_eq_true (Array.all_eq_true_iff_forall_mem.1 htrace _ hmem) rfl
  exact ⟨r, norm, t, visited, steers, hkept,
    run_slopes (S := .flat ⟨2⟩) rfl (.inl rfl) visited steers hlongest⟩

end Setup

end GeodesicDescent
