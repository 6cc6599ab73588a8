import GeodesicDescent.Proofs.LineSearch.Keeping
import GeodesicDescent.Proofs.LineSearch.WolfeRuns

/-!
# The slope after a step

The strong Wolfe search takes a step where at most a share of the slope is left, or where no longer
step may be tried. It reports the second, and nothing else.

* `StrongWolfe.SlopeAfter`: the slope along the curve after a step, as the search sees it;
* `Moves.keeps`, `Takes.slope_eq`: what leads from one trial to the next, and why one is taken;
* **`StrongWolfe.search_curvature`**: the slope after an accepted step, and what was reported.
-/

namespace GeodesicDescent.StrongWolfe

open Stateful Relation

variable {K σ : Type} [Scalar K] {p : Problem K σ} {params : SearchParams K} {ray : Ray K}

theorem slopeAt_eq_ok {t : Trial K} {d : K} {w w' : Workspace K σ} :
    slopeAt p ray t w = (.ok d, w') ↔ ∃ moved c,
      p.manifold.differential ray.point (Vec.scale ray.direction t.step) t.point ray.direction true
        w.cache = (.ok moved, c) ∧
      p.manifold.inner t.point t.gradient moved = .ok d ∧ w' = { w with cache := c } := by
  simp only [slopeAt, bind_eq_ok, Searching.ofCached_eq_ok, Searching.ofChecked_eq_ok]
  constructor
  · rintro ⟨moved, _, ⟨c, hmoved, rfl⟩, hd, rfl⟩
    exact ⟨moved, c, hmoved, hd, rfl⟩
  · rintro ⟨moved, c, hmoved, hd, rfl⟩
    exact ⟨moved, _, ⟨c, hmoved, rfl⟩, hd, rfl⟩

/-! ## From trial to trial -/

section

variable {q q' : Position K × Workspace K σ} {P : Workspace K σ → Prop}

theorem Moves.keeps (htry : ∀ step, Keeps P (tryStep p ray step))
    (hslope : ∀ t, Keeps P (slopeAt p ray t)) (h : Moves p params ray q q') (hq : P q.2) :
    P q'.2 := by
  cases h with
  | longer h =>
    cases h with
    | onwards tried _ slope => exact (hslope _).of_eq ((htry _).of_eq hq tried) slope
  | bracketed h =>
    cases h with
    | high tried => exact (htry _).of_eq hq tried
    | uphill tried _ slope => exact (hslope _).of_eq ((htry _).of_eq hq tried) slope
  | half _ h =>
    cases h with
    | high tried => exact (htry _).of_eq hq tried
    | steep tried _ slope => exact (hslope _).of_eq ((htry _).of_eq hq tried) slope

theorem keeps_of_moves (htry : ∀ step, Keeps P (tryStep p ray step))
    (hslope : ∀ t, Keeps P (slopeAt p ray t)) (h : ReflTransGen (Moves p params ray) q q')
    (hq : P q.2) : P q'.2 := by
  induction h with
  | refl => exact hq
  | tail _ hmove ih => exact hmove.keeps htry hslope ih

theorem Takes.slope_eq {t : Trial K} {w' : Workspace K σ} (h : Takes p params ray q t w') :
    ∃ w₁ d w₂, tryStep p ray t.step q.2 = (.ok t, w₁) ∧ slopeAt p ray t w₁ = (.ok d, w₂) ∧
      (flatEnough params ray d ∧ w' = w₂ ∨
        ¬ flatEnough params ray d ∧ ¬ 0 ≤ d ∧ params.maxStep ≤ t.step ∧
          w' = { w₂ with trace := w₂.trace.push (reachedMaximum t.step) }) := by
  cases h with
  | doubled h =>
    cases h with
    | flat tried _ slope flat =>
      obtain rfl := tryStep_step tried
      exact ⟨_, _, _, tried, slope, .inl ⟨flat, rfl⟩⟩
    | longest tried _ slope steep downhill longest =>
      obtain rfl := tryStep_step tried
      exact ⟨_, _, _, tried, slope, .inr ⟨steep, downhill, longest, rfl⟩⟩
  | halved _ h =>
    cases h with
    | flat tried _ slope flat =>
      rw [tryStep_step tried]
      exact ⟨_, _, _, tried, slope, .inl ⟨flat, rfl⟩⟩

end

/-! ## A whole search -/

theorem keeps_trace_tryStep {trace : Array (Event K)} (step : K) :
    Keeps (fun w => w.trace = trace) (tryStep p ray step) :=
  keeps_tryStep (Problem.keeps_evaluate fun _ _ _ hw => hw) (fun _ _ hw => hw) ray step

theorem keeps_trace_slopeAt {trace : Array (Event K)} (t : Trial K) :
    Keeps (fun w => w.trace = trace) (slopeAt p ray t) :=
  keeps_slopeAt (fun _ _ _ _ _ hw => hw) ray t

/-- The slope along a curve after a step, seen through a cache with `Q`. -/
def SlopeAfter (M : Manifold K) (Q : Cache K → Prop) (point direction : Vec K) (a : Accepted K)
    (d : K) : Prop :=
  ∃ moved c c', Q c ∧
    M.differential point (Vec.scale direction a.step) a.point direction true c = (.ok moved, c') ∧
    M.inner a.point a.gradient moved = .ok d

/-- **After an accepted step at most a share of the slope is left, or a longer one may not be
tried.** Only the second is reported. -/
theorem search_curvature {Q : Cache K → Prop} {point gradient direction : Vec K} {value : K}
    {w w' : Workspace K σ} {a : Accepted K} (hp : p.PartsKeep fun w => Q w.cache)
    (hw : Q w.cache) (h : search p params point value gradient direction w = (.ok a, w')) :
    ∃ slope d, p.manifold.inner point gradient direction = .ok slope ∧ ¬ 0 ≤ slope ∧
      SlopeAfter p.manifold Q point direction a d ∧
      (Scalar.abs d ≤ -params.c2 * slope ∧ w'.trace = w.trace ∨
        ¬ Scalar.abs d ≤ -params.c2 * slope ∧ ¬ 0 ≤ d ∧ params.maxStep ≤ a.step ∧
          w'.trace = w.trace.push (reachedMaximum a.step)) := by
  obtain ⟨slope, hslope, hdown, q, t, hmoves, htakes, rfl⟩ := search_eq_ok h
  obtain ⟨w₁, d, w₂, tried, seen, hwhy⟩ := htakes.slope_eq
  have hcache : Q w₁.cache := by
    have htry := keeps_tryStep hp.evaluate hp.trials { point, value, slope, direction }
    have hq := keeps_of_moves htry (keeps_slopeAt hp.differential _) hmoves hw
    exact (htry _).of_eq hq tried
  have htrace : w₂.trace = w.trace := by
    have hq := keeps_of_moves keeps_trace_tryStep keeps_trace_slopeAt hmoves rfl
    exact (keeps_trace_slopeAt t).of_eq ((keeps_trace_tryStep _).of_eq hq tried) seen
  obtain ⟨moved, c, hmoved, hd, -⟩ := slopeAt_eq_ok.1 seen
  refine ⟨slope, d, hslope, hdown, ⟨moved, w₁.cache, c, hcache, hmoved, hd⟩, ?_⟩
  obtain ⟨flat, rfl⟩ | ⟨steep, downhill, longest, rfl⟩ := hwhy
  · exact .inl ⟨flat, htrace⟩
  · refine .inr ⟨steep, downhill, longest, ?_⟩
    rw [← htrace]
    rfl

end GeodesicDescent.StrongWolfe
