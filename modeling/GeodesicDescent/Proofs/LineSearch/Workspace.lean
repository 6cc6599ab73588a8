import GeodesicDescent.LineSearch.Workspace
import GeodesicDescent.Objective.Library
import GeodesicDescent.Proofs.Stateful

/-!
# Parts of a search

What a search asks of the geometry and of the objective, seen from its workspace.

* **`Objective.HasValues`**: an objective that gives one value at each point, whether it is asked
  for the gradient too or not;
* `Quadratic.objective_hasValues`: quadratics do;
* `ofChecked_eq_ok`, `ofCached_eq_ok`, `ofEval_eq_ok`: each writes its own part of the workspace;
* **`trialPoint_eq_ok`**, **`evaluate_eq_ok`**, **`downhillSlope_eq_ok`**: the point after a step,
  value and gradient there, and the slope that a search starts with.
-/

namespace GeodesicDescent

open Stateful

variable {K σ α : Type}

/-! ## Values of an objective -/

section Values

variable [Scalar K]

/-- The objective gives the value `φ` at each point where it gives one, in every state, whether it
is asked for the gradient too or not. -/
structure Objective.HasValues (f : Objective K σ) (φ : Vec K → K) : Prop where
  eval : ∀ {x s v s'}, f.eval x s = (.ok v, s') → v = φ x
  evalWithGradient : ∀ {x s v g s'}, f.evalWithGradient x s = (.ok (v, g), s') → v = φ x

namespace Quadratic

/-- The value at a point, zero where there is none. -/
def valueAt (q : Quadratic K) (x : Vec K) : K :=
  match q.a.mulVec x >>= q.valueWith x with
  | .ok v => v
  | .error _ => 0

theorem valueAt_eq {q : Quadratic K} {x product : Vec K} {v : K} (hp : q.a.mulVec x = .ok product)
    (hv : q.valueWith x product = .ok v) : v = q.valueAt x := by
  have h : (q.a.mulVec x >>= q.valueWith x) = .ok v := by
    rw [hp]
    exact hv
  rw [valueAt, h]

theorem objective_hasValues (q : Quadratic K) :
    (q.objective : Objective K σ).HasValues q.valueAt where
  eval h := by
    simp only [objective, bind_eq_ok, lift_eq_ok] at h
    obtain ⟨product, _, ⟨hp, rfl⟩, hv, rfl⟩ := h
    exact valueAt_eq hp hv
  evalWithGradient h := by
    simp only [objective, bind_eq_ok, lift_eq_ok, pure_apply, ok_eq_ok,
      Prod.mk.injEq] at h
    obtain ⟨product, _, ⟨hp, rfl⟩, value, _, ⟨hv, rfl⟩, _, _, _, ⟨rfl, rfl⟩, rfl⟩ := h
    exact valueAt_eq hp hv

end Quadratic

end Values

/-! ## Parts of a search -/

namespace Searching

variable {w w' : Workspace K σ} {a : α}

theorem ofChecked_eq_ok {m : Checked α} :
    (ofChecked m : Searching K σ α) w = (.ok a, w') ↔ m = .ok a ∧ w' = w := by
  rw [ofChecked, pair_eq_ok, seen_eq_ok, eq_comm (a := w')]

theorem ofCached_eq_ok {m : Cached K α} :
    (ofCached m : Searching K σ α) w = (.ok a, w') ↔
      ∃ c, m w.cache = (.ok a, c) ∧ w' = { w with cache := c } := by
  unfold ofCached
  rcases m w.cache with ⟨r, c⟩
  exact part_eq_ok (fun c => { w with cache := c }) seen_eq_ok

theorem ofEval_eq_ok {m : Eval σ α} :
    (ofEval m : Searching K σ α) w = (.ok a, w') ↔
      ∃ o, m w.objective = (.ok a, o) ∧ w' = { w with objective := o } := by
  unfold ofEval
  rcases m w.objective with ⟨r, o⟩
  exact part_eq_ok (fun o : σ => { w with objective := o }) seen_eq_ok

end Searching

variable [Scalar K]

namespace Problem

variable {p : Problem K σ} {w w' : Workspace K σ}

theorem trialPoint_eq_ok {point direction x : Vec K} {step : K} :
    p.trialPoint point direction step w = (.ok x, w') ↔
      p.manifold.retract point (Vec.scale direction step) = .ok x ∧ w' = w :=
  Searching.ofChecked_eq_ok

theorem evaluate_eq_ok {point gradient : Vec K} {value : K} :
    p.evaluate point w = (.ok (value, gradient), w') ↔ ∃ ambient o c,
      p.objective.evalWithGradient point w.objective = (.ok (value, ambient), o) ∧
      p.manifold.convertGradient point ambient p.usage w.cache = (.ok gradient, c) ∧
      w' = { w with objective := o, cache := c } := by
  simp only [evaluate, bind_eq_ok, pure_apply, ok_eq_ok, Searching.ofEval_eq_ok,
    Searching.ofCached_eq_ok]
  constructor
  · rintro ⟨⟨v, ambient⟩, _, ⟨o, ho, rfl⟩, g, _, ⟨c, hc, rfl⟩, h, rfl⟩
    cases h
    exact ⟨ambient, o, c, ho, hc, rfl⟩
  · rintro ⟨ambient, o, c, ho, hc, rfl⟩
    exact ⟨_, _, ⟨o, ho, rfl⟩, _, _, ⟨c, hc, rfl⟩, rfl, rfl⟩

theorem evaluate_value {φ : Vec K → K} (hf : p.objective.HasValues φ) {point gradient : Vec K}
    {value : K} (h : p.evaluate point w = (.ok (value, gradient), w')) : value = φ point := by
  obtain ⟨ambient, o, c, ho, -, -⟩ := evaluate_eq_ok.1 h
  exact hf.evalWithGradient ho

theorem downhillSlope_eq_ok {point gradient direction : Vec K} {slope : K} :
    p.downhillSlope point gradient direction w = (.ok slope, w') ↔
      p.manifold.inner point gradient direction = .ok slope ∧ ¬ 0 ≤ slope ∧ w' = w := by
  unfold downhillSlope
  simp only [bind_eq_ok, Searching.ofChecked_eq_ok]
  constructor
  · rintro ⟨a, _, ⟨ha, rfl⟩, h⟩
    by_cases hup : 0 ≤ a
    · rw [if_pos hup] at h
      exact nomatch h
    · rw [if_neg hup] at h
      cases h
      exact ⟨ha, hup, rfl⟩
  · rintro ⟨ha, hup, rfl⟩
    refine ⟨slope, _, ⟨ha, rfl⟩, ?_⟩
    rw [if_neg hup]
    rfl

end Problem

end GeodesicDescent
