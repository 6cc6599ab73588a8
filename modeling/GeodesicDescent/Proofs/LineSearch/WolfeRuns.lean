import GeodesicDescent.LineSearch.StrongWolfe
import GeodesicDescent.Proofs.LineSearch.Workspace
import Mathlib.Logic.Relation

/-!
# Runs of the strong Wolfe search

What one trial can lead to, said once, and what a search that succeeds has gone through.

* `Doubles`, `Halves`: the outcomes of a doubled step and of a halved bracket, case by case;
* `Position`, `Moves`, `Takes`: where a search stands, a trial that leads on, a trial that is
  taken;
* **`search_eq_ok`**: a search that succeeds moves from its first step to a position whose trial it
  takes.
-/

namespace GeodesicDescent.StrongWolfe

open Stateful Problem Relation

variable {K σ : Type} [Scalar K] {p : Problem K σ} {params : SearchParams K} {ray : Ray K}

/-! ## One trial -/

theorem tryStep_eq_ok {step : K} {t : Trial K} {w w' : Workspace K σ} :
    tryStep p ray step w = (.ok t, w') ↔ ∃ w₁ w₂,
      p.trialPoint ray.point ray.direction step w = (.ok t.point, w₁) ∧
      p.evaluate t.point w₁ = (.ok (t.value, t.gradient), w₂) ∧
      t.step = step ∧ w' = { w₂ with trials := w₂.trials + 1 } := by
  simp only [tryStep, bind_eq_ok, modify_apply, pure_apply, ok_eq_ok]
  constructor
  · rintro ⟨x, w₁, hx, ⟨v, g⟩, w₂, he, _, _, ⟨-, rfl⟩, rfl, rfl⟩
    exact ⟨w₁, w₂, hx, he, rfl, rfl⟩
  · rintro ⟨w₁, w₂, hx, he, rfl, rfl⟩
    exact ⟨t.point, w₁, hx, (t.value, t.gradient), w₂, he, (), _, ⟨trivial, rfl⟩, rfl, rfl⟩

theorem tryStep_step {step : K} {t : Trial K} {w w' : Workspace K σ}
    (h : tryStep p ray step w = (.ok t, w')) : t.step = step := by
  obtain ⟨_, _, _, _, hstep, _⟩ := tryStep_eq_ok.1 h
  exact hstep

/-- What trying a doubled step leads to. -/
inductive Doubles (p : Problem K σ) (params : SearchParams K) (ray : Ray K) (first : Bool)
    (previous previousValue step : K) (w : Workspace K σ) : Doubled K → Workspace K σ → Prop
  /-- The value is too high. -/
  | high {t w₁} (tried : tryStep p ray step w = (.ok t, w₁))
      (high : insufficient params ray step t.value ∨ (first = false ∧ previousValue ≤ t.value)) :
      Doubles p params ray first previous previousValue step w
        (.bracketed ⟨previous, previousValue, step⟩) w₁
  /-- The slope is flat enough. -/
  | flat {t w₁ d w₂} (tried : tryStep p ray step w = (.ok t, w₁))
      (low : ¬ (insufficient params ray step t.value ∨ (first = false ∧ previousValue ≤ t.value)))
      (slope : slopeAt p ray t w₁ = (.ok d, w₂)) (flat : flatEnough params ray d) :
      Doubles p params ray first previous previousValue step w (.accepted t) w₂
  /-- The slope leads uphill. -/
  | uphill {t w₁ d w₂} (tried : tryStep p ray step w = (.ok t, w₁))
      (low : ¬ (insufficient params ray step t.value ∨ (first = false ∧ previousValue ≤ t.value)))
      (slope : slopeAt p ray t w₁ = (.ok d, w₂)) (steep : ¬ flatEnough params ray d)
      (uphill : 0 ≤ d) :
      Doubles p params ray first previous previousValue step w
        (.bracketed ⟨step, t.value, previous⟩) w₂
  /-- The slope still leads downhill, but no longer step may be tried. -/
  | longest {t w₁ d w₂} (tried : tryStep p ray step w = (.ok t, w₁))
      (low : ¬ (insufficient params ray step t.value ∨ (first = false ∧ previousValue ≤ t.value)))
      (slope : slopeAt p ray t w₁ = (.ok d, w₂)) (steep : ¬ flatEnough params ray d)
      (downhill : ¬ 0 ≤ d) (longest : params.maxStep ≤ step) :
      Doubles p params ray first previous previousValue step w (.accepted t)
        { w₂ with trace := w₂.trace.push (reachedMaximum step) }
  /-- The slope still leads downhill. -/
  | onwards {t w₁ d w₂} (tried : tryStep p ray step w = (.ok t, w₁))
      (low : ¬ (insufficient params ray step t.value ∨ (first = false ∧ previousValue ≤ t.value)))
      (slope : slopeAt p ray t w₁ = (.ok d, w₂)) (steep : ¬ flatEnough params ray d)
      (downhill : ¬ 0 ≤ d) (shorter : ¬ params.maxStep ≤ step) :
      Doubles p params ray first previous previousValue step w (.longer t) w₂

theorem doubles_of_eq_ok {first : Bool} {previous previousValue step : K} {w w' : Workspace K σ}
    {r : Doubled K} (h : double p params ray first previous previousValue step w = (.ok r, w')) :
    Doubles p params ray first previous previousValue step w r w' := by
  simp only [double, bind_eq_ok] at h
  obtain ⟨t, w₁, tried, h⟩ := h
  by_cases high : insufficient params ray step t.value ∨ (first = false ∧ previousValue ≤ t.value)
  · rw [if_pos high] at h
    cases h
    exact .high tried high
  rw [if_neg high] at h
  obtain ⟨d, w₂, slope, h⟩ := bind_eq_ok.1 h
  by_cases flat : flatEnough params ray d
  · rw [if_pos flat] at h
    cases h
    exact .flat tried high slope flat
  rw [if_neg flat] at h
  by_cases uphill : 0 ≤ d
  · rw [if_pos uphill] at h
    cases h
    exact .uphill tried high slope flat uphill
  rw [if_neg uphill] at h
  by_cases longest : params.maxStep ≤ step
  · rw [if_pos longest] at h
    cases h
    exact .longest tried high slope flat uphill longest
  · rw [if_neg longest] at h
    cases h
    exact .onwards tried high slope flat uphill longest

/-- The middle of a bracket. -/
def Bracket.middle (b : Bracket K) : K := (b.low + b.high) / 2.0

/-- What trying the middle of a bracket leads to. -/
inductive Halves (p : Problem K σ) (params : SearchParams K) (ray : Ray K) (b : Bracket K)
    (w : Workspace K σ) : Halved K → Workspace K σ → Prop
  /-- The value is too high: the half on the side of the low end. -/
  | high {t w₁} (tried : tryStep p ray b.middle w = (.ok t, w₁))
      (high : insufficient params ray b.middle t.value ∨ b.lowValue ≤ t.value) :
      Halves p params ray b w (.half { b with high := b.middle }) w₁
  /-- The slope is flat enough. -/
  | flat {t w₁ d w₂} (tried : tryStep p ray b.middle w = (.ok t, w₁))
      (low : ¬ (insufficient params ray b.middle t.value ∨ b.lowValue ≤ t.value))
      (slope : slopeAt p ray t w₁ = (.ok d, w₂)) (flat : flatEnough params ray d) :
      Halves p params ray b w (.accepted t) w₂
  /-- The middle is the new low end, and the half is the one that its slope leads into. -/
  | steep {t w₁ d w₂} (tried : tryStep p ray b.middle w = (.ok t, w₁))
      (low : ¬ (insufficient params ray b.middle t.value ∨ b.lowValue ≤ t.value))
      (slope : slopeAt p ray t w₁ = (.ok d, w₂)) (steep : ¬ flatEnough params ray d) :
      Halves p params ray b w (.half ⟨b.middle, t.value,
        if 0 ≤ d * (b.high - b.low) then b.low else b.high⟩) w₂

theorem halves_of_eq_ok {b : Bracket K} {w w' : Workspace K σ} {r : Halved K}
    (h : halve p params ray b w = (.ok r, w')) : Halves p params ray b w r w' := by
  simp only [halve, bind_eq_ok, ← Bracket.middle.eq_def] at h
  obtain ⟨t, w₁, tried, h⟩ := h
  by_cases high : insufficient params ray b.middle t.value ∨ b.lowValue ≤ t.value
  · rw [if_pos high] at h
    cases h
    exact .high tried high
  rw [if_neg high] at h
  obtain ⟨d, w₂, slope, h⟩ := bind_eq_ok.1 h
  by_cases flat : flatEnough params ray d
  · rw [if_pos flat] at h
    cases h
    exact .flat tried high slope flat
  · rw [if_neg flat] at h
    cases h
    exact .steep tried high slope flat

/-! ## A whole search -/

/-- Where a search stands: a step about to be tried while none is bracketed, or a bracket. -/
inductive Position (K : Type)
  | doubling (first : Bool) (previous previousValue step : K)
  | halving (b : Bracket K)

/-- The step that is tried at a position. -/
def Position.step : Position K → K
  | .doubling _ _ _ step => step
  | .halving b => b.middle

/-- A trial that leads on to the next position. -/
inductive Moves (p : Problem K σ) (params : SearchParams K) (ray : Ray K) :
    Position K × Workspace K σ → Position K × Workspace K σ → Prop
  | longer {first previous previousValue step w t w'}
      (h : Doubles p params ray first previous previousValue step w (.longer t) w') :
      Moves p params ray (.doubling first previous previousValue step, w)
        (.doubling false t.step t.value (Scalar.min (step * 2.0) params.maxStep), w')
  | bracketed {first previous previousValue step w b w'}
      (h : Doubles p params ray first previous previousValue step w (.bracketed b) w') :
      Moves p params ray (.doubling first previous previousValue step, w) (.halving b, w')
  | half {b w b' w'} (wide : ¬ Scalar.abs (b.high - b.low) < params.minStep)
      (h : Halves p params ray b w (.half b') w') :
      Moves p params ray (.halving b, w) (.halving b', w')

/-- A trial that is taken. -/
inductive Takes (p : Problem K σ) (params : SearchParams K) (ray : Ray K) :
    Position K × Workspace K σ → Trial K → Workspace K σ → Prop
  | doubled {first previous previousValue step w t w'}
      (h : Doubles p params ray first previous previousValue step w (.accepted t) w') :
      Takes p params ray (.doubling first previous previousValue step, w) t w'
  | halved {b w t w'} (wide : ¬ Scalar.abs (b.high - b.low) < params.minStep)
      (h : Halves p params ray b w (.accepted t) w') :
      Takes p params ray (.halving b, w) t w'

theorem Takes.tried {q : Position K × Workspace K σ} {t : Trial K} {w' : Workspace K σ}
    (h : Takes p params ray q t w') :
    t.step = q.1.step ∧ (∃ w₁, tryStep p ray t.step q.2 = (.ok t, w₁)) ∧
      ¬ insufficient params ray t.step t.value := by
  have of {step : K} {w w₁ : Workspace K σ} {also : Prop}
      (tried : tryStep p ray step w = (.ok t, w₁))
      (low : ¬ (insufficient params ray step t.value ∨ also)) :
      t.step = step ∧ (∃ w₁, tryStep p ray t.step w = (.ok t, w₁)) ∧
        ¬ insufficient params ray t.step t.value := by
    obtain rfl := tryStep_step tried
    exact ⟨rfl, ⟨w₁, tried⟩, fun high => low (.inl high)⟩
  cases h with
  | doubled h =>
    cases h with
    | flat tried low => exact of tried low
    | longest tried low => exact of tried low
  | halved wide h =>
    cases h with
    | flat tried low => exact of tried low

/-- A trial as the step taken, after a number of trials. -/
def Trial.accepted (t : Trial K) (trials : Nat) : Accepted K where
  step := t.step
  point := t.point
  value := t.value
  gradient := t.gradient
  functionEvaluations := trials
  gradientEvaluations := trials

/-- The search moves from a position to one whose trial it takes. -/
def Succeeds (p : Problem K σ) (params : SearchParams K) (ray : Ray K)
    (q : Position K × Workspace K σ) (a : Accepted K) (w' : Workspace K σ) : Prop :=
  ∃ q' t, ReflTransGen (Moves p params ray) q q' ∧ Takes p params ray q' t w' ∧
    a = t.accepted w'.trials

theorem Succeeds.of_move {q q₁ : Position K × Workspace K σ} {a : Accepted K} {w' : Workspace K σ}
    (hm : Moves p params ray q q₁) (h : Succeeds p params ray q₁ a w') :
    Succeeds p params ray q a w' := by
  obtain ⟨q', t, hr, ht, ha⟩ := h
  exact ⟨q', t, .head hm hr, ht, ha⟩

theorem Succeeds.of_take {q : Position K × Workspace K σ} {t : Trial K} {a : Accepted K}
    {w₁ w' : Workspace K σ} (ht : Takes p params ray q t w₁) (h : take t w₁ = (.ok a, w')) :
    Succeeds p params ray q a w' := by
  cases h
  exact ⟨q, t, .refl, ht, rfl⟩

omit [Scalar K] in
theorem fail_ne_ok {α : Type} {reason : String} {step : K} {a : α} {w w' : Workspace K σ} :
    fail ray reason step w ≠ (.ok a, w') := nofun

theorem halving_eq_ok {budget : Nat} {b : Bracket K} {w w' : Workspace K σ} {a : Accepted K}
    (h : halving p params ray budget b w = (.ok a, w')) :
    Succeeds p params ray (.halving b, w) a w' := by
  induction budget generalizing b w with
  | zero => exact absurd h fail_ne_ok
  | succ budget ih =>
    rw [halving] at h
    by_cases narrow : Scalar.abs (b.high - b.low) < params.minStep
    · rw [if_pos narrow] at h
      exact absurd h fail_ne_ok
    rw [if_neg narrow] at h
    obtain ⟨r, w₁, hr, h⟩ := bind_eq_ok.1 h
    cases r with
    | accepted t => exact .of_take (.halved narrow (halves_of_eq_ok hr)) h
    | half b' => exact .of_move (.half narrow (halves_of_eq_ok hr)) (ih h)

theorem doubling_eq_ok {budget : Nat} {first : Bool} {previous previousValue step : K}
    {w w' : Workspace K σ} {a : Accepted K}
    (h : doubling p params ray budget first previous previousValue step w = (.ok a, w')) :
    Succeeds p params ray (.doubling first previous previousValue step, w) a w' := by
  induction budget generalizing first previous previousValue step w with
  | zero => exact absurd h fail_ne_ok
  | succ budget ih =>
    rw [doubling] at h
    obtain ⟨r, w₁, hr, h⟩ := bind_eq_ok.1 h
    cases r with
    | accepted t => exact .of_take (.doubled (doubles_of_eq_ok hr)) h
    | bracketed b => exact .of_move (.bracketed (doubles_of_eq_ok hr)) (halving_eq_ok h)
    | longer t => exact .of_move (.longer (doubles_of_eq_ok hr)) (ih h)

/-- **A search that succeeds moves from its first step to a position whose trial it takes.** -/
theorem search_eq_ok {point gradient direction : Vec K} {value : K} {w w' : Workspace K σ}
    {a : Accepted K} (h : search p params point value gradient direction w = (.ok a, w')) :
    ∃ slope, p.manifold.inner point gradient direction = .ok slope ∧ ¬ 0 ≤ slope ∧
      Succeeds p params ⟨point, value, slope, direction⟩
        (.doubling true 0 value params.firstStep, { w with trials := 0 }) a w' := by
  simp only [search, bind_eq_ok, modify_apply, ok_eq_ok] at h
  obtain ⟨slope, w₁, hslope, _, _, ⟨-, rfl⟩, h⟩ := h
  obtain ⟨hinner, hdown, rfl⟩ := downhillSlope_eq_ok.1 hslope
  exact ⟨slope, hinner, hdown, doubling_eq_ok h⟩

end GeodesicDescent.StrongWolfe
