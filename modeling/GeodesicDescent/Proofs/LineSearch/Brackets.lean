import Mathlib.Tactic.Linarith
import GeodesicDescent.Proofs.LineSearch.Descent
import GeodesicDescent.Proofs.LineSearch.FirstStep
import GeodesicDescent.Proofs.LineSearch.Profile

/-!
# The bracket that a strong Wolfe search halves

Over an ordered field the ends of a bracket are told apart by what is known of them. The low end is
low enough, and its slope leads to the other end. There the value is too high or not below that of
the low end. A search that starts downhill enters halving with such a bracket, whichever end lies
further along, and every trial leads to another one of half the width.

* `Stage`, `Calls`: the calls of the two loops of a search, with their budgets;
* `Calls.run_eq`, `Calls.moves`: a call goes on as the one that it makes, and that is a move;
* `run_eq_ok`: a call that succeeds ends in one that takes its trial;
* `Known`: a step that was found low enough;
* **`Bracket.Encloses`**: what holds of the ends of a bracket;
* `Ascends`, `Position.Sound`: what holds while steps are doubled, and at every position;
* `Moves.sound`: a trial that leads on keeps it;
* `Halves.width_eq`, `Halves.lowValue_le`: what one halving does to the width and to the low end;
* **`search_encloses`**: the bracket at the start of every halving, and after it.
-/

namespace GeodesicDescent.StrongWolfe

open Stateful Relation

variable {K σ : Type}

/-! ## The calls of a search -/

section Calls

variable [Scalar K] {p : Problem K σ} {params : SearchParams K} {ray : Ray K}

/-- The arguments of a call of one of the two loops: how many trials are left, and where the search
stands. -/
structure Stage (K : Type) where
  budget : Nat
  position : Position K

/-- The call itself. -/
def Stage.run (p : Problem K σ) (params : SearchParams K) (ray : Ray K) :
    Stage K → Searching K σ (Accepted K)
  | ⟨budget, .doubling first previous previousValue step⟩ =>
    doubling p params ray budget first previous previousValue step
  | ⟨budget, .halving b⟩ => halving p params ray budget b

/-- The first call of a search. -/
def Stage.start (params : SearchParams K) (value : K) : Stage K :=
  ⟨params.maxIterations, .doubling true 0 value params.firstStep⟩

/-- A call makes another one after its trial. -/
inductive Calls (p : Problem K σ) (params : SearchParams K) (ray : Ray K) :
    Stage K × Workspace K σ → Stage K × Workspace K σ → Prop
  | longer {budget first previous previousValue step w t w'}
      (h : double p params ray first previous previousValue step w = (.ok (.longer t), w')) :
      Calls p params ray (⟨budget + 1, .doubling first previous previousValue step⟩, w)
        (⟨budget, .doubling false t.step t.value (Scalar.min (step * 2.0) params.maxStep)⟩, w')
  | bracketed {budget first previous previousValue step w b w'}
      (h : double p params ray first previous previousValue step w = (.ok (.bracketed b), w')) :
      Calls p params ray (⟨budget + 1, .doubling first previous previousValue step⟩, w)
        (⟨params.maxIterations, .halving b⟩, w')
  | half {budget b w b' w'} (wide : ¬ Scalar.abs (b.high - b.low) < params.minStep)
      (h : halve p params ray b w = (.ok (.half b'), w')) :
      Calls p params ray (⟨budget + 1, .halving b⟩, w) (⟨budget, .halving b'⟩, w')

variable {s s' : Stage K × Workspace K σ}

theorem Calls.run_eq (h : Calls p params ray s s') :
    s.1.run p params ray s.2 = s'.1.run p params ray s'.2 := by
  cases h with
  | longer h =>
    simp only [Stage.run, doubling]
    rw [bind_apply, h]
  | bracketed h =>
    simp only [Stage.run, doubling]
    rw [bind_apply, h]
  | half wide h =>
    simp only [Stage.run, halving]
    rw [if_neg wide, bind_apply, h]

theorem run_eq_of_calls (h : ReflTransGen (Calls p params ray) s s') :
    s.1.run p params ray s.2 = s'.1.run p params ray s'.2 := by
  induction h with
  | refl => rfl
  | tail _ hcall ih => exact ih.trans hcall.run_eq

theorem Calls.moves (h : Calls p params ray s s') :
    Moves p params ray (s.1.position, s.2) (s'.1.position, s'.2) := by
  cases h with
  | longer h => exact .longer (doubles_of_eq_ok h)
  | bracketed h => exact .bracketed (doubles_of_eq_ok h)
  | half wide h => exact .half wide (halves_of_eq_ok h)

theorem moves_of_calls (h : ReflTransGen (Calls p params ray) s s') :
    ReflTransGen (Moves p params ray) (s.1.position, s.2) (s'.1.position, s'.2) :=
  h.lift (fun s => (s.1.position, s.2)) fun _ _ => Calls.moves

theorem ensures_tryStep_trials {n : Nat} (step : K) :
    Ensures (fun w => w.trials ≤ n) (tryStep p ray step) (fun _ w => w.trials ≤ n + 1)
      fun _ w => w.trials ≤ n + 1 := by
  have hevaluate (x : Vec K) : Keeps (fun w => w.trials ≤ n) (p.evaluate x) :=
    Problem.keeps_evaluate (fun _ _ _ hw => hw) x
  exact ensures_tryStep (fun _ _ => Nat.le_succ_of_le) (fun x => (hevaluate x).ensures.mono
    (fun _ _ hw => hw) fun _ _ => Nat.le_succ_of_le) (fun _ => Nat.succ_le_succ) step

theorem ensures_slopeAt_trials {n : Nat} (t : Trial K) :
    Ensures (fun w => w.trials ≤ n) (slopeAt p ray t) (fun _ w => w.trials ≤ n)
      fun _ w => w.trials ≤ n :=
  ensures_slopeAt (fun _ _ hw => hw) (fun _ _ _ _ _ hw => hw) t

/-- No call is left out: one that makes no other makes one trial at most. -/
theorem trials_le_of_last {s : Stage K} {w : Workspace K σ}
    (hlast : ∀ s', ¬ Calls p params ray (s, w) s') :
    (s.run p params ray w).2.trials ≤ w.trials + 1 := by
  rcases s with ⟨budget, ⟨first, previous, previousValue, step⟩ | b⟩
  · cases budget with
    | zero => exact Nat.le_succ _
    | succ budget =>
      have htrial : (double p params ray first previous previousValue step w).2.trials ≤
          w.trials + 1 :=
        (ensures_double ensures_tryStep_trials ensures_slopeAt_trials (fun _ _ hw => hw) first
          previous previousValue step).snd (Nat.le_refl _)
      simp only [Stage.run, doubling]
      rw [bind_apply]
      rcases h : double p params ray first previous previousValue step w with ⟨e | r, w₁⟩
      all_goals rw [h] at htrial
      · exact htrial
      · cases r with
        | accepted t => exact htrial
        | bracketed b => exact absurd (.bracketed h) (hlast _)
        | longer t => exact absurd (.longer h) (hlast _)
  · cases budget with
    | zero => exact Nat.le_succ _
    | succ budget =>
      have htrial : (halve p params ray b w).2.trials ≤ w.trials + 1 :=
        (ensures_halve ensures_tryStep_trials ensures_slopeAt_trials b).snd (Nat.le_refl _)
      simp only [Stage.run, halving]
      by_cases narrow : Scalar.abs (b.high - b.low) < params.minStep
      · rw [if_pos narrow]
        exact Nat.le_succ _
      rw [if_neg narrow, bind_apply]
      rcases h : halve p params ray b w with ⟨e | r, w₁⟩
      all_goals rw [h] at htrial
      · exact htrial
      · cases r with
        | accepted t => exact htrial
        | half b' => exact absurd (.half narrow h) (hlast _)

/-- The trials that may still follow a call, with those of the bracket that it may end in. -/
def Stage.size (params : SearchParams K) : Stage K → Nat
  | ⟨budget, .doubling ..⟩ => budget + params.maxIterations
  | ⟨budget, .halving _⟩ => budget

theorem Calls.size_lt (h : Calls p params ray s s') : s'.1.size params < s.1.size params := by
  cases h with
  | longer => exact Nat.add_lt_add_right (Nat.lt_succ_self _) _
  | bracketed => exact Nat.lt_add_of_pos_left (Nat.succ_pos _)
  | half => exact Nat.lt_succ_self _

theorem takes_or_calls {s : Stage K} {w w' : Workspace K σ} {a : Accepted K}
    (h : s.run p params ray w = (.ok a, w')) :
    (0 < s.budget ∧ ∃ t, Takes p params ray (s.position, w) t w' ∧ a = t.accepted w'.trials) ∨
      ∃ s', Calls p params ray (s, w) s' := by
  rcases s with ⟨_ | budget, ⟨first, previous, previousValue, step⟩ | b⟩
  · exact absurd h fail_ne_ok
  · exact absurd h fail_ne_ok
  · simp only [Stage.run, doubling] at h
    obtain ⟨r, w₁, hr, h⟩ := bind_eq_ok.1 h
    cases r with
    | accepted t =>
      cases h
      exact .inl ⟨budget.succ_pos, t, .doubled (doubles_of_eq_ok hr), rfl⟩
    | bracketed b => exact .inr ⟨_, .bracketed hr⟩
    | longer t => exact .inr ⟨_, .longer hr⟩
  · simp only [Stage.run, halving] at h
    by_cases narrow : Scalar.abs (b.high - b.low) < params.minStep
    · rw [if_pos narrow] at h
      exact absurd h fail_ne_ok
    rw [if_neg narrow] at h
    obtain ⟨r, w₁, hr, h⟩ := bind_eq_ok.1 h
    cases r with
    | accepted t =>
      cases h
      exact .inl ⟨budget.succ_pos, t, .halved narrow (halves_of_eq_ok hr), rfl⟩
    | half b' => exact .inr ⟨_, .half narrow hr⟩

/-- **A call that succeeds ends in one that takes its trial**, by induction on the trials that may
still follow. -/
theorem run_eq_ok {s : Stage K} {w w' : Workspace K σ} {a : Accepted K}
    (h : s.run p params ray w = (.ok a, w')) : ∃ s' w₁ t,
      ReflTransGen (Calls p params ray) (s, w) (s', w₁) ∧ 0 < s'.budget ∧
      Takes p params ray (s'.position, w₁) t w' ∧ a = t.accepted w'.trials := by
  induction hsize : s.size params using Nat.strong_induction_on generalizing s w with
  | _ n ih =>
    obtain ⟨hbudget, t, htakes, ha⟩ | ⟨⟨s₁, w₁⟩, hcall⟩ := takes_or_calls h
    · exact ⟨s, w, t, .refl, hbudget, htakes, ha⟩
    · rw [show s.run p params ray w = _ from hcall.run_eq] at h
      obtain ⟨s', w₂, t, hcalls, hrest⟩ := ih _ (hsize ▸ hcall.size_lt) h rfl
      exact ⟨s', w₂, t, .head hcall hcalls, hrest⟩

theorem search_eq_run {gradient : Vec K} {w : Workspace K σ}
    (hslope : p.manifold.inner ray.point gradient ray.direction = .ok ray.slope)
    (hdown : ¬ 0 ≤ ray.slope) :
    search p params ray.point ray.value gradient ray.direction w =
      (Stage.start params ray.value).run p params ray { w with trials := 0 } := by
  rw [search, bind_apply, Problem.downhillSlope_eq_ok.2 ⟨hslope, hdown, rfl⟩]
  rfl

end Calls

/-! ## What is known of a bracket -/

variable [Field K] [LinearOrder K] [Elementary K] [Tolerances K]
variable {p : Problem K σ} {params : SearchParams K} {ray : Ray K} {w₀ : Workspace K σ}

/-- A step with the value after it, which is low enough. -/
structure Known (p : Problem K σ) (params : SearchParams K) (ray : Ray K) (w₀ : Workspace K σ)
    (step value : K) : Prop where
  value_eq : valueAfter p ray w₀ step = .ok value
  low_enough : params.LowEnough ray.value ray.slope step value

/-- **What holds of the ends of a bracket.** -/
structure Bracket.Encloses (p : Problem K σ) (params : SearchParams K) (ray : Ray K)
    (w₀ : Workspace K σ) (b : Bracket K) : Prop where
  low : Known p params ray w₀ b.low b.lowValue
  /-- The value at the other end is too high, or not below that of the low end. -/
  high : ∃ value, valueAfter p ray w₀ b.high = .ok value ∧
    (¬ params.LowEnough ray.value ray.slope b.high value ∨ b.lowValue ≤ value)
  /-- From the low end the slope leads down towards the other. -/
  downhill : ∃ d, slopeAfter p ray w₀ b.low = .ok d ∧ d * (b.high - b.low) < 0

/-- What holds while no step is bracketed: the step before was low enough and its slope leads on to
the step. Where there was none before, its value is the one at the start. -/
structure Ascends (p : Problem K σ) (params : SearchParams K) (ray : Ray K) (w₀ : Workspace K σ)
    (first : Bool) (previous previousValue step : K) : Prop where
  known : Known p params ray w₀ previous previousValue
  downhill : ∃ d, slopeAfter p ray w₀ previous = .ok d ∧ d < 0
  lt : previous < step
  value_eq : first = true → previousValue = ray.value

/-- What holds at a position of a search. -/
def Position.Sound (p : Problem K σ) (params : SearchParams K) (ray : Ray K)
    (w₀ : Workspace K σ) : Position K → Prop
  | .doubling first previous previousValue step =>
    Ascends p params ray w₀ first previous previousValue step
  | .halving b => b.Encloses p params ray w₀

variable {Q : Cache K → Prop} {step d : K} {t : Trial K} {b : Bracket K}
variable {w w' : Workspace K σ}

theorem known_of_tryStep (hp : p.Pure Q) (hstep : 0 < step)
    (tried : tryStep p ray step w = (.ok t, w')) (low : ¬ insufficient params ray step t.value) :
    Known p params ray w₀ step t.value :=
  ⟨valueAfter_eq_ok hp hstep.ne' tried, not_lt.1 low⟩

variable [IsStrictOrderedRing K]

theorem ne_zero_of_steep (hv : params.Valid) (hdown : ray.slope < 0)
    (steep : ¬ flatEnough params ray d) : d ≠ 0 := by
  rintro rfl
  refine steep ?_
  have hshare : 0 < -params.c2 * ray.slope :=
    mul_pos_of_neg_of_neg (neg_neg_of_pos (hv.c1_pos.trans hv.c1_lt_c2)) hdown
  show |(0 : K)| ≤ -params.c2 * ray.slope
  rw [abs_zero]
  exact hshare.le

/-! ## Doubling -/

theorem lt_value_of_low (hv : params.Valid) (hdown : ray.slope < 0) (hstep : 0 < step)
    (low : ¬ insufficient params ray step d) : d < ray.value := by
  have hfalls : params.c1 * step * ray.slope < 0 :=
    mul_neg_of_pos_of_neg (mul_pos hv.c1_pos hstep) hdown
  have hbound : d ≤ ray.value + params.c1 * step * ray.slope := not_lt.1 low
  linarith

section Doubling

variable {first : Bool} {previous previousValue : K}

/-- A trial that is neither too high nor flat nor uphill leads on to a longer step. -/
theorem ascends_of_longer (hp : p.Pure Q) (hw₀ : Q w₀.cache) (hw : Q w.cache) (hstep : 0 < step)
    (h : Doubles p params ray first previous previousValue step w (.longer t) w') :
    Ascends p params ray w₀ false t.step t.value (Scalar.min (step * 2.0) params.maxStep) := by
  cases h with
  | onwards tried low slope steep downhill shorter =>
    obtain rfl := tryStep_step tried
    refine ⟨known_of_tryStep hp hstep tried fun high => low (.inl high), ?_, ?_, nofun⟩
    · exact ⟨_, slopeAfter_eq_ok hp hw₀ hw hstep.ne' tried slope, not_le.1 downhill⟩
    · rw [scalar_min_eq, scientific_two]
      exact lt_min (by linarith) (not_le.1 shorter)

theorem Ascends.encloses (hv : params.Valid) (hdown : ray.slope < 0) (hp : p.Pure Q)
    (hw₀ : Q w₀.cache) (hw : Q w.cache) (hstep : 0 < step)
    (hq : Ascends p params ray w₀ first previous previousValue step)
    (h : Doubles p params ray first previous previousValue step w (.bracketed b) w') :
    b.Encloses p params ray w₀ := by
  cases h with
  | high tried high =>
    obtain ⟨d, hd, hneg⟩ := hq.downhill
    refine ⟨hq.known, ⟨_, valueAfter_eq_ok hp hstep.ne' tried, ?_⟩, d, hd, ?_⟩
    · exact high.imp not_le.2 And.right
    · exact mul_neg_of_neg_of_pos hneg (sub_pos.2 hq.lt)
  | uphill tried low slope steep uphill =>
    rw [not_or] at low
    have hpos := lt_of_le_of_ne uphill (ne_zero_of_steep hv hdown steep).symm
    refine ⟨known_of_tryStep hp hstep tried low.1, ⟨_, hq.known.value_eq, .inr ?_⟩, _,
      slopeAfter_eq_ok hp hw₀ hw hstep.ne' tried slope, ?_⟩
    · -- only the first trial is not compared with the one before, which is then the start
      cases first with
      | true =>
        rw [hq.value_eq rfl]
        exact (lt_value_of_low hv hdown hstep low.1).le
      | false => exact (not_le.1 fun hle => low.2 ⟨rfl, hle⟩).le
    · exact mul_neg_of_pos_of_neg hpos (sub_neg.2 hq.lt)

end Doubling

/-! ## Halving -/

namespace Bracket

/-- A step lies strictly between the ends, whichever is further along. -/
def Inside (b : Bracket K) (step : K) : Prop :=
  b.low < step ∧ step < b.high ∨ b.high < step ∧ step < b.low

theorem middle_sub_low (b : Bracket K) : b.middle - b.low = (b.high - b.low) / 2 := by
  rw [middle_eq]
  ring

theorem high_sub_middle (b : Bracket K) : b.high - b.middle = (b.high - b.low) / 2 := by
  rw [middle_eq]
  ring

theorem inside_middle (h : b.high - b.low ≠ 0) : b.Inside b.middle := by
  have hlow := b.middle_sub_low
  have hhigh := b.high_sub_middle
  rcases lt_or_gt_of_ne h with h | h
  · exact .inr ⟨by linarith, by linarith⟩
  · exact .inl ⟨by linarith, by linarith⟩

omit [IsStrictOrderedRing K] in
theorem Encloses.high_sub_low_ne (h : b.Encloses p params ray w₀) : b.high - b.low ≠ 0 := by
  obtain ⟨d, -, hneg⟩ := h.downhill
  exact right_ne_zero_of_mul hneg.ne

end Bracket

variable {b' : Bracket K}

theorem Halves.width_eq (h : Halves p params ray b w (.half b') w') :
    |b'.high - b'.low| = |b.high - b.low| / 2 := by
  have hhalf (x : K) : |x / 2| = |x| / 2 := by rw [abs_div, abs_two]
  cases h with
  | high => rw [← hhalf, ← b.middle_sub_low]
  | steep =>
    dsimp only
    split_ifs
    · rw [← hhalf, ← b.middle_sub_low, abs_sub_comm]
    · rw [← hhalf, ← b.high_sub_middle]

omit [IsStrictOrderedRing K] in
theorem Halves.lowValue_le (h : Halves p params ray b w (.half b') w') :
    b'.lowValue ≤ b.lowValue := by
  cases h with
  | high => exact le_rfl
  | steep tried low => exact (not_le.1 fun hle => low (.inr hle)).le

theorem Halves.encloses (hv : params.Valid) (hdown : ray.slope < 0) (hp : p.Pure Q)
    (hw₀ : Q w₀.cache) (hw : Q w.cache) (hmiddle : 0 < b.middle)
    (hb : b.Encloses p params ray w₀) (h : Halves p params ray b w (.half b') w') :
    b'.Encloses p params ray w₀ := by
  obtain ⟨value, hvalue, hhigh⟩ := hb.high
  cases h with
  | high tried high =>
    obtain ⟨d, hd, hneg⟩ := hb.downhill
    refine ⟨hb.low, ⟨_, valueAfter_eq_ok hp hmiddle.ne' tried, high.imp not_le.2 id⟩, d, hd, ?_⟩
    show d * (b.middle - b.low) < 0
    rw [b.middle_sub_low]
    linarith
  | @steep t _ d _ tried low slope steep =>
    rw [not_or, not_le] at low
    have hknown : Known p params ray w₀ b.middle t.value := known_of_tryStep hp hmiddle tried low.1
    have hslope := slopeAfter_eq_ok hp hw₀ hw hmiddle.ne' tried slope
    have hne : d * (b.high - b.low) ≠ 0 :=
      mul_ne_zero (ne_zero_of_steep hv hdown steep) hb.high_sub_low_ne
    by_cases hback : 0 ≤ d * (b.high - b.low)
    · -- the slope leads back, so that the ends change places
      have hpos := lt_of_le_of_ne hback hne.symm
      rw [if_pos hback]
      refine ⟨hknown, ⟨_, hb.low.value_eq, .inr low.2.le⟩, d, hslope, ?_⟩
      show d * (b.low - b.middle) < 0
      rw [← neg_sub, b.middle_sub_low]
      linarith
    · rw [if_neg hback]
      refine ⟨hknown, ⟨value, hvalue, hhigh.imp id low.2.le.trans⟩, d, hslope, ?_⟩
      show d * (b.high - b.middle) < 0
      rw [b.high_sub_middle]
      linarith

/-! ## A whole search -/

variable {q q' : Position K × Workspace K σ}

/-- **A trial that leads on keeps what is known of the position.** -/
theorem Moves.sound (hv : params.Valid) (hdown : ray.slope < 0) (hp : p.Pure Q)
    (hw₀ : Q w₀.cache) (hw : Q q.2.cache) (hforward : q.1.Forward)
    (hq : q.1.Sound p params ray w₀) (h : Moves p params ray q q') :
    q'.1.Sound p params ray w₀ := by
  cases h with
  | longer h => exact ascends_of_longer hp hw₀ hw hforward.2 h
  | bracketed h => exact hq.encloses hv hdown hp hw₀ hw hforward.2 h
  | half wide h =>
    have hmiddle := Bracket.middle_pos hv hforward.1 hforward.2 wide
    exact h.encloses hv hdown hp hw₀ hw hmiddle hq

theorem sound_of_moves (hv : params.Valid) (hdown : ray.slope < 0) (hp : p.Pure Q)
    (hw₀ : Q w₀.cache) (hw : Q q.2.cache) (hforward : q.1.Forward)
    (hq : q.1.Sound p params ray w₀) (h : ReflTransGen (Moves p params ray) q q') :
    q'.1.Sound p params ray w₀ := by
  induction h with
  | refl => exact hq
  | tail hmoves hmove ih =>
    have htry := keeps_tryStep hp.partsKeep.evaluate hp.partsKeep.trials ray
    have hcache := keeps_of_moves htry (keeps_slopeAt hp.partsKeep.differential ray) hmoves hw
    exact hmove.sound hv hdown hp hw₀ hcache (forward_of_moves hv hmoves hforward) ih

omit [IsStrictOrderedRing K] in
/-- A search starts from a step that is known, the one that leads nowhere. -/
theorem ascends_start (hv : params.Valid) (hdown : ray.slope < 0) :
    Ascends p params ray w₀ true 0 ray.value params.firstStep where
  known := by
    refine ⟨valueAfter_zero, ?_⟩
    show ray.value ≤ ray.value + params.c1 * 0 * ray.slope
    rw [mul_zero, zero_mul, add_zero]
  downhill := ⟨ray.slope, slopeAfter_zero, hdown⟩
  lt := hv.firstStep_pos
  value_eq _ := rfl

/-- **The bracket at the start of every halving encloses low enough values**, and halving keeps
this. -/
theorem search_encloses {gradient : Vec K} {budget : Nat} (hv : params.validate = .ok ())
    (hp : p.Pure Q) (hw : Q w.cache)
    (hslope : p.manifold.inner ray.point gradient ray.direction = .ok ray.slope)
    (hdown : ray.slope < 0)
    (hcalls : ReflTransGen (Calls p params ray)
      (Stage.start params ray.value, { w with trials := 0 }) (⟨budget, .halving b⟩, w')) :
    search p params ray.point ray.value gradient ray.direction w =
        halving p params ray budget b w' ∧
      b.Encloses p params ray w ∧
      ∀ budget' b' w'',
        Calls p params ray (⟨budget, .halving b⟩, w') (⟨budget', .halving b'⟩, w'') →
        (∃ t w₁, tryStep p ray b.middle w' = (.ok t, w₁)) ∧ b.Inside b.middle ∧
          |b'.high - b'.low| = |b.high - b.low| / 2 ∧ b'.lowValue ≤ b.lowValue := by
  have hvalid := SearchParams.valid_of_validate hv
  have hforward : (Stage.start params ray.value).position.Forward :=
    ⟨le_rfl, hvalid.firstStep_pos⟩
  have hstart : (Stage.start params ray.value).position.Sound p params ray w :=
    ascends_start hvalid hdown
  have hsound : b.Encloses p params ray w :=
    sound_of_moves hvalid hdown hp hw hw hforward hstart (moves_of_calls hcalls)
  refine ⟨(search_eq_run hslope (not_le.2 hdown)).trans (run_eq_of_calls hcalls), hsound, ?_⟩
  intro budget' b' w'' hcall
  cases hcall.moves with
  | half wide h =>
    refine ⟨?_, Bracket.inside_middle hsound.high_sub_low_ne, h.width_eq, h.lowValue_le⟩
    cases h with
    | high tried => exact ⟨_, _, tried⟩
    | steep tried => exact ⟨_, _, tried⟩

/-! ## A search that halves -/

deriving instance DecidableEq for Trial, Bracket, Halved, Doubled

/-- From one towards the bottom of the bowl, and beyond. -/
def lineRay : Ray ℚ := ⟨[1], 1 / 2, -3, [-3]⟩

/-- The first step along the line. -/
def lineDoubled : Except (Fault (SolverError ℚ)) (Doubled ℚ) × Workspace ℚ Unit :=
  double Backtracking.lineBowl .strongWolfe lineRay true 0 (1 / 2)
    SearchParams.strongWolfe.firstStep { objective := () }

/-- The middle of the bracket that it ends. -/
def lineHalved : Except (Fault (SolverError ℚ)) (Halved ℚ) × Workspace ℚ Unit :=
  halve Backtracking.lineBowl .strongWolfe lineRay ⟨0, 1 / 2, 1⟩ lineDoubled.2

/-- The middle of the half that is left. -/
def lineHalvedAgain : Except (Fault (SolverError ℚ)) (Halved ℚ) × Workspace ℚ Unit :=
  halve Backtracking.lineBowl .strongWolfe lineRay ⟨1 / 2, 1 / 8, 0⟩ lineHalved.2

/-- The first step goes beyond the bottom, and so does half of it, where the slope leads back. -/
theorem search_encloses_lineRay :
    Bracket.Encloses Backtracking.lineBowl .strongWolfe lineRay { objective := () }
        ⟨1 / 2, 1 / 8, 0⟩ ∧
      Calls Backtracking.lineBowl .strongWolfe lineRay
        (⟨49, .halving ⟨1 / 2, 1 / 8, 0⟩⟩, lineHalved.2)
        (⟨48, .halving ⟨1 / 4, 1 / 32, 1 / 2⟩⟩, lineHalvedAgain.2) ∧
      |(1 / 2 - 1 / 4 : ℚ)| = |0 - 1 / 2| / 2 := by
  have hvalid : (SearchParams.strongWolfe : SearchParams ℚ).validate = .ok () :=
    eq_ok_of_yields (by decide +kernel)
  have hslope : Backtracking.lineBowl.manifold.inner lineRay.point [1] lineRay.direction =
      .ok lineRay.slope := eq_ok_of_yields (by decide +kernel)
  have hpure : Backtracking.lineBowl.Pure fun _ => True :=
    Problem.pure_flat ⟨1⟩ (Quadratic.simple 1).objective_steady
  have hdoubled : lineDoubled.1 = .ok (.bracketed ⟨0, 1 / 2, 1⟩) :=
    eq_ok_of_yields (by decide +kernel)
  have hhalved : lineHalved.1 = .ok (.half ⟨1 / 2, 1 / 8, 0⟩) :=
    eq_ok_of_yields (by decide +kernel)
  have hagain : lineHalvedAgain.1 = .ok (.half ⟨1 / 4, 1 / 32, 1 / 2⟩) :=
    eq_ok_of_yields (by decide +kernel)
  have hcalls : ReflTransGen (Calls Backtracking.lineBowl .strongWolfe lineRay)
      (Stage.start .strongWolfe (1 / 2), { objective := () })
      (⟨49, .halving ⟨1 / 2, 1 / 8, 0⟩⟩, lineHalved.2) :=
    .tail (.single (.bracketed (Prod.ext hdoubled rfl)))
      (.half (by decide +kernel) (Prod.ext hhalved rfl))
  have hnext : Calls Backtracking.lineBowl .strongWolfe lineRay
      (⟨49, .halving ⟨1 / 2, 1 / 8, 0⟩⟩, lineHalved.2)
      (⟨48, .halving ⟨1 / 4, 1 / 32, 1 / 2⟩⟩, lineHalvedAgain.2) :=
    .half (by decide +kernel) (Prod.ext hagain rfl)
  have hdown : lineRay.slope < 0 := by decide +kernel
  obtain ⟨-, hencloses, hstep⟩ := search_encloses (w := { objective := () }) hvalid hpure trivial
    hslope hdown hcalls
  obtain ⟨-, -, hwidth, -⟩ := hstep _ _ _ hnext
  exact ⟨hencloses, hnext, hwidth⟩

end GeodesicDescent.StrongWolfe
