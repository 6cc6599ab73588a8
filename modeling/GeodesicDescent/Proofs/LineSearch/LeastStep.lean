import GeodesicDescent.Proofs.LineSearch.StepBounds
import GeodesicDescent.Proofs.Vec

/-!
# When an accepted step is shorter than the least

A step that backtracking shortens is compared with the least step, the first one is not. The strong
Wolfe search compares the width of a bracket, and tries its middle. A pit on the line, closer to the
start than the least step, shows that there is nothing else that keeps a search from such a step.

* `pit`: the pit, and what a search finds there;
* `StrongWolfe.halving_pit`: halving a bracket from the start ends at the bottom;
* `StrongWolfe.search_pit`, `Backtracking.search_pit`: the searches that end there;
* **`SearchKind.search_step_bounds`**: the bounds for an accepted step, and when the least step is
  one of them;
* `SearchKind.accepts_shorter`: steps that are accepted and shorter than the least.
-/

namespace GeodesicDescent

open Stateful

variable {K : Type} [Field K] [LinearOrder K] [Elementary K] [Tolerances K]
variable {params : SearchParams K}

/-! ## A pit on the line -/

/-- A value below zero at one step along the line, zero at all others. -/
def Objective.pit (bottom : K) : Objective K Unit where
  eval x := return if x = [bottom] then -bottom else 0
  evalWithGradient x := return (if x = [bottom] then -bottom else 0, [if x = [0] then -1 else 0])

/-- The pit on the line. -/
def pit (bottom : K) : Problem K Unit where
  objective := .pit bottom
  manifold := Flat.manifold ⟨1⟩
  usage := .firstOrder

section Pit

variable {bottom step : K} {w : Workspace K Unit}

theorem trialPoint_pit : (pit bottom).trialPoint [0] [1] step w = (.ok [step], w) := by
  refine Problem.trialPoint_eq_ok.2 ⟨?_, rfl⟩
  show Except.ok [0 + 1 * step] = Except.ok [step]
  rw [one_mul, zero_add]

omit [Field K] [LinearOrder K] [Elementary K] [Tolerances K] in
theorem singleton_eq (x y : K) : ([x] = [y]) = (x = y) := propext List.singleton_inj

theorem eval_pit (x : K) : (Searching.ofEval ((pit bottom).objective.eval [x]) :
    Searching K Unit K) w = (.ok (if x = bottom then -bottom else 0), w) := by
  simp only [← singleton_eq x]
  rfl

theorem evaluate_pit (x : K) : (pit bottom).evaluate [x] w =
    (.ok (if x = bottom then -bottom else 0, [if x = 0 then -1 else 0]), w) := by
  simp only [← singleton_eq x]
  exact Problem.evaluate_eq_ok.2 ⟨_, (), w.cache, rfl, rfl, rfl⟩

theorem inner_pit (x : Vec K) (s t : K) : (pit bottom).manifold.inner x [s] [t] = .ok (s * t) := by
  show Except.ok (Vec.rawDot [s] [t]) = Except.ok (s * t)
  rw [Vec.rawDot_eq_sum_products]
  exact congrArg _ (add_zero _)

end Pit

namespace StrongWolfe

/-- From the start towards the pit. -/
def pitRay (K : Type) [Field K] : Ray K := ⟨[0], 0, -1, [1]⟩

variable [IsStrictOrderedRing K] {bottom step : K} {w : Workspace K Unit}

theorem insufficient_pit (hv : params.Valid) (hstep : 0 < step) (hne : step ≠ bottom) :
    insufficient params (pitRay K) step (if step = bottom then -bottom else 0) := by
  have hpos := mul_pos hv.c1_pos hstep
  show 0 + params.c1 * step * -1 < _
  rw [if_neg hne]
  linarith

theorem not_insufficient_pit (hv : params.Valid) (hbottom : 0 < bottom) :
    ¬ insufficient params (pitRay K) bottom (-bottom) := by
  have hshare := mul_le_of_le_one_left hbottom.le (hv.c1_lt_c2.trans hv.c2_lt_one).le
  show ¬ 0 + params.c1 * bottom * -1 < -bottom
  linarith

omit [IsStrictOrderedRing K] in
theorem tryStep_pit (hstep : 0 < step) : tryStep (pit bottom) (pitRay K) step w =
    (.ok ⟨step, [step], if step = bottom then -bottom else 0, [0]⟩,
      { w with trials := w.trials + 1 }) := by
  have hevaluate : (pit bottom).evaluate [step] w =
      (.ok (if step = bottom then -bottom else 0, [0]), w) := by
    rw [evaluate_pit, if_neg hstep.ne']
  exact tryStep_eq_ok.2 ⟨w, w, trialPoint_pit, hevaluate, rfl, rfl⟩

omit [IsStrictOrderedRing K] in
theorem slopeAt_pit {t : Trial K} (ht : t.gradient = [0]) :
    slopeAt (pit bottom) (pitRay K) t w = (.ok 0, w) := by
  refine bind_eq_ok.2 ⟨[1], w, Searching.ofCached_eq_ok.2 ⟨w.cache, rfl, rfl⟩,
    Searching.ofChecked_eq_ok.2 ⟨?_, rfl⟩⟩
  rw [ht, inner_pit, zero_mul]

theorem flatEnough_pit (hv : params.Valid) : flatEnough params (pitRay K) 0 := by
  have hshare := hv.c1_pos.trans hv.c1_lt_c2
  show |(0 : K)| ≤ -params.c2 * -1
  rw [abs_zero]
  linarith

theorem halve_pit_high (hv : params.Valid) {b : Bracket K} (hmiddle : 0 < b.middle)
    (hne : b.middle ≠ bottom) : halve (pit bottom) params (pitRay K) b w =
      (.ok (.half { b with high := b.middle }), { w with trials := w.trials + 1 }) := by
  refine bind_eq_ok.2 ⟨_, _, tryStep_pit hmiddle, ?_⟩
  rw [if_pos (.inl (insufficient_pit hv hmiddle hne))]
  rfl

/-- The trial at the bottom. -/
def bottomTrial (bottom : K) : Trial K := ⟨bottom, [bottom], -bottom, [0]⟩

omit [IsStrictOrderedRing K] in
theorem tryStep_pit_bottom (hbottom : 0 < bottom) : tryStep (pit bottom) (pitRay K) bottom w =
    (.ok (bottomTrial bottom), { w with trials := w.trials + 1 }) := by
  rw [tryStep_pit hbottom, if_pos rfl]
  rfl

theorem halve_pit_bottom (hv : params.Valid) (hbottom : 0 < bottom) {b : Bracket K}
    (hlow : b.lowValue = 0) (hmiddle : b.middle = bottom) :
    halve (pit bottom) params (pitRay K) b w =
      (.ok (.accepted (bottomTrial bottom)), { w with trials := w.trials + 1 }) := by
  have hdeep : ¬ (insufficient params (pitRay K) bottom (bottomTrial bottom).value ∨
      b.lowValue ≤ (bottomTrial bottom).value) := by
    rw [not_or, hlow, not_le]
    exact ⟨not_insufficient_pit hv hbottom, neg_neg_of_pos hbottom⟩
  simp only [halve, ← Bracket.middle.eq_def, hmiddle]
  refine bind_eq_ok.2 ⟨_, _, tryStep_pit_bottom hbottom, ?_⟩
  rw [if_neg hdeep]
  refine bind_eq_ok.2 ⟨0, _, slopeAt_pit rfl, ?_⟩
  rw [if_pos (flatEnough_pit hv)]
  rfl

theorem double_pit_high (hv : params.Valid) {first : Bool} {previous previousValue : K}
    (hstep : 0 < step) (hne : step ≠ bottom) :
    double (pit bottom) params (pitRay K) first previous previousValue step w =
      (.ok (.bracketed ⟨previous, previousValue, step⟩), { w with trials := w.trials + 1 }) := by
  refine bind_eq_ok.2 ⟨_, _, tryStep_pit hstep, ?_⟩
  rw [if_pos (.inl (insufficient_pit hv hstep hne))]
  rfl

theorem double_pit_bottom (hv : params.Valid) (hbottom : 0 < bottom) {previous previousValue : K} :
    double (pit bottom) params (pitRay K) true previous previousValue bottom w =
      (.ok (.accepted (bottomTrial bottom)), { w with trials := w.trials + 1 }) := by
  have hdeep : ¬ (insufficient params (pitRay K) bottom (bottomTrial bottom).value ∨
      (true = false ∧ previousValue ≤ (bottomTrial bottom).value)) :=
    not_or.2 ⟨not_insufficient_pit hv hbottom, fun h => nomatch h.1⟩
  refine bind_eq_ok.2 ⟨_, _, tryStep_pit_bottom hbottom, ?_⟩
  rw [if_neg hdeep]
  refine bind_eq_ok.2 ⟨0, _, slopeAt_pit rfl, ?_⟩
  rw [if_pos (flatEnough_pit hv)]
  rfl

/-- A bracket from the start to a step that the bottom divides. -/
def pitBracket (bottom : K) (halvings : Nat) : Bracket K := ⟨0, 0, bottom * (2 ^ halvings : Nat)⟩

theorem middle_pitBracket (halvings : Nat) :
    (pitBracket bottom (halvings + 1)).middle = bottom * (2 ^ halvings : Nat) := by
  rw [Bracket.middle_eq, pitBracket, pow_succ, Nat.cast_mul, Nat.cast_ofNat, zero_add, ← mul_assoc]
  exact mul_div_cancel_right₀ _ two_ne_zero

theorem wide_pitBracket (hbottom : 0 < bottom) (hleast : params.minStep ≤ bottom * 2)
    (halvings : Nat) : ¬ Scalar.abs ((pitBracket bottom (halvings + 1)).high -
      (pitBracket bottom (halvings + 1)).low) < params.minStep := by
  have hfar := le_mul_two_pow (mul_pos hbottom two_pos) halvings
  show ¬ |bottom * (2 ^ (halvings + 1) : Nat) - 0| < params.minStep
  rw [sub_zero, pow_succ', Nat.cast_mul, Nat.cast_ofNat, ← mul_assoc,
    abs_of_nonneg (by positivity)]
  exact not_lt.2 (hleast.trans hfar)

theorem mul_two_pow_ne (hbottom : 0 < bottom) (n : Nat) :
    bottom * (2 ^ (n + 1) : Nat) ≠ bottom := by
  have hfar := le_mul_two_pow (mul_pos hbottom two_pos) n
  rw [pow_succ', Nat.cast_mul, Nat.cast_ofNat, ← mul_assoc]
  linarith

/-- Halving such a bracket ends at the bottom, if no bracket on the way is too narrow. -/
theorem halving_pit (hv : params.Valid) (hbottom : 0 < bottom)
    (hleast : params.minStep ≤ bottom * 2) {halvings budget : Nat} (hbudget : halvings < budget) :
    ∃ a w', halving (pit bottom) params (pitRay K) budget (pitBracket bottom (halvings + 1)) w =
      (.ok a, w') ∧ a.step = bottom := by
  induction halvings generalizing budget w with
  | zero =>
    obtain ⟨budget, rfl⟩ := Nat.exists_eq_add_one.2 hbudget
    have hmiddle : (pitBracket bottom (0 + 1)).middle = bottom := by
      rw [middle_pitBracket, pow_zero, Nat.cast_one, mul_one]
    rw [halving, if_neg (wide_pitBracket hbottom hleast 0)]
    exact ⟨_, _, bind_eq_ok.2 ⟨_, _, halve_pit_bottom hv hbottom rfl hmiddle, rfl⟩, rfl⟩
  | succ halvings ih =>
    obtain ⟨budget, rfl⟩ := Nat.exists_eq_add_one.2 (Nat.zero_lt_of_lt hbudget)
    have hmiddle : (pitBracket bottom (halvings + 1 + 1)).middle =
        bottom * (2 ^ (halvings + 1) : Nat) := middle_pitBracket _
    have hpos : 0 < (pitBracket bottom (halvings + 1 + 1)).middle := by
      rw [hmiddle]
      positivity
    have hne : (pitBracket bottom (halvings + 1 + 1)).middle ≠ bottom := by
      rw [hmiddle]
      exact mul_two_pow_ne hbottom halvings
    have hhalved := halve_pit_high (w := w) hv hpos hne
    rw [hmiddle] at hhalved
    obtain ⟨a, w', hrest, hstep⟩ := ih (w := { w with trials := w.trials + 1 })
      (Nat.lt_of_succ_lt_succ hbudget)
    rw [halving, if_neg (wide_pitBracket hbottom hleast _)]
    exact ⟨a, w', bind_eq_ok.2 ⟨_, _, hhalved, hrest⟩, hstep⟩

theorem search_pit (hv : params.Valid) (hbottom : 0 < bottom) {halvings : Nat}
    (hfirst : params.firstStep = bottom * (2 ^ halvings : Nat))
    (hbudget : halvings ≤ params.maxIterations)
    (hleast : halvings ≠ 0 → params.minStep ≤ bottom * 2) :
    ∃ a w', search (pit bottom) params [0] 0 [-1] [1] w = (.ok a, w') ∧ a.step = bottom := by
  obtain ⟨budget, hiterations⟩ := Nat.exists_eq_add_one.2 hv.maxIterations_pos
  have hslope : (pit bottom).manifold.inner [0] [-1] [1] = .ok (-1) := by
    rw [inner_pit, mul_one]
  have hrun : search (pit bottom) params (pitRay K).point (pitRay K).value [-1]
      (pitRay K).direction w = _ := search_eq_run hslope (not_le.2 neg_one_lt_zero)
  rw [show search (pit bottom) params [0] 0 [-1] [1] w = _ from hrun, Stage.start, Stage.run,
    hiterations, doubling, hfirst]
  obtain _ | halvings := halvings
  · rw [pow_zero, Nat.cast_one, mul_one]
    exact ⟨_, _, bind_eq_ok.2 ⟨_, _, double_pit_bottom hv hbottom, rfl⟩, rfl⟩
  · have hpos : 0 < bottom * (2 ^ (halvings + 1) : Nat) := by positivity
    obtain ⟨a, w', hrest, hstep⟩ := halving_pit (w := { w with trials := 0 + 1 }) hv hbottom
      (hleast halvings.succ_ne_zero) (Nat.lt_of_succ_le hbudget)
    have hdoubled := mul_two_pow_ne hbottom halvings
    exact ⟨a, w', bind_eq_ok.2 ⟨_, _, double_pit_high hv hpos hdoubled, hrest⟩, hstep⟩

end StrongWolfe

namespace Backtracking

variable [IsStrictOrderedRing K] {bottom : K} {w : Workspace K Unit}

theorem search_pit (hv : params.Valid) (hbottom : 0 < bottom) (hfirst : params.firstStep = bottom) :
    ∃ a w', search (pit bottom) params [0] 0 [-1] [1] w = (.ok a, w') ∧ a.step = bottom := by
  obtain ⟨budget, hiterations⟩ := Nat.exists_eq_add_one.2 hv.maxIterations_pos
  have hslope : (pit bottom).downhillSlope [0] [-1] [1] w = (.ok (-1), w) :=
    Problem.downhillSlope_eq_ok.2 ⟨by rw [inner_pit, mul_one], not_le.2 neg_one_lt_zero, rfl⟩
  have hlow : -bottom ≤ 0 + params.c1 * bottom * -1 :=
    not_lt.1 (StrongWolfe.not_insufficient_pit hv hbottom)
  have htaken : trySteps (pit bottom) params [0] 0 (-1) [1] (budget + 1) 0 bottom w =
      (.ok ⟨bottom, [bottom], -bottom, [0], 2, 1⟩, w) := by
    refine bind_eq_ok.2 ⟨_, _, trialPoint_pit, bind_eq_ok.2 ⟨-bottom, w, ?_, ?_⟩⟩
    · rw [eval_pit, if_pos rfl]
    · rw [if_pos hlow]
      refine bind_eq_ok.2 ⟨(-bottom, [0]), w, ?_, rfl⟩
      rw [evaluate_pit, if_pos rfl, if_neg hbottom.ne']
  rw [← hiterations] at htaken
  subst hfirst
  exact ⟨_, _, bind_eq_ok.2 ⟨_, _, hslope, htaken⟩, rfl⟩

end Backtracking

/-! ## The bounds -/

namespace SearchKind

variable [IsStrictOrderedRing K]

/-- With any other parameters a search ends at the bottom of a pit that is closer than the least
step. -/
theorem exists_lt_minStep (hv : params.Valid) {kind : SearchKind}
    (hkeeps : ¬ kind.KeepsLeast params) (w : Workspace K Unit) : ∃ bottom a w', 0 < bottom ∧
      bottom < params.minStep ∧
      kind.search (pit bottom) params [0] 0 [-1] [1] w = (.ok a, w') ∧ a.step = bottom := by
  cases kind with
  | armijo =>
    have hshort : params.initialStep < params.minStep := not_le.1 hkeeps
    have hfirst : params.firstStep = params.initialStep := by
      rw [params.firstStep_eq, min_eq_left (hshort.trans hv.minStep_lt).le]
    obtain ⟨a, w', h⟩ := Backtracking.search_pit (w := w) hv hv.initialStep_pos hfirst
    exact ⟨_, a, w', hv.initialStep_pos, hshort, h⟩
  | strongWolfe =>
    -- as few halvings of the first step as lead below the least
    let short (n : Nat) : Prop := params.firstStep < params.minStep * (2 ^ n : Nat)
    have hex : ∃ n, short n := ⟨params.maxIterations, not_le.1 hkeeps⟩
    obtain ⟨n, hn, hmin⟩ : ∃ n, short n ∧ ∀ m, short m → n ≤ m :=
      ⟨Nat.find hex, Nat.find_spec hex, fun m hm => Nat.find_min' hex hm⟩
    have hpower : (0 : K) < (2 ^ n : Nat) := by positivity
    have hbottom : 0 < params.firstStep / (2 ^ n : Nat) := div_pos hv.firstStep_pos hpower
    have hfirst : params.firstStep = params.firstStep / (2 ^ n : Nat) * (2 ^ n : Nat) :=
      (div_mul_cancel₀ _ hpower.ne').symm
    have hleast (hne : n ≠ 0) : params.minStep ≤ params.firstStep / (2 ^ n : Nat) * 2 := by
      obtain ⟨m, rfl⟩ := Nat.exists_eq_add_one.2 (Nat.pos_of_ne_zero hne)
      have hlong : params.minStep * (2 ^ m : Nat) ≤ params.firstStep :=
        not_lt.1 fun hm => absurd (hmin m hm) (Nat.not_succ_le_self m)
      rw [pow_succ, Nat.cast_mul, Nat.cast_ofNat, ← div_div, div_mul_cancel₀ _ two_ne_zero]
      exact (le_div_iff₀ (by positivity)).2 hlong
    obtain ⟨a, w', h⟩ := StrongWolfe.search_pit (w := w) hv hbottom hfirst
      (hmin _ (not_le.1 hkeeps)) hleast
    exact ⟨_, a, w', hbottom, (div_lt_iff₀ hpower).2 hn, h⟩

end SearchKind

/-- **How long an accepted step is**, and for which parameters the least step is a bound. -/
theorem SearchKind.search_step_bounds [IsStrictOrderedRing K] (kind : SearchKind)
    (hv : params.validate = .ok ()) :
    (∀ {σ : Type} (p : Problem K σ) (point : Vec K) (value : K) (gradient direction : Vec K)
      (w w' : Workspace K σ) (a : Accepted K),
      kind.search p params point value gradient direction w = (.ok a, w') →
      a.step ≤ params.maxStep ∧ min params.initialStep (params.minStep / 2) ≤ a.step ∧
        (kind.KeepsLeast params → params.minStep ≤ a.step)) ∧
    (¬ kind.KeepsLeast params → ∃ (p : Problem K Unit) (point : Vec K) (value : K)
      (gradient direction : Vec K) (w w' : Workspace K Unit) (a : Accepted K),
      p.evaluate point w = (.ok (value, gradient), w) ∧
      kind.search p params point value gradient direction w = (.ok a, w') ∧
      a.step < params.minStep) := by
  have hvalid := SearchParams.valid_of_validate hv
  refine ⟨fun p point value gradient direction w w' a h => ?_, fun hkeeps => ?_⟩
  · exact ⟨step_le_maxStep hvalid h, least_le_step hvalid h,
      fun hkeeps => minStep_le_step hvalid hkeeps h⟩
  · obtain ⟨bottom, a, w', hbottom, hshort, found, hstep⟩ :=
      exists_lt_minStep hvalid hkeeps { objective := () }
    have hstart : (pit bottom).evaluate [0] { objective := () } =
        (.ok (0, [-1]), { objective := () }) := by
      rw [evaluate_pit, if_neg hbottom.ne, if_pos rfl]
    exact ⟨pit bottom, [0], 0, [-1], [1], _, w', a, hstart, found, hstep.trans_lt hshort⟩

/-- Two halvings at most, which do not lead from the first step below the least. -/
def SearchParams.twoHalvings : SearchParams ℚ :=
  { strongWolfe with minStep := 1 / 8, maxIterations := 2 }

theorem SearchKind.search_step_bounds_lineBowl : ∃ a w',
    SearchKind.strongWolfe.search Backtracking.lineBowl .twoHalvings [1] (1 / 2) [1] [-2]
      { objective := () } = (.ok a, w') ∧ a.step = 1 / 2 ∧ 1 / 8 ≤ a.step ∧ a.step ≤ 10 := by
  have hv : SearchParams.twoHalvings.validate = .ok () := eq_ok_of_yields (by decide +kernel)
  have hkeeps : SearchKind.strongWolfe.KeepsLeast SearchParams.twoHalvings := by
    show (1 / 8 : ℚ) * (2 ^ 2 : Nat) ≤ SearchParams.firstStep _
    decide +kernel
  obtain ⟨a, w', found, hstep⟩ := exists_of_yields
    (x := SearchKind.strongWolfe.search Backtracking.lineBowl .twoHalvings [1] (1 / 2) [1] [-2]
      { objective := () }) (P := fun a => a.step = 1 / 2) (by decide +kernel)
  obtain ⟨hle, -, hleast⟩ :=
    (SearchKind.search_step_bounds .strongWolfe hv).1 _ _ _ _ _ _ _ _ found
  exact ⟨a, w', found, hstep, hleast hkeeps, hle.trans_eq (by decide +kernel)⟩

/-- A first step that is shorter than the least. -/
def SearchParams.shortFirst : SearchParams ℚ :=
  { backtracking with initialStep := 1 / 4, minStep := 1 / 2, maxStep := 1 }

/-- A least step that half the first one is shorter than. -/
def SearchParams.longLeast : SearchParams ℚ := { strongWolfe with minStep := 3 / 4 }

/-- **Steps that are accepted and shorter than the least**, by either search. -/
theorem SearchKind.accepts_shorter :
    SearchParams.shortFirst.validate = .ok () ∧ SearchParams.longLeast.validate = .ok () ∧
    Backtracking.lineBowl.evaluate [1] { objective := () } =
      (.ok (1 / 2, [1]), { objective := () }) ∧
    (∃ a w', SearchKind.armijo.search Backtracking.lineBowl .shortFirst [1] (1 / 2) [1] [-1]
      { objective := () } = (.ok a, w') ∧ a.step < SearchParams.shortFirst.minStep) ∧
    ∃ a w', SearchKind.strongWolfe.search Backtracking.lineBowl .longLeast [1] (1 / 2) [1] [-2]
      { objective := () } = (.ok a, w') ∧ a.step < SearchParams.longLeast.minStep := by
  refine ⟨eq_ok_of_yields (by decide +kernel), eq_ok_of_yields (by decide +kernel), ?_,
    exists_of_yields (by decide +kernel), exists_of_yields (by decide +kernel)⟩
  refine Problem.evaluate_eq_ok.2 ⟨[1], (), {}, ?_, rfl, rfl⟩
  exact Prod.ext (eq_ok_of_yields (by decide +kernel)) rfl

end GeodesicDescent
