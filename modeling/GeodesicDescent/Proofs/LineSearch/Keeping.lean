import GeodesicDescent.Proofs.LineSearch.Workspace
import GeodesicDescent.Solver.Run

/-!
# What is known along a search

A search only writes its workspace by evaluating, by counting trials and by reporting. What is known
of the workspace after so many inquiries is handed on from each of these to the next. This module
goes through a search once; what a search keeps, costs, tells and refuses is read off its end.

* `SearchKind.budget`, `SearchKind.Spends`: how often a search asks, and for what;
* `Searching.Relays`: a part of a search that faults only where the geometry or the objective does;
* **`Problem.Accounts`**: what is known of the workspace after so many inquiries;
* `SearchKind.Settled`, `SearchKind.Unsettled`: what is known where a step is accepted, and where a
  search faults;
* `Backtracking.ensures_trySteps`, `StrongWolfe.ensures_doubling`: the loops of either search;
* **`SearchKind.ensures_descend`**, `SearchKind.ensures_search`: a search after the test of its
  direction, and with it;
* `SearchKind.search_snd`: what the end of a search shows, however it ends;
* `Problem.PartsKeep`, **`SearchKind.keeps_search`**: what the parts of a search keep, it keeps.
-/

namespace GeodesicDescent

open Stateful

variable {K σ α β : Type}

/-! ## How often a search asks -/

namespace SearchKind

/-- The most evaluations that a search makes which may try so many steps. -/
def budget (kind : SearchKind) (tries : Nat) : Nat :=
  match kind with
  | .armijo => tries + 1
  | .strongWolfe => 2 * tries

variable (kind : SearchKind)

/-- Of the evaluations of a search that finds no step, those with gradients. -/
def gradientsAmong (trials : Nat) : Nat :=
  match kind with
  | .armijo => 0
  | .strongWolfe => trials

/-- Of the evaluations of a search that finds no step, those without. -/
def valuesAmong (trials : Nat) : Nat :=
  match kind with
  | .armijo => trials
  | .strongWolfe => 0

theorem valuesAmong_add_gradientsAmong (trials : Nat) :
    kind.valuesAmong trials + kind.gradientsAmong trials = trials := by
  cases kind with
  | armijo => rfl
  | strongWolfe => exact Nat.zero_add trials

/-- How a search that accepts a step evaluated: backtracking asked for a gradient once, and the
strong Wolfe search with every value. -/
def Spends (values gradients : Nat) : Prop :=
  match kind with
  | .armijo => gradients = 1
  | .strongWolfe => values = 0

end SearchKind

/-! ## Parts that relay faults -/

namespace Searching

/-- The computation faults only where the geometry or the objective does. -/
def Relays (m : Searching K σ α) : Prop :=
  ∀ w e w', m w = (.error e, w') → ∃ fault, e = Fault.map .geometry fault

variable {m : Searching K σ α}

theorem relays_pure (a : α) : Relays (pure a : Searching K σ α) := fun _ _ _ h => nomatch h

theorem exists_of_seen_error {r : Checked α} {e : Fault (SolverError K)}
    (h : r.mapError (Fault.map .geometry) = .error e) : ∃ fault, e = Fault.map .geometry fault := by
  cases r with
  | ok a => cases h
  | error fault => exact ⟨fault, (Except.error.inj h).symm⟩

theorem relays_ofChecked (m : Checked α) : Relays (ofChecked m : Searching K σ α) :=
  fun _ _ _ h => exists_of_seen_error (congrArg Prod.fst h)

theorem relays_ofCached (m : Cached K α) : Relays (ofCached m : Searching K σ α) :=
  fun _ _ _ h => exists_of_seen_error (congrArg Prod.fst h)

theorem relays_ofEval (m : Eval σ α) : Relays (ofEval m : Searching K σ α) :=
  fun _ _ _ h => exists_of_seen_error (congrArg Prod.fst h)

theorem Relays.bind {f : α → Searching K σ β} (hm : Relays m) (hf : ∀ a, Relays (f a)) :
    Relays (m >>= f) := by
  intro w e w' h
  obtain h | ⟨a, t, -, h⟩ := bind_eq_error.1 h
  · exact hm w e w' h
  · exact hf a t e w' h

theorem Relays.ensures {P Q : Workspace K σ → Prop}
    {E : Fault (SolverError K) → Workspace K σ → Prop} (hm : Relays m)
    (hQ : ∀ w, P w → Q (m w).2) (hE : ∀ fault w, Q w → E (Fault.map .geometry fault) w) :
    Ensures P m (fun _ => Q) E := by
  intro w hw
  have hw' := hQ w hw
  rcases h : m w with ⟨e | a, w'⟩
  all_goals rw [h] at hw'
  · obtain ⟨fault, rfl⟩ := hm w e w' h
    exact hE fault w' hw'
  · exact hw'

theorem keeps_ofChecked {P : Workspace K σ → Prop} (m : Checked α) :
    Keeps P (ofChecked m : Searching K σ α) := fun _ hw => hw

end Searching

open Searching

variable [Scalar K]

namespace Problem

variable {p : Problem K σ}

theorem relays_evaluate (x : Vec K) : Relays (p.evaluate x) :=
  (relays_ofEval _).bind fun _ => (relays_ofCached _).bind fun _ => relays_pure _

theorem evaluate_snd (x : Vec K) (w : Workspace K σ) : ∃ c, (p.evaluate x w).2 = { w with
    objective := (p.objective.evalWithGradient x w.objective).2
    cache := c } := by
  unfold evaluate ofEval
  rw [bind_apply]
  rcases p.objective.evalWithGradient x w.objective with ⟨fault | ⟨value, ambient⟩, o⟩
  · exact ⟨w.cache, rfl⟩
  · dsimp only [Except.mapError]
    rw [bind_pure_snd]
    exact ⟨(p.manifold.convertGradient x ambient p.usage w.cache).2, rfl⟩

theorem keeps_evaluate {P : Workspace K σ → Prop}
    (hP : ∀ w o c, P w → P { w with objective := o, cache := c }) (x : Vec K) :
    Keeps P (p.evaluate x) := by
  intro w hw
  obtain ⟨c, hc⟩ := evaluate_snd (p := p) x w
  rw [hc]
  exact hP w _ c hw

end Problem

/-! ## What is known after so many inquiries -/

/-- What is known of the workspace of a search: `A n m` after `n` inquiries for a value alone and
then `m` for a value with its gradient, whatever they end in. -/
structure Problem.Accounts (p : Problem K σ) (A : Nat → Nat → Workspace K σ → Prop) : Prop where
  eval : ∀ {n w} x, A n 0 w → A (n + 1) 0 (Searching.ofEval (p.objective.eval x) w).2
  evaluate : ∀ {n m w} x, A n m w → A n (m + 1) (p.evaluate x w).2
  differential : ∀ {n m w} x η y ξ, A n m w →
    A n m (Searching.ofCached (p.manifold.differential x η y ξ true) w).2
  trials : ∀ {n m w} tries, A n m w → A n m { w with trials := tries }
  report : ∀ {n m w} step, A n m w →
    A n m { w with trace := w.trace.push (StrongWolfe.reachedMaximum step) }

theorem Problem.accounts_nothing (p : Problem K σ) : p.Accounts fun _ _ _ => True where
  eval _ h := h
  evaluate _ h := h
  differential _ _ _ _ h := h
  trials _ h := h
  report _ h := h

namespace SearchKind

/-- What is known where a search accepts a step: the step tells of all inquiries, and there were no
more than the budget. -/
structure Settled (kind : SearchKind) (params : SearchParams K)
    (A : Nat → Nat → Workspace K σ → Prop) (a : Accepted K) (w : Workspace K σ) : Prop where
  told : ∃ values, A values a.gradientEvaluations w ∧
    a.functionEvaluations = values + a.gradientEvaluations ∧
    kind.Spends values a.gradientEvaluations
  within : a.functionEvaluations ≤ kind.budget params.maxIterations

/-- What is known where a search faults after the test of its direction. -/
inductive Unsettled (kind : SearchKind) (params : SearchParams K)
    (A : Nat → Nat → Workspace K σ → Prop) : Fault (SolverError K) → Workspace K σ → Prop
  /-- The geometry or the objective refused something. -/
  | relayed {n m w} (fault) (known : A n m w) (within : n + m ≤ kind.budget params.maxIterations) :
    Unsettled kind params A (Fault.map .geometry fault) w
  /-- No step was found, and the fault tells of all inquiries. -/
  | failed {tried w} (reason step value)
    (known : A (kind.valuesAmong tried) (kind.gradientsAmong tried) w)
    (within : tried ≤ kind.budget params.maxIterations)
    (pos : 0 < params.maxIterations → 0 < tried) :
    Unsettled kind params A (.refused (.lineSearchFailed reason tried step value)) w

end SearchKind

variable {p : Problem K σ} {params : SearchParams K} {A : Nat → Nat → Workspace K σ → Prop}

/-! ## Backtracking -/

namespace Backtracking

variable {point direction : Vec K} {value slope : K}

theorem ensures_trySteps (h : p.Accounts A) {budget tried : Nat} {step : K}
    (hbudget : tried + budget ≤ params.maxIterations)
    (hpos : 0 < params.maxIterations → 0 < budget ∨ 0 < tried) :
    Ensures (A tried 0) (trySteps p params point value slope direction budget tried step)
      (SearchKind.armijo.Settled params A) (SearchKind.armijo.Unsettled params A) := by
  induction budget generalizing tried step with
  | zero =>
    exact ensures_throw fun w hw => .failed _ _ _ hw (Nat.le_succ_of_le hbudget)
      fun h => (hpos h).resolve_left (Nat.lt_irrefl 0)
  | succ budget ih =>
    have hnext : tried + 1 + budget ≤ params.maxIterations := by omega
    have hfault {n m : Nat} (hle : n + m ≤ tried + 2) (fault) (w) (hw : A n m w) :
        SearchKind.armijo.Unsettled params A (Fault.map .geometry fault) w :=
      .relayed fault hw (show n + m ≤ params.maxIterations + 1 by omega)
    refine ensures_bind ((relays_ofChecked _).ensures (fun _ hw => hw) (hfault (by omega)))
      fun x => ?_
    refine ensures_bind ((relays_ofEval _).ensures (fun _ => h.eval x) (hfault (by omega)))
      fun v => ?_
    refine ensures_ite ?_ (ensures_ite (ensures_throw fun w hw => ?_)
      (ih hnext fun _ => .inr tried.succ_pos))
    · refine ensures_bind ((Problem.relays_evaluate x).ensures (fun _ => h.evaluate x)
        (hfault (by omega))) fun _ => ensures_pure fun w hw => ?_
      exact ⟨⟨tried + 1, hw, rfl, rfl⟩, show tried + 2 ≤ params.maxIterations + 1 by omega⟩
    · exact .failed _ _ _ hw (show tried + 1 ≤ params.maxIterations + 1 by omega)
        fun _ => tried.succ_pos

end Backtracking

/-! ## The strong Wolfe search -/

namespace StrongWolfe

variable {ray : Ray K}

section OneTrial

variable {P Q R : Workspace K σ → Prop} {E : Fault (SolverError K) → Workspace K σ → Prop}

theorem ensures_tryStep (hfault : ∀ fault w, P w → E (Fault.map .geometry fault) w)
    (hevaluate : ∀ x, Ensures P (p.evaluate x) (fun _ => Q) E)
    (htrials : ∀ w, Q w → R { w with trials := w.trials + 1 }) (step : K) :
    Ensures P (tryStep p ray step) (fun _ => R) E := by
  refine ensures_bind ((relays_ofChecked _).ensures (fun _ hw => hw) hfault) fun x => ?_
  refine ensures_bind (hevaluate x) fun _ => ?_
  exact ensures_bind (Q := fun _ => R) (ensures_modify htrials) fun _ => ensures_pure fun _ hw => hw

theorem ensures_slopeAt (hfault : ∀ fault w, P w → E (Fault.map .geometry fault) w)
    (hmove : ∀ x η y ξ w, P w → P (ofCached (p.manifold.differential x η y ξ true) w).2)
    (t : Trial K) : Ensures P (slopeAt p ray t) (fun _ => P) E :=
  ensures_bind ((relays_ofCached _).ensures (hmove _ _ _ _) hfault) fun _ =>
    (relays_ofChecked _).ensures (fun _ hw => hw) hfault

variable (htry : ∀ step, Ensures P (tryStep p ray step) (fun _ => Q) E)
variable (hslope : ∀ t, Ensures Q (slopeAt p ray t) (fun _ => Q) E)
include htry hslope

/-- To halve a bracket is to make one trial, and to look at the slope there at most. -/
theorem ensures_halve (b : Bracket K) : Ensures P (halve p params ray b) (fun _ => Q) E := by
  refine ensures_bind (htry _) fun t => ensures_ite (ensures_pure fun _ h => h) ?_
  refine ensures_bind (hslope t) fun _ => ?_
  exact ensures_ite (ensures_pure fun _ h => h) (ensures_pure fun _ h => h)

theorem ensures_double
    (hreport : ∀ w step, Q w → Q { w with trace := w.trace.push (reachedMaximum step) })
    (first : Bool) (previous previousValue step : K) :
    Ensures P (double p params ray first previous previousValue step) (fun _ => Q) E := by
  have hsame (r : Doubled K) : Ensures Q (pure r) (fun _ => Q) E := ensures_pure fun _ h => h
  refine ensures_bind (htry _) fun t => ensures_ite (hsame _) ?_
  refine ensures_bind (hslope t) fun _ => ensures_ite (hsame _) (ensures_ite (hsame _) ?_)
  refine ensures_ite ?_ (hsame _)
  exact ensures_bind (Q := fun _ => Q) (ensures_modify fun w => hreport w _) fun _ => hsame _

end OneTrial

/-- What is known after so many trials, which the workspace counts. -/
def After (A : Nat → Nat → Workspace K σ → Prop) (m : Nat) (w : Workspace K σ) : Prop :=
  w.trials = m ∧ A 0 m w

variable {m : Nat}

theorem After.relayed (hm : m ≤ 2 * params.maxIterations) (fault) (w : Workspace K σ)
    (hw : After A m w) :
    SearchKind.strongWolfe.Unsettled params A (Fault.map .geometry fault) w :=
  .relayed fault hw.2 (show 0 + m ≤ 2 * params.maxIterations by omega)

variable (h : p.Accounts A)
include h

theorem ensures_trial (hm : m < 2 * params.maxIterations) (step : K) :
    Ensures (After A m) (tryStep p ray step) (fun _ => After A (m + 1))
      (SearchKind.strongWolfe.Unsettled params A) := by
  have hevaluate (x : Vec K) : Ensures (After A m) (p.evaluate x)
      (fun _ w => w.trials = m ∧ A 0 (m + 1) w) (SearchKind.strongWolfe.Unsettled params A) := by
    refine (Problem.relays_evaluate x).ensures (fun w hw => ⟨?_, h.evaluate x hw.2⟩)
      fun fault w hw => .relayed fault hw.2 (show 0 + (m + 1) ≤ 2 * params.maxIterations by omega)
    exact Problem.keeps_evaluate (P := fun w => w.trials = m) (fun _ _ _ hw => hw) x w hw.1
  exact ensures_tryStep (After.relayed (Nat.le_of_lt hm)) hevaluate
    (fun w hw => ⟨congrArg (· + 1) hw.1, h.trials _ hw.2⟩) step

theorem ensures_slope (hm : m ≤ 2 * params.maxIterations) (t : Trial K) :
    Ensures (After A m) (slopeAt p ray t) (fun _ => After A m)
      (SearchKind.strongWolfe.Unsettled params A) :=
  ensures_slopeAt (After.relayed hm) (fun x η y ξ _ hw => ⟨hw.1, h.differential x η y ξ hw.2⟩) t

omit h in
theorem ensures_take (hm : m ≤ 2 * params.maxIterations) (t : Trial K) :
    Ensures (After A m) (take t : Searching K σ (Accepted K))
      (SearchKind.strongWolfe.Settled params A) (SearchKind.strongWolfe.Unsettled params A) := by
  rintro w ⟨rfl, hw⟩
  exact ⟨⟨0, hw, (Nat.zero_add _).symm, rfl⟩, hm⟩

omit h in
theorem ensures_fail (hm : m ≤ 2 * params.maxIterations) (hpos : 0 < params.maxIterations → 0 < m)
    {reason : String} {step : K} :
    Ensures (After A m) (fail ray reason step : Searching K σ (Accepted K))
      (SearchKind.strongWolfe.Settled params A) (SearchKind.strongWolfe.Unsettled params A) := by
  rintro w ⟨rfl, hw⟩
  exact .failed reason step ray.value hw hm hpos

theorem ensures_halving {budget : Nat} (hbudget : m + budget ≤ 2 * params.maxIterations)
    (hpos : 0 < m) (b : Bracket K) :
    Ensures (After A m) (halving p params ray budget b) (SearchKind.strongWolfe.Settled params A)
      (SearchKind.strongWolfe.Unsettled params A) := by
  induction budget generalizing b m with
  | zero => exact ensures_fail hbudget fun _ => hpos
  | succ budget ih =>
    have hm : m < 2 * params.maxIterations := by omega
    refine ensures_ite (ensures_fail (Nat.le_of_lt hm) fun _ => hpos)
      (ensures_bind (ensures_halve (ensures_trial h hm) (ensures_slope h hm) b) fun r => ?_)
    cases r with
    | accepted t => exact ensures_take hm t
    | half b' => exact ih (by omega) m.succ_pos b'

theorem ensures_doubling {budget : Nat} (hbudget : m + budget ≤ params.maxIterations)
    (hpos : 0 < params.maxIterations → 0 < budget ∨ 0 < m) (first : Bool)
    (previous previousValue step : K) : Ensures (After A m)
      (doubling p params ray budget first previous previousValue step)
      (SearchKind.strongWolfe.Settled params A) (SearchKind.strongWolfe.Unsettled params A) := by
  induction budget generalizing first previous previousValue step m with
  | zero =>
    exact ensures_fail (by omega) fun hK => (hpos hK).resolve_left (Nat.lt_irrefl 0)
  | succ budget ih =>
    have hm : m < 2 * params.maxIterations := by omega
    refine ensures_bind (ensures_double (ensures_trial h hm) (ensures_slope h hm)
      (fun w step hw => ⟨hw.1, h.report step hw.2⟩) first previous previousValue step) fun r => ?_
    cases r with
    | accepted t => exact ensures_take hm t
    | bracketed b => exact ensures_halving h (by omega) m.succ_pos b
    | longer t => exact ih (by omega) (fun _ => .inr m.succ_pos) _ _ _ _

end StrongWolfe

/-! ## A whole search -/

theorem Problem.ensures_downhillSlope {P : Workspace K σ → Prop}
    {E : Fault (SolverError K) → Workspace K σ → Prop} {point gradient direction : Vec K}
    (hfault : ∀ fault w, P w → E (Fault.map .geometry fault) w)
    (huphill : ∀ w, P w → E (.refused .invalidDirection) w) :
    Ensures P (p.downhillSlope point gradient direction) (fun _ => P) E := by
  refine ensures_bind ((relays_ofChecked _).ensures (fun _ hw => hw) hfault) fun slope => ?_
  refine ensures_ite ?_ (ensures_pure fun _ hw => hw)
  exact ensures_bind (ensures_throw huphill) fun _ => ensures_pure fun _ hw => hw

namespace SearchKind

/-- A search along a direction whose slope is known to lead downhill. -/
def descend (kind : SearchKind) (p : Problem K σ) (params : SearchParams K) (point : Vec K)
    (value : K) (direction : Vec K) (slope : K) : Searching K σ (Accepted K) :=
  match kind with
  | .armijo =>
    Backtracking.trySteps p params point value slope direction params.maxIterations 0
      params.firstStep
  | .strongWolfe => do
    modify fun w => { w with trials := 0 }
    StrongWolfe.doubling p params { point, value, slope, direction } params.maxIterations true 0
      value params.firstStep

variable {kind : SearchKind} {point gradient direction : Vec K} {value : K}

theorem search_eq : kind.search p params point value gradient direction =
    p.downhillSlope point gradient direction >>= kind.descend p params point value direction := by
  cases kind <;> rfl

/-- **What is known at the end of a search after the test of its direction.** -/
theorem ensures_descend (h : p.Accounts A) (slope : K) :
    Ensures (A 0 0) (kind.descend p params point value direction slope) (kind.Settled params A)
      (kind.Unsettled params A) := by
  cases kind with
  | armijo => exact Backtracking.ensures_trySteps h (Nat.le_of_eq (Nat.zero_add _)) .inl
  | strongWolfe =>
    refine ensures_bind (Q := fun _ => StrongWolfe.After A 0)
      (ensures_modify fun w hw => ⟨rfl, h.trials 0 hw⟩) fun _ => ?_
    exact StrongWolfe.ensures_doubling h (Nat.le_of_eq (Nat.zero_add _)) .inl _ _ _ _

theorem ensures_search {E : Fault (SolverError K) → Workspace K σ → Prop} (h : p.Accounts A)
    (hE : ∀ e w, kind.Unsettled params A e w → E e w)
    (huphill : ∀ w, A 0 0 w → E (.refused .invalidDirection) w) :
    Ensures (A 0 0) (kind.search p params point value gradient direction) (kind.Settled params A)
      E := by
  rw [search_eq]
  refine ensures_bind (Problem.ensures_downhillSlope (fun fault w hw => ?_) huphill) fun slope =>
    (ensures_descend h slope).mono (fun _ _ hw => hw) hE
  exact hE _ _ (.relayed fault hw (Nat.zero_le _))

/-- What all that may be known along a search shows, its end shows, however the search ends. -/
theorem search_snd {R : Workspace K σ → Prop} {w : Workspace K σ} (h : p.Accounts A)
    (hR : ∀ n m w', n + m ≤ kind.budget params.maxIterations → A n m w' → R w') (hw : A 0 0 w) :
    R (kind.search p params point value gradient direction w).2 := by
  have hend : Ensures (A 0 0) (kind.search p params point value gradient direction)
      (kind.Settled params A) fun _ => R := by
    refine ensures_search h (fun e w' hfault => ?_) fun w' hw' => hR 0 0 w' (Nat.zero_le _) hw'
    cases hfault with
    | relayed _ known within => exact hR _ _ _ within known
    | failed _ _ _ known within =>
      exact hR _ _ _ ((kind.valuesAmong_add_gradientsAmong _).symm ▸ within) known
  refine (hend.mono (fun a w' hsettled => ?_) fun _ _ hw' => hw').snd hw
  obtain ⟨⟨values, known, hsum, -⟩, within⟩ := hsettled
  exact hR _ _ _ (hsum ▸ within) known

end SearchKind

/-! ## Properties that are kept -/

/-- Every part of a search that writes the workspace keeps the property. -/
structure Problem.PartsKeep (p : Problem K σ) (P : Workspace K σ → Prop) : Prop where
  eval : ∀ x, Keeps P (.ofEval (p.objective.eval x) : Searching K σ _)
  evaluate : ∀ x, Keeps P (p.evaluate x)
  differential : ∀ x η y ξ, Keeps P
    (.ofCached (p.manifold.differential x η y ξ true) : Searching K σ _)
  trials : ∀ w n, P w → P { w with trials := n }
  report : ∀ w step, P w → P { w with trace := w.trace.push (StrongWolfe.reachedMaximum step) }

variable {P : Workspace K σ → Prop}

theorem Problem.partsKeep_of_cache {Q : Cache K → Prop}
    (hgradient : ∀ x g, Keeps Q (p.manifold.convertGradient x g p.usage))
    (hdifferential : ∀ x η y ξ, Keeps Q (p.manifold.differential x η y ξ true)) :
    p.PartsKeep fun w => Q w.cache where
  eval _ := fun _ hw => hw
  evaluate _ := keeps_bind (fun _ hw => hw) fun _ =>
    keeps_bind (fun w hw => hgradient _ _ w.cache hw) fun _ => keeps_pure _
  differential x η y ξ := fun w hw => hdifferential x η y ξ w.cache hw
  trials _ _ hw := hw
  report _ _ hw := hw

theorem Problem.PartsKeep.accounts (hp : p.PartsKeep P) : p.Accounts fun _ _ => P where
  eval x := hp.eval x _
  evaluate x := hp.evaluate x _
  differential x η y ξ := hp.differential x η y ξ _
  trials tries := hp.trials _ tries
  report step := hp.report _ step

theorem StrongWolfe.keeps_tryStep (hevaluate : ∀ x, Keeps P (p.evaluate x))
    (htrials : ∀ w n, P w → P { w with trials := n }) (ray : Ray K) (step : K) :
    Keeps P (tryStep p ray step) :=
  fun _ hw => (ensures_tryStep (fun _ _ hw => hw) (fun x => (hevaluate x).ensures)
    (fun w hw => htrials w _ hw) step).snd hw

theorem StrongWolfe.keeps_slopeAt
    (hmove : ∀ x η y ξ, Keeps P
      (.ofCached (p.manifold.differential x η y ξ true) : Searching K σ _))
    (ray : Ray K) (t : Trial K) : Keeps P (slopeAt p ray t) :=
  fun _ hw => (ensures_slopeAt (fun _ _ hw => hw) hmove t).snd hw

/-- **A search keeps what its parts keep.** -/
theorem SearchKind.keeps_search (hp : p.PartsKeep P) (kind : SearchKind) (point : Vec K)
    (value : K) (gradient direction : Vec K) :
    Keeps P (kind.search p params point value gradient direction) :=
  fun _ hw => search_snd hp.accounts (fun _ _ _ _ hw' => hw') hw

end GeodesicDescent
