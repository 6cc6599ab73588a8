import GeodesicDescent.Proofs.LineSearch.Acceptance
import GeodesicDescent.Proofs.LineSearch.Brackets

/-!
# How long an accepted step is

No accepted step is longer than the longest step of the parameters. The least step is a bound for
shortened steps and for the width of a bracket, so that half of it is one for the middle. It is a
bound for all middles if the first step still is as long after all the halvings there may be.

* `Clear`: ends of a bracket all of whose middles are as long as the least step;
* **`Backtracking.step_of_search`**: the step that backtracking accepts;
* `StrongWolfe.Succeeds.least_le`: the least that the strong Wolfe search accepts;
* `StrongWolfe.Calls.clear`: the calls of a search keep the ends clear;
* `SearchKind.KeepsLeast`: parameters for which the least step is a bound;
* **`SearchKind.step_le_maxStep`**, `SearchKind.least_le_step`, **`SearchKind.minStep_le_step`**:
  the bounds.
-/

namespace GeodesicDescent

open Stateful Relation

/-! ## Ends of a bracket -/

section Clear

variable {K : Type} [Field K] [LinearOrder K]

/-- Ends of a bracket. Both are as long as the least step, or one is the start and the other so far
away that it still is after so many halvings. -/
def Clear (least : K) (halvings : Nat) (x y : K) : Prop :=
  least ≤ x ∧ least ≤ y ∨ x = 0 ∧ least * (2 ^ halvings : Nat) ≤ y ∨
    y = 0 ∧ least * (2 ^ halvings : Nat) ≤ x

variable {least x y : K} {halvings : Nat}

theorem Clear.symm (h : Clear least halvings x y) : Clear least halvings y x := by
  obtain h | h | h := h
  · exact .inl h.symm
  · exact .inr (.inr h)
  · exact .inr (.inl h)

variable [IsStrictOrderedRing K]

theorem le_mul_two_pow (hleast : 0 < least) (n : Nat) : least ≤ least * (2 ^ n : Nat) :=
  le_mul_of_one_le_right hleast.le (Nat.one_le_cast.2 Nat.one_le_two_pow)

theorem Clear.le_middle (hleast : 0 < least) (h : Clear least (halvings + 1) x y) :
    least ≤ (x + y) / 2 := by
  have hfar := le_mul_two_pow hleast halvings
  rw [Clear, pow_succ, Nat.cast_mul, Nat.cast_ofNat, ← mul_assoc] at h
  obtain ⟨hx, hy⟩ | ⟨rfl, hy⟩ | ⟨rfl, hx⟩ := h <;> linarith

theorem Clear.half (hleast : 0 < least) (h : Clear least (halvings + 1) x y) :
    Clear least halvings x ((x + y) / 2) := by
  have hmiddle := h.le_middle hleast
  have hfar := le_mul_two_pow hleast halvings
  rw [Clear, pow_succ, Nat.cast_mul, Nat.cast_ofNat, ← mul_assoc] at h
  obtain ⟨hx, hy⟩ | ⟨rfl, hy⟩ | ⟨rfl, hx⟩ := h
  · exact .inl ⟨hx, hmiddle⟩
  · exact .inr (.inl ⟨rfl, by linarith⟩)
  · exact .inl ⟨by linarith, hmiddle⟩

end Clear

variable {K σ : Type} [Field K] [LinearOrder K] [Elementary K] [Tolerances K]
variable {p : Problem K σ} {params : SearchParams K}

/-! ## Backtracking -/

namespace Backtracking

variable {point direction : Vec K} {value slope : K} {q q' : K × Workspace K σ}

theorem least_le_of_shortens
    (h : ReflTransGen (Shortens p params point value slope direction) q q') :
    q'.1 = q.1 ∨ params.minStep ≤ q'.1 := by
  cases h with
  | refl => exact .inl rfl
  | tail _ hshorten =>
    cases hshorten with
    | shorter _ _ long => exact .inr (not_lt.1 long)

variable [IsStrictOrderedRing K]

theorem le_of_shortens (hv : params.Valid) (hq : 0 < q.1)
    (h : ReflTransGen (Shortens p params point value slope direction) q q') : q'.1 ≤ q.1 := by
  induction h with
  | refl => exact le_rfl
  | tail hprevious hshorten ih =>
    have hpos := pos_of_shortens hv hprevious hq
    cases hshorten
    exact (mul_le_of_le_one_right hpos.le hv.rho_lt_one.le).trans ih

/-- **The step that backtracking accepts** is the first one, or a shorter one that is as long as the
least. -/
theorem step_of_search {gradient : Vec K} {w w' : Workspace K σ} {a : Accepted K}
    (hv : params.Valid) (h : search p params point value gradient direction w = (.ok a, w')) :
    a.step ≤ params.firstStep ∧ (a.step = params.firstStep ∨ params.minStep ≤ a.step) := by
  obtain ⟨slope, -, -, q, hshorten, htakes⟩ := search_eq_ok h
  obtain ⟨-, -, -, rfl⟩ := htakes
  exact ⟨le_of_shortens hv hv.firstStep_pos hshorten, least_le_of_shortens hshorten⟩

end Backtracking

/-! ## The strong Wolfe search -/

namespace StrongWolfe

variable {ray : Ray K}

/-- Whatever is tried before a step is bracketed is as long as the first step. -/
def Position.FromFirst (params : SearchParams K) : Position K → Prop
  | .doubling _ _ _ step => params.firstStep ≤ step
  | .halving _ => True

/-- Every trial from here on is as long as the least step. -/
def Stage.Clear (params : SearchParams K) : Stage K → Prop
  | ⟨_, .doubling _ previous _ step⟩ =>
    params.minStep * (2 ^ params.maxIterations : Nat) ≤ step ∧
      (previous = 0 ∨ params.minStep ≤ previous)
  | ⟨budget, .halving b⟩ => GeodesicDescent.Clear params.minStep budget b.low b.high

variable [IsStrictOrderedRing K]

theorem le_doubled {step : K} (hstep : 0 ≤ step) (hlongest : step ≤ params.maxStep) :
    step ≤ Scalar.min (step * 2.0) params.maxStep := by
  rw [scalar_min_eq, scientific_two]
  exact le_min (by linarith) hlongest

section Least

variable {q q' : Position K × Workspace K σ}

theorem Moves.fromFirst (hforward : q.1.Forward) (hwithin : q.1.Within params)
    (hq : q.1.FromFirst params) (h : Moves p params ray q q') : q'.1.FromFirst params := by
  cases h with
  | longer => exact le_trans hq (le_doubled hforward.2.le hwithin.2)
  | bracketed => trivial
  | half => trivial

theorem fromFirst_of_moves (hv : params.Valid) (hforward : q.1.Forward)
    (hwithin : q.1.Within params) (hq : q.1.FromFirst params)
    (h : ReflTransGen (Moves p params ray) q q') : q'.1.FromFirst params := by
  induction h with
  | refl => exact hq
  | tail hmoves hmove ih =>
    exact hmove.fromFirst (forward_of_moves hv hmoves hforward) (within_of_moves hmoves hwithin) ih

theorem Bracket.half_le_middle {b : Bracket K} (hlow : 0 ≤ b.low) (hhigh : 0 ≤ b.high)
    (wide : ¬ Scalar.abs (b.high - b.low) < params.minStep) : params.minStep / 2 ≤ b.middle := by
  have hwidth : |b.high - b.low| ≤ b.low + b.high := abs_le.2 ⟨by linarith, by linarith⟩
  have hleast : params.minStep ≤ |b.high - b.low| := not_lt.1 wide
  rw [b.middle_eq]
  linarith

/-- **The least that the strong Wolfe search accepts** is the first step or half the least step. -/
theorem Succeeds.least_le {a : Accepted K} {w' : Workspace K σ} (hv : params.Valid)
    (hforward : q.1.Forward) (hwithin : q.1.Within params) (hq : q.1.FromFirst params)
    (h : Succeeds p params ray q a w') : min params.firstStep (params.minStep / 2) ≤ a.step := by
  obtain ⟨q', t, hmoves, htakes, rfl⟩ := h
  have hfirst := fromFirst_of_moves hv hforward hwithin hq hmoves
  have hends := forward_of_moves hv hmoves hforward
  show _ ≤ t.step
  rw [htakes.tried.1]
  cases htakes with
  | doubled => exact min_le_of_left_le hfirst
  | halved wide => exact min_le_of_right_le (Bracket.half_le_middle hends.1 hends.2 wide)

end Least

section Calls

variable {s s' : Stage K × Workspace K σ}

/-- **A call whose trials are all as long as the least step** makes only such calls. -/
theorem Calls.clear (hv : params.Valid)
    (hs : s.1.Clear params) (h : Calls p params ray s s') : s'.1.Clear params := by
  have hfar := le_mul_two_pow hv.minStep_pos params.maxIterations
  cases h with
  | longer h =>
    obtain ⟨hstep, -⟩ := hs
    cases doubles_of_eq_ok h with
    | onwards tried _ _ _ _ shorter =>
      have hleast := hfar.trans hstep
      rw [tryStep_step tried]
      exact ⟨hstep.trans (le_doubled (hv.minStep_pos.le.trans hleast) (not_le.1 shorter).le),
        .inr hleast⟩
  | @bracketed _ _ previous _ step _ _ _ h =>
    obtain ⟨hstep, hprevious⟩ := hs
    have hclear : GeodesicDescent.Clear params.minStep params.maxIterations previous step :=
      hprevious.elim (fun hzero => .inr (.inl ⟨hzero, hstep⟩))
        fun hlong => .inl ⟨hlong, hfar.trans hstep⟩
    cases doubles_of_eq_ok h with
    | high => exact hclear
    | uphill => exact hclear.symm
  | @half budget b _ _ _ wide h =>
    have hclear : GeodesicDescent.Clear params.minStep (budget + 1) b.low b.high := hs
    have hfirst := hclear.half hv.minStep_pos
    have hsecond := hclear.symm.half hv.minStep_pos
    rw [← b.middle_eq] at hfirst
    rw [add_comm, ← b.middle_eq] at hsecond
    cases halves_of_eq_ok h with
    | high => exact hfirst
    | steep =>
      show GeodesicDescent.Clear _ _ b.middle (if _ then b.low else b.high)
      split_ifs
      · exact hfirst.symm
      · exact hsecond.symm

theorem clear_of_calls (hv : params.Valid) (hs : s.1.Clear params)
    (h : ReflTransGen (Calls p params ray) s s') : s'.1.Clear params := by
  induction h with
  | refl => exact hs
  | tail _ hcall ih => exact hcall.clear hv ih

theorem Stage.Clear.step_le {s : Stage K} (hv : params.Valid) (hbudget : 0 < s.budget)
    (hs : s.Clear params) : params.minStep ≤ s.position.step := by
  rcases s with ⟨_ | budget, ⟨first, previous, previousValue, step⟩ | b⟩
  · cases hbudget
  · cases hbudget
  · exact (le_mul_two_pow hv.minStep_pos params.maxIterations).trans hs.1
  · have hclear : GeodesicDescent.Clear params.minStep (budget + 1) b.low b.high := hs
    show _ ≤ b.middle
    rw [b.middle_eq]
    exact hclear.le_middle hv.minStep_pos

end Calls

end StrongWolfe

/-! ## Whole searches -/

namespace SearchKind

/-- With these parameters no accepted step is shorter than the least. -/
def KeepsLeast (kind : SearchKind) (params : SearchParams K) : Prop :=
  match kind with
  | .armijo => params.minStep ≤ params.initialStep
  | .strongWolfe => params.minStep * (2 ^ params.maxIterations : Nat) ≤ params.firstStep

variable [IsStrictOrderedRing K] {kind : SearchKind} {point gradient direction : Vec K} {value : K}
variable {w w' : Workspace K σ} {a : Accepted K}

theorem step_le_maxStep (hv : params.Valid)
    (h : kind.search p params point value gradient direction w = (.ok a, w')) :
    a.step ≤ params.maxStep := by
  cases kind with
  | armijo =>
    obtain ⟨hle, -⟩ := Backtracking.step_of_search hv h
    rw [params.firstStep_eq] at hle
    exact hle.trans (min_le_right _ _)
  | strongWolfe =>
    obtain ⟨slope, -, -, hfound⟩ := StrongWolfe.search_eq_ok h
    exact hfound.step_le (StrongWolfe.Position.within_start hv value)

theorem least_le_step (hv : params.Valid)
    (h : kind.search p params point value gradient direction w = (.ok a, w')) :
    min params.initialStep (params.minStep / 2) ≤ a.step := by
  have hhalf : params.minStep / 2 ≤ params.minStep := half_le_self hv.minStep_pos.le
  have hfirst : min params.initialStep (params.minStep / 2) ≤
      min params.firstStep (params.minStep / 2) := by
    rw [params.firstStep_eq]
    exact le_min (le_min (min_le_left _ _)
      (min_le_of_right_le (hhalf.trans hv.minStep_lt.le))) (min_le_right _ _)
  refine hfirst.trans ?_
  cases kind with
  | armijo =>
    obtain ⟨-, heq | hleast⟩ := Backtracking.step_of_search hv h
    · exact min_le_of_left_le heq.ge
    · exact min_le_of_right_le (hhalf.trans hleast)
  | strongWolfe =>
    obtain ⟨slope, -, -, hfound⟩ := StrongWolfe.search_eq_ok h
    have hforward : (StrongWolfe.Position.doubling true 0 value params.firstStep).Forward :=
      ⟨le_rfl, hv.firstStep_pos⟩
    exact hfound.least_le hv hforward (StrongWolfe.Position.within_start hv value) le_rfl

theorem minStep_le_step (hv : params.Valid) (hkeeps : kind.KeepsLeast params)
    (h : kind.search p params point value gradient direction w = (.ok a, w')) :
    params.minStep ≤ a.step := by
  cases kind with
  | armijo =>
    obtain ⟨-, heq | hleast⟩ := Backtracking.step_of_search hv h
    · rw [heq, params.firstStep_eq]
      exact le_min hkeeps hv.minStep_lt.le
    · exact hleast
  | strongWolfe =>
    obtain ⟨slope, w₁, hslope, h⟩ := bind_eq_ok.1 h
    obtain ⟨_, w₂, hreset, h⟩ := bind_eq_ok.1 h
    have hrun : (StrongWolfe.Stage.start params value).run p params
        ⟨point, value, slope, direction⟩ w₂ = (.ok a, w') := h
    obtain ⟨s, w₃, t, hcalls, hbudget, htakes, rfl⟩ := StrongWolfe.run_eq_ok hrun
    have hstart : (StrongWolfe.Stage.start params value).Clear params := ⟨hkeeps, .inl rfl⟩
    show _ ≤ t.step
    rw [htakes.tried.1]
    exact (StrongWolfe.clear_of_calls hv hstart hcalls).step_le hv hbudget

end SearchKind

end GeodesicDescent
