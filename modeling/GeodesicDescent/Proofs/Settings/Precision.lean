import GeodesicDescent.Proofs.LineSearch.Parameters
import GeodesicDescent.Proofs.Rounding
import GeodesicDescent.Proofs.Run.Iterations
import GeodesicDescent.Proofs.Settings.Solver
import GeodesicDescent.Proofs.Stopping

/-!
# What the settings of a solver are in its own precision

A tolerance and a first step are checked as doubles, and kept as scalars of the solver. A scalar of
double precision is the double itself. In single precision a positive finite double may be kept as
zero or as an infinity: then no gradient is small enough, or every gradient is, and no run starts
with the step.

* `KeptAs`: how a positive number is kept, in one precision or the other;
* `Spans`: the positive numbers that a scalar type keeps positive, and those it keeps finite;
* `spans_double`, **`spans_single`**: all of them, and those in a range;
* `StoppingRule.Discerns`: a criterion that some gradients meet, and some do not;
* `SolverOptions.Serves`: what the tolerance and the first step of some settings are good for;
* **`SolverOptions.applySettings_serves`**: in double precision all serve, and in single precision
  those in its range;
* `SolverOptions.applySettings_underflows`: settings that are read, and good for nothing.
-/

namespace GeodesicDescent

open Stateful

variable {K : Type} [Scalar K]

/-! ## How a number is kept -/

/-- How a positive number is kept: positive and finite under conditions, else as a zero or as an
infinity. -/
structure KeptAs (t : K) (positive finite : Prop) : Prop where
  isNumber : IsNumber t
  pos_iff : 0 < t ↔ positive
  isFinite_iff : Scalar.isFinite t = true ↔ finite
  lt_iff : ¬ positive → ∀ a : K, a < t ↔ a < 0
  lt_of_isFinite : ¬ finite → ∀ a : K, Scalar.isFinite a = true → a < t

/-- The positive numbers that a scalar type keeps positive, and those that it keeps finite. -/
def Spans (K : Type) [Scalar K] [OfDouble K] (positive finite : ℚ → Prop) : Prop :=
  ∀ {x : Float} {q : ℚ}, 0 < q → Double.value? x = some q →
    KeptAs (ofDouble x : K) (positive q) (finite q)

theorem spans_double : Spans Float (fun _ => True) fun _ => True := by
  intro x q hq h
  obtain ⟨hfinite, hpos⟩ := Double.isFinite_and_pos_iff.2 ⟨q, hq, h⟩
  exact {
    isNumber := (FloatingComparison.isNumber_of_lt hpos).2
    pos_iff := iff_of_true hpos trivial
    isFinite_iff := iff_of_true hfinite trivial
    lt_iff := fun hnot => absurd trivial hnot
    lt_of_isFinite := fun hnot => absurd trivial hnot }

section Single

open Float.Model

variable {t : Float32} {q : ℚ}

theorem single_pos_iff : 0.0 < t ↔ (UnpackedFloat.zero .positive).lt t.toModel.unpack = true :=
  single_lt_iff

theorem single_neg_iff : t < 0.0 ↔ t.toModel.unpack.lt (.zero .positive) = true :=
  single_lt_iff

theorem unpacked_lt_infinity {a : UnpackedFloat} (h : a.isFinite = true) :
    a.lt (.infinity .positive) = true := by
  cases a with
  | zero s => rfl
  | finite s m e hm => cases s <;> rfl
  | infinity s => cases h
  | notANumber => cases h

/-- **What a positive number becomes in single precision** decides how it is kept. -/
theorem Narrowed.keptAs (h : Narrowed q t.toModel.unpack) :
    KeptAs t (2 ^ (-150 : Int) < q) (q < 2 ^ 128 - 2 ^ 103) := by
  generalize hu : t.toModel.unpack = u at h
  have hnumber : IsNumber t := unpacked_beq_self (by rw [hu]; rintro rfl; cases h)
  have hpos : 0.0 < t ↔ (UnpackedFloat.zero .positive).lt u = true := hu ▸ single_pos_iff
  have hfinite : t.isFinite = true ↔ u.isFinite = true := hu ▸ Iff.rfl
  have hlt (a : Float32) : a < t ↔ a.toModel.unpack.lt u = true := hu ▸ single_lt_iff
  cases h with
  | zero hq =>
    have hsmall : ¬ 2 ^ (-150 : Int) < q := not_lt.2 hq
    have hbound : q < 2 ^ 128 - 2 ^ 103 := hq.trans_lt (by norm_num)
    exact {
      isNumber := hnumber
      pos_iff := hpos.trans (iff_of_false nofun hsmall)
      isFinite_iff := hfinite.trans (iff_of_true rfl hbound)
      lt_iff := fun _ a => (hlt a).trans single_neg_iff.symm
      lt_of_isFinite := fun hnot => absurd hbound hnot }
  | finite hlow hhigh =>
    exact {
      isNumber := hnumber
      pos_iff := hpos.trans (iff_of_true rfl hlow)
      isFinite_iff := hfinite.trans (iff_of_true rfl hhigh)
      lt_iff := fun hnot => absurd hlow hnot
      lt_of_isFinite := fun hnot => absurd hhigh hnot }
  | infinity hq =>
    have hlarge : 2 ^ (-150 : Int) < q := lt_of_lt_of_le (by norm_num) hq
    exact {
      isNumber := hnumber
      pos_iff := hpos.trans (iff_of_true rfl hlarge)
      isFinite_iff := hfinite.trans (iff_of_false nofun (not_lt.2 hq))
      lt_iff := fun hnot => absurd hlarge hnot
      lt_of_isFinite := fun _ a ha => (hlt a).2 (unpacked_lt_infinity ha) }

/-- **Single precision keeps positive what exceeds half its least number, and finite what does not
round beyond its greatest.** -/
theorem spans_single : Spans Float32 (2 ^ (-150 : Int) < ·) (· < 2 ^ 128 - 2 ^ 103) :=
  fun hq h => (Double.narrowed_toSingle hq h).keptAs

end Single

/-! ## What it is good for -/

/-- Nothing lies below itself, zero is finite, and the usual parameters of both searches are in
range. -/
class FloatingDefaults (K : Type) [Scalar K] : Prop extends FloatingComparison K where
  lt_irrefl : ∀ a : K, ¬ a < a
  isFinite_zero : Scalar.isFinite (0 : K) = true
  backtracking_inRange : (SearchParams.backtracking : SearchParams K).InRange
  strongWolfe_inRange : (SearchParams.strongWolfe : SearchParams K).InRange

instance FloatingDefaults.double : FloatingDefaults Float where
  lt_irrefl _ h := unpacked_lt_irrefl (double_lt_iff.1 h)
  isFinite_zero := by decide +kernel
  backtracking_inRange := by constructor <;> decide +kernel
  strongWolfe_inRange := by constructor <;> decide +kernel

instance FloatingDefaults.single : FloatingDefaults Float32 where
  lt_irrefl _ h := unpacked_lt_irrefl (single_lt_iff.1 h)
  isFinite_zero := by decide +kernel
  backtracking_inRange := by constructor <;> decide +kernel
  strongWolfe_inRange := by constructor <;> decide +kernel

/-- Finite numbers, of which the gradient norm is not negative. -/
structure Status.Plain (s : Status K) : Prop where
  value : Scalar.isFinite s.value = true
  gradientNorm : Scalar.isFinite s.gradientNorm = true
  not_neg : ¬ s.gradientNorm < 0

/-- A criterion that some gradients meet, and some do not, under conditions. -/
structure StoppingRule.Discerns (rule : StoppingRule K) (positive finite : Prop) : Prop where
  meets_iff : (∃ s : Status K, s.Plain ∧ rule.reason? s = some .converged) ↔ positive
  misses_iff : (∃ s : Status K, s.Plain ∧ rule.reason? s ≠ some .converged) ↔ finite

theorem StoppingRule.reason?_eq_converged {rule : StoppingRule K} {t : K} {s : Status K}
    (ht : rule.gradientTolerance = some t) (hs : s.Plain) :
    rule.reason? s = some .converged ↔ s.gradientNorm < t := by
  have hfinite : ¬ (Scalar.isFinite s.value = false ∨ Scalar.isFinite s.gradientNorm = false) := by
    rw [hs.value, hs.gradientNorm]
    nofun
  have hmeets : rule.gradientTolerance.any (s.gradientNorm < ·) = true ↔ s.gradientNorm < t := by
    rw [ht, Option.any_some, decide_eq_true_iff]
  unfold reason?
  rw [if_neg hfinite]
  split_ifs with hlt
  · exact iff_of_true rfl (hmeets.1 hlt)
  all_goals exact iff_of_false nofun (mt hmeets.2 hlt)

section Defaults

variable [FloatingDefaults K] {t : K} {positive finite : Prop}

theorem KeptAs.not_neg (h : KeptAs t positive finite) : ¬ t < 0 := by
  intro hneg
  by_cases hpositive : positive
  · exact FloatingDefaults.lt_irrefl t
      (FloatingComparison.lt_trans hneg (h.pos_iff.2 hpositive))
  · exact FloatingDefaults.lt_irrefl t ((h.lt_iff hpositive t).2 hneg)

/-- **A tolerance discerns gradients where it is kept positive and finite.** -/
theorem KeptAs.discerns (h : KeptAs t positive finite) {rule : StoppingRule K}
    (ht : rule.gradientTolerance = some t) : rule.Discerns positive finite where
  meets_iff := by
    constructor
    · rintro ⟨s, hs, hreason⟩
      rw [StoppingRule.reason?_eq_converged ht hs] at hreason
      by_contra hnot
      exact hs.not_neg ((h.lt_iff hnot _).1 hreason)
    · intro hpositive
      have hs : ({ value := 0, gradientNorm := 0 } : Status K).Plain :=
        ⟨FloatingDefaults.isFinite_zero, FloatingDefaults.isFinite_zero,
          FloatingDefaults.lt_irrefl 0⟩
      exact ⟨_, hs, (StoppingRule.reason?_eq_converged ht hs).2 (h.pos_iff.2 hpositive)⟩
  misses_iff := by
    constructor
    · rintro ⟨s, hs, hreason⟩
      rw [Ne, StoppingRule.reason?_eq_converged ht hs] at hreason
      by_contra hnot
      exact hreason (h.lt_of_isFinite hnot _ hs.gradientNorm)
    · intro hfinite
      have hs : ({ value := 0, gradientNorm := t } : Status K).Plain :=
        ⟨FloatingDefaults.isFinite_zero, h.isFinite_iff.2 hfinite, h.not_neg⟩
      exact ⟨_, hs, mt (StoppingRule.reason?_eq_converged ht hs).1 (FloatingDefaults.lt_irrefl t)⟩

end Defaults

namespace SolverOptions

variable [FloatingDefaults K] {c c' : SolverOptions K} {positive finite : Prop}

/-- **A first step passes the checks where it is kept positive.** -/
theorem validate_searchParams_iff (h : KeptAs c.initialStep positive finite)
    (husual : c.explicitParams = none) : c.searchParams.validate = .ok () ↔ positive := by
  have hzero : IsNumber (0 : K) :=
    (FloatingComparison.isNumber_of_lt FloatingComparison.zero_lt_one).1
  have hstep : c.searchParams.initialStep = c.initialStep := by
    rw [searchParams, husual]
  constructor
  · intro hvalid
    by_contra hnot
    have hle : c.searchParams.initialStep ≤ 0 := by
      rw [hstep, FloatingOrder.le_iff]
      exact ⟨h.isNumber, hzero, mt h.pos_iff.1 hnot⟩
    unfold SearchParams.validate at hvalid
    rw [if_pos hle] at hvalid
    cases hvalid
  · intro hpositive
    have hpos := h.pos_iff.2 hpositive
    apply SearchParams.validate_of_inRange
    rw [searchParams, husual]
    cases c.lineSearch with
    | armijo =>
      exact { FloatingDefaults.backtracking_inRange (K := K) with initialStep_pos := hpos }
    | strongWolfe =>
      exact { FloatingDefaults.strongWolfe_inRange (K := K) with initialStep_pos := hpos }

/-- What the tolerance and the first step of settings that were read are good for: the tolerance
discerns gradients and a run takes the step, where their numbers are in the range of the scalars. -/
structure Serves (settings : Settings) (c : SolverOptions K) (positive finite : ℚ → Prop) :
    Prop where
  tolerance : ∀ v, ("Tolerance", v) ∈ settings → ∃ q t, 0 < q ∧ Double.value? v = some q ∧
    c.criterion.gradientTolerance = some t ∧ (0 < t ↔ positive q) ∧
    (Scalar.isFinite t = true ↔ finite q) ∧ c.criterion.Discerns (positive q) (finite q)
  initialStep : ∀ v, ("Initstepsize", v) ∈ settings → ∃ q, 0 < q ∧ Double.value? v = some q ∧
    (0 < c.initialStep ↔ positive q) ∧ (Scalar.isFinite c.initialStep = true ↔ finite q) ∧
    (c.explicitParams = none → (c.searchParams.validate = .ok () ↔ positive q))

section Reading

variable [OfDouble K] {settings : Settings} {v : Float}

omit [FloatingDefaults K] in
theorem readNext_tolerance (h : c.readNext ("Tolerance", v) = .ok c') : ∃ q, 0 < q ∧
    Double.value? v = some q ∧ c'.criterion.gradientTolerance = some (ofDouble v) := by
  change (readPositive "Tolerance" v >>= fun tolerance =>
    pure { c with criterion.gradientTolerance := some (ofDouble tolerance) }) = .ok c' at h
  obtain ⟨_, hv, ⟨⟩⟩ := checked_bind_eq_ok.1 h
  obtain ⟨⟨q, hq, hvalue⟩, rfl⟩ := readPositive_eq_ok.1 hv
  exact ⟨q, hq, hvalue, rfl⟩

omit [FloatingDefaults K] in
theorem readNext_initialStep (h : c.readNext ("Initstepsize", v) = .ok c') : ∃ q, 0 < q ∧
    Double.value? v = some q ∧ c'.initialStep = ofDouble v := by
  change (readPositive "Initstepsize" v >>= fun step =>
    pure { c with initialStep := ofDouble step }) = .ok c' at h
  obtain ⟨_, hv, ⟨⟩⟩ := checked_bind_eq_ok.1 h
  obtain ⟨⟨q, hq, hvalue⟩, rfl⟩ := readPositive_eq_ok.1 hv
  exact ⟨q, hq, hvalue, rfl⟩

theorem serves_of_spans {positive finite : ℚ → Prop} (hspans : Spans K positive finite)
    (hdistinct : (settings.map Prod.fst).Nodup) (h : applySettings settings c = (.ok (), c')) :
    c'.Serves settings positive finite where
  tolerance v hv := by
    obtain ⟨d, hd⟩ := readAs_sets.exists_last hv hdistinct (applySettings_eq_ok.1 h)
    obtain ⟨q, hq, hvalue, htolerance⟩ := readNext_tolerance hd
    have hkept := hspans hq hvalue
    exact ⟨q, ofDouble v, hq, hvalue, htolerance, hkept.pos_iff, hkept.isFinite_iff,
      hkept.discerns htolerance⟩
  initialStep v hv := by
    obtain ⟨d, hd⟩ := readAs_sets.exists_last hv hdistinct (applySettings_eq_ok.1 h)
    obtain ⟨q, hq, hvalue, hstep⟩ := readNext_initialStep hd
    have hkept := hstep ▸ hspans hq hvalue
    exact ⟨q, hq, hvalue, hkept.pos_iff, hkept.isFinite_iff, validate_searchParams_iff hkept⟩

omit [FloatingDefaults K] in
theorem exists_read (settings : Settings)
    (h : yields (· = ()) (applySettings settings ({} : SolverOptions K)).1 = true) :
    ∃ c : SolverOptions K, applySettings settings {} = (.ok (), c) ∧
      c = (applySettings settings {}).2 :=
  ⟨_, Prod.ext (eq_ok_of_yields h) rfl, rfl⟩

end Reading

/-- **What settings are good for in either precision**: in double precision all that are read. -/
theorem applySettings_serves {settings : Settings}
    (hdistinct : (settings.map Prod.fst).Nodup) :
    (∀ c c' : SolverOptions Float, applySettings settings c = (.ok (), c') →
      c'.Serves settings (fun _ => True) fun _ => True) ∧
    ∀ c c' : SolverOptions Float32, applySettings settings c = (.ok (), c') →
      c'.Serves settings (2 ^ (-150 : Int) < ·) (· < 2 ^ 128 - 2 ^ 103) :=
  ⟨fun _ _ => serves_of_spans spans_double hdistinct,
    fun _ _ => serves_of_spans spans_single hdistinct⟩

/-- A small tolerance and a short first step. -/
def fineSettings : Settings := [("Tolerance", 1e-40), ("Initstepsize", 0.125)]

/-- The tolerance is less than the least normal number of single precision, and discerns gradients
all the same. -/
theorem applySettings_serves_fine : (fineSettings.map Prod.fst).Nodup ∧
    (∃ c : SolverOptions Float, applySettings fineSettings {} = (.ok (), c) ∧
      c.criterion.Discerns True True) ∧
    ∃ c : SolverOptions Float32, applySettings fineSettings {} = (.ok (), c) ∧
      c.criterion.Discerns True True ∧ c.searchParams.validate = .ok () := by
  have hdistinct : (fineSettings.map Prod.fst).Nodup := by decide
  have hmem : ("Tolerance", 1e-40) ∈ fineSettings := List.mem_cons_self
  have hmem' : ("Initstepsize", 0.125) ∈ fineSettings := List.mem_cons_of_mem _ List.mem_cons_self
  obtain ⟨hdouble, hsingle⟩ := applySettings_serves hdistinct
  refine ⟨hdistinct, ?_, ?_⟩
  · obtain ⟨c, hread, -⟩ := exists_read (K := Float) fineSettings (by decide +kernel)
    obtain ⟨q, t, -, -, -, -, -, hdiscerns⟩ := (hdouble _ _ hread).tolerance _ hmem
    exact ⟨c, hread, hdiscerns⟩
  · obtain ⟨c, hread, hc⟩ := exists_read (K := Float32) fineSettings (by decide +kernel)
    obtain ⟨q, t, -, -, ht, hpos, hfinite, hdiscerns⟩ := (hsingle _ _ hread).tolerance _ hmem
    obtain ⟨q', -, -, hpos', -, hvalid⟩ := (hsingle _ _ hread).initialStep _ hmem'
    have htolerance : c.criterion.gradientTolerance.any
        (fun t => 0 < t ∧ Scalar.isFinite t = true) = true := by
      rw [hc]
      decide +kernel
    rw [ht, Option.any_some, decide_eq_true_iff] at htolerance
    have hstep : 0 < c.initialStep ∧ c.explicitParams.isNone = true := by
      rw [hc]
      decide +kernel
    have husual : c.explicitParams = none := Option.isNone_iff_eq_none.1 hstep.2
    refine ⟨c, hread, ?_, (hvalid husual).2 (hpos'.1 hstep.1)⟩
    rwa [eq_true (hpos.1 htolerance.1), eq_true (hfinite.1 htolerance.2)] at hdiscerns

/-- **Settings that are read, and good for nothing** in single precision. -/
theorem applySettings_underflows :
    (∃ c : SolverOptions Float32, applySettings [("Tolerance", 1e-50)] {} = (.ok (), c) ∧
      c.criterion.gradientTolerance.any (0 < ·) = false ∧
      ∀ s : Status Float32, s.Plain → c.criterion.reason? s ≠ some .converged) ∧
    (∃ c : SolverOptions Float32, applySettings [("Tolerance", 1e50)] {} = (.ok (), c) ∧
      c.criterion.gradientTolerance.any (Scalar.isFinite ·) = false ∧
      ∀ s : Status Float32, s.Plain → c.criterion.reason? s = some .converged) ∧
    ∃ c : SolverOptions Float32, applySettings [("Initstepsize", 1e-50)] {} = (.ok (), c) ∧
      ¬ 0 < c.initialStep ∧
      ∀ (σ ρ : Type) (u : Setup Float32 σ ρ) start events objective x₀, u.config = c →
        u.rule.announce start = .ok events → (u.run start objective x₀).1 = .error (.refused
          (.geometry (.invalidParameter "Initial step size must be positive"))) := by
  have hdistinct (name : String) (v : Float) : ([(name, v)].map Prod.fst).Nodup :=
    List.nodup_singleton name
  refine ⟨?_, ?_, ?_⟩
  · obtain ⟨c, hread, hc⟩ := exists_read (K := Float32) [("Tolerance", 1e-50)] (by decide +kernel)
    obtain ⟨q, t, -, -, ht, hpos, -, hdiscerns⟩ :=
      (serves_of_spans spans_single (hdistinct _ _) hread).tolerance _ List.mem_cons_self
    have hzero : c.criterion.gradientTolerance.any (0 < ·) = false := by
      rw [hc]
      decide +kernel
    refine ⟨c, hread, hzero, fun s hs hreason => ?_⟩
    rw [ht, Option.any_some, decide_eq_false_iff_not] at hzero
    exact hzero (hpos.2 (hdiscerns.meets_iff.1 ⟨s, hs, hreason⟩))
  · obtain ⟨c, hread, hc⟩ := exists_read (K := Float32) [("Tolerance", 1e50)] (by decide +kernel)
    obtain ⟨q, t, -, -, ht, -, hfinite, hdiscerns⟩ :=
      (serves_of_spans spans_single (hdistinct _ _) hread).tolerance _ List.mem_cons_self
    have hinfinite : c.criterion.gradientTolerance.any (Scalar.isFinite ·) = false := by
      rw [hc]
      decide +kernel
    refine ⟨c, hread, hinfinite, fun s hs => ?_⟩
    rw [ht, Option.any_some, ← Bool.not_eq_true, hfinite] at hinfinite
    by_contra hreason
    exact hinfinite (hdiscerns.misses_iff.1 ⟨s, hs, hreason⟩)
  · obtain ⟨c, hread, hc⟩ :=
      exists_read (K := Float32) [("Initstepsize", 1e-50)] (by decide +kernel)
    have hstep : ¬ 0 < c.initialStep := by
      rw [hc]
      decide +kernel
    have hrefused : c.searchParams.validate =
        .error (.invalidParameter "Initial step size must be positive") := by
      rw [hc]
      decide +kernel
    exact ⟨c, hread, hstep, fun _ _ _ _ _ _ _ hconfig hannounce =>
      Setup.run_of_refused hannounce (hconfig ▸ hrefused)⟩

end SolverOptions

end GeodesicDescent
