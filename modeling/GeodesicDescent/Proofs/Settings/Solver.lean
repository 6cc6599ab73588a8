import GeodesicDescent.Proofs.Settings.Reading
import GeodesicDescent.Solver.Options

/-!
# The settings of a solver

The options of a solver are read setting by setting, and what was read before a refusal stays. Which
settings are refused does not depend on their order, nor do the options that settings lead to when
none is refused. But where one is refused and another would change the options, the order decides
whether it still does.

* `Admits`: the values that a setting may have;
* `Sets`, **`readAs_sets`**: what one setting does to the options;
* `admits_iff`, `applySettings_fst`: which settings are refused;
* `applySettings_eq_ok`, `applySettings_of_idle`, `exists_order`: how reading all settings ends;
* **`applySettings_orderly`**: which settings are refused, and when their order shows;
* `applySettings_order_shows`: a setting before a refusal, and after it.
-/

namespace GeodesicDescent

open Stateful

theorem SearchKind.ofCode_eq_ok {K : Type} {v : Float} {kind : SearchKind} :
    (SearchKind.ofCode v : Except (SolverError K) SearchKind) = .ok kind ↔
      Double.value? v = some (kind.code : ℚ) := by
  have hlt : kind.code < maxCount := by cases kind <;> decide
  rw [← readCount_eq_ok_of_lt hlt, ofCode, checked_bind_eq_ok]
  constructor
  · rintro ⟨k, hk, h⟩
    have hkind : k = kind.code := by
      split at h
      · cases h
        rfl
      · cases h
        rfl
      · cases h
    rwa [hkind] at hk
  · intro h
    exact ⟨kind.code, h, by cases kind <;> rfl⟩

namespace SolverOptions

variable {K : Type}

/-- The values that a setting may have, by its name. -/
structure Admits (a : String × Float) : Prop where
  maxIterations : a.1 = "Max_Iteration" → ∃ n : Nat, Double.value? a.2 = some (n : ℚ)
  tolerance : a.1 = "Tolerance" → ∃ q, 0 < q ∧ Double.value? a.2 = some q
  lineSearch : a.1 = "LineSearch_LS" →
    ∃ kind : SearchKind, Double.value? a.2 = some (kind.code : ℚ)
  initialStep : a.1 = "Initstepsize" → ∃ q, 0 < q ∧ Double.value? a.2 = some q

variable [Scalar K] [OfDouble K]

/-- What a setting does to the options: four names set a field each, and no other name does. -/
inductive Sets : String × Float → (SolverOptions K → SolverOptions K) → Prop
  | maxIterations {v : Float} {n : Nat} (h : Double.value? v = some (n : ℚ)) :
    Sets ("Max_Iteration", v) fun c => { c with criterion.maxIterations := some (min n maxCount) }
  | tolerance {v : Float} {q : ℚ} (hq : 0 < q) (h : Double.value? v = some q) :
    Sets ("Tolerance", v) fun c => { c with criterion.gradientTolerance := some (ofDouble v) }
  | lineSearch {v : Float} {kind : SearchKind} (h : Double.value? v = some (kind.code : ℚ)) :
    Sets ("LineSearch_LS", v) fun c => { c with lineSearch := kind }
  | initialStep {v : Float} {q : ℚ} (hq : 0 < q) (h : Double.value? v = some q) :
    Sets ("Initstepsize", v) fun c => { c with initialStep := ofDouble v }
  | other {name : String} {v : Float} (h₁ : name ≠ "Max_Iteration") (h₂ : name ≠ "Tolerance")
      (h₃ : name ≠ "LineSearch_LS") (h₄ : name ≠ "Initstepsize") : Sets (name, v) id

/-- The options after one more setting. -/
abbrev readNext (c : SolverOptions K) (a : String × Float) :
    Except (SolverError K) (SolverOptions K) := c.applySetting a.1 a.2

variable {c c' : SolverOptions K} {a b : String × Float} {settings : Settings}
variable {f g : SolverOptions K → SolverOptions K}

theorem exists_sets {name : String} {v : Float} (h : c.applySetting name v = .ok c') :
    ∃ f, Sets (name, v) f ∧ f c = c' := by
  unfold applySetting at h
  split at h
  · obtain ⟨_, hn, ⟨⟩⟩ := checked_bind_eq_ok.1 h
    obtain ⟨n, hvalue, rfl⟩ := readCount_eq_ok.1 hn
    exact ⟨_, .maxIterations hvalue, rfl⟩
  · obtain ⟨_, ht, ⟨⟩⟩ := checked_bind_eq_ok.1 h
    obtain ⟨⟨q, hq, hvalue⟩, rfl⟩ := readPositive_eq_ok.1 ht
    exact ⟨_, .tolerance hq hvalue, rfl⟩
  · obtain ⟨kind, hkind, ⟨⟩⟩ := checked_bind_eq_ok.1 h
    exact ⟨_, .lineSearch (SearchKind.ofCode_eq_ok.1 hkind), rfl⟩
  · obtain ⟨_, hs, ⟨⟩⟩ := checked_bind_eq_ok.1 h
    obtain ⟨⟨q, hq, hvalue⟩, rfl⟩ := readPositive_eq_ok.1 hs
    exact ⟨_, .initialStep hq hvalue, rfl⟩
  · next h₁ h₂ h₃ h₄ =>
    cases h
    exact ⟨id, .other h₁ h₂ h₃ h₄, rfl⟩

theorem Sets.readNext_eq (h : Sets a f) (c : SolverOptions K) : c.readNext a = .ok (f c) := by
  cases h with
  | maxIterations h => exact checked_bind_eq_ok.2 ⟨_, readCount_eq_ok.2 ⟨_, h, rfl⟩, rfl⟩
  | tolerance hq h => exact checked_bind_eq_ok.2 ⟨_, readPositive_eq_ok.2 ⟨⟨_, hq, h⟩, rfl⟩, rfl⟩
  | lineSearch h => exact checked_bind_eq_ok.2 ⟨_, SearchKind.ofCode_eq_ok.2 h, rfl⟩
  | initialStep hq h =>
    exact checked_bind_eq_ok.2 ⟨_, readPositive_eq_ok.2 ⟨⟨_, hq, h⟩, rfl⟩, rfl⟩
  | other h₁ h₂ h₃ h₄ =>
    unfold readNext applySetting
    split
    · next hname => exact absurd hname h₁
    · next hname => exact absurd hname h₂
    · next hname => exact absurd hname h₃
    · next hname => exact absurd hname h₄
    · rfl

/-- **A setting is read as the change that its name and its value stand for.** -/
theorem readAs_sets : ReadAs (readNext (K := K)) Sets where
  eq_ok := by
    refine ⟨exists_sets, ?_⟩
    rintro ⟨f, hf, rfl⟩
    exact hf.readNext_eq _
  comm hf hg hne c := by
    cases hf <;> cases hg <;> first | rfl | exact absurd rfl hne

/-! ## Which settings are refused -/

/-- **A setting is refused exactly where its name does not admit its value.** -/
theorem admits_iff : Admits a ↔ ∃ f : SolverOptions K → SolverOptions K, Sets a f := by
  obtain ⟨name, v⟩ := a
  constructor
  · rintro ⟨h₁, h₂, h₃, h₄⟩
    by_cases hn₁ : name = "Max_Iteration"
    · obtain ⟨n, h⟩ := h₁ hn₁
      subst hn₁
      exact ⟨_, .maxIterations h⟩
    by_cases hn₂ : name = "Tolerance"
    · obtain ⟨q, hq, h⟩ := h₂ hn₂
      subst hn₂
      exact ⟨_, .tolerance hq h⟩
    by_cases hn₃ : name = "LineSearch_LS"
    · obtain ⟨kind, h⟩ := h₃ hn₃
      subst hn₃
      exact ⟨_, .lineSearch h⟩
    by_cases hn₄ : name = "Initstepsize"
    · obtain ⟨q, hq, h⟩ := h₄ hn₄
      subst hn₄
      exact ⟨_, .initialStep hq h⟩
    · exact ⟨_, .other hn₁ hn₂ hn₃ hn₄⟩
  · rintro ⟨f, hf⟩
    constructor <;> intro hname
    · cases hf with
      | maxIterations h => exact ⟨_, h⟩
      | other h => exact absurd hname h
      | _ => simp at hname
    · cases hf with
      | tolerance hq h => exact ⟨_, hq, h⟩
      | other _ h => exact absurd hname h
      | _ => simp at hname
    · cases hf with
      | lineSearch h => exact ⟨_, h⟩
      | other _ _ h => exact absurd hname h
      | _ => simp at hname
    · cases hf with
      | initialStep hq h => exact ⟨_, hq, h⟩
      | other _ _ _ h => exact absurd hname h
      | _ => simp at hname

/-! ## Reading all -/

theorem applySettings_cons : applySettings (a :: settings) c = match c.readNext a with
    | .ok d => applySettings settings d
    | .error e => (.error e, c) := by
  show ((do
    let c ← (← get).readNext a
    set c
    applySettings settings : ExceptT (SolverError K) (StateM (SolverOptions K)) Unit) c) = _
  rw [get_bind_apply, bind_apply, lift_apply]
  cases c.readNext a <;> rfl

theorem applySettings_eq_ok :
    applySettings settings c = (.ok (), c') ↔ settings.foldlM readNext c = .ok c' := by
  induction settings generalizing c with
  | nil =>
    show (pure () : ExceptT (SolverError K) (StateM (SolverOptions K)) Unit) c = _ ↔
      Except.ok c = .ok c'
    rw [pure_apply, ok_eq_ok, Except.ok.injEq]
    exact and_iff_right rfl
  | cons a rest ih =>
    rw [applySettings_cons, List.foldlM_cons]
    cases c.readNext a with
    | ok d => exact ih
    | error e => exact ⟨nofun, nofun⟩

theorem applySettings_fst : (applySettings settings c).1 = .ok () ↔ ∀ a ∈ settings, Admits a := by
  simp only [admits_iff (K := K), ← readAs_sets.exists_foldlM (c := c), ← applySettings_eq_ok]
  exact ⟨fun h => ⟨_, Prod.ext h rfl⟩, fun ⟨_, h⟩ => congrArg Prod.fst h⟩

theorem applySettings_of_idle (h : ∀ a ∈ settings, ∀ d, c.readNext a = .ok d → d = c) :
    (applySettings settings c).2 = c := by
  induction settings with
  | nil => rfl
  | cons a rest ih =>
    obtain ⟨ha, hrest⟩ := List.forall_mem_cons.1 h
    rw [applySettings_cons]
    cases hread : c.readNext a with
    | ok d => exact (ha d hread).symm ▸ ih hrest
    | error e => rfl

/-- A setting that changes the options and one that is refused, read first in this order. -/
theorem exists_order {d : SolverOptions K} (ha : a ∈ settings) (hb : b ∈ settings)
    (hread : c.readNext a = .ok d) (hrefused : ¬ Admits b) :
    ∃ order, order.Perm settings ∧ (applySettings order c).1 ≠ .ok () ∧
      (applySettings order c).2 = d := by
  have hfault (c : SolverOptions K) : ∃ e, c.readNext b = .error e :=
    readAs_sets.exists_error (fun h => hrefused (admits_iff.2 h)) c
  obtain ⟨before, after, rfl⟩ := List.append_of_mem ha
  have hmem : b ∈ before ++ after := by
    rcases List.mem_append.1 hb with h | h
    · exact List.mem_append_left _ h
    · rcases List.mem_cons.1 h with rfl | h
      · obtain ⟨e, he⟩ := hfault c
        cases hread.symm.trans he
      · exact List.mem_append_right _ h
  obtain ⟨before', after', hrest⟩ := List.append_of_mem hmem
  obtain ⟨e, he⟩ := hfault d
  have hrun : applySettings (a :: b :: (before' ++ after')) c = (.error e, d) := by
    rw [applySettings_cons, hread]
    show applySettings (b :: (before' ++ after')) d = _
    rw [applySettings_cons, he]
  refine ⟨a :: b :: (before' ++ after'), ?_, ?_, ?_⟩
  · refine .trans (.cons a ?_) List.perm_middle.symm
    rw [hrest]
    exact List.perm_middle.symm
  · rw [hrun]
    nofun
  · rw [hrun]

/-- **Which settings are refused, and when their order shows**: a refusal may leave some applied. -/
theorem applySettings_orderly (hdistinct : (settings.map Prod.fst).Nodup) (c : SolverOptions K) :
    (∀ order, order.Perm settings →
      ((applySettings order c).1 = .ok () ↔ ∀ a ∈ settings, Admits a)) ∧
    ((∀ order order', order.Perm settings → order'.Perm settings →
        (applySettings order c).2 = (applySettings order' c).2 ∧
        ((applySettings order c).1 ≠ .ok () → (applySettings order c).2 = c)) ↔
      (∀ a ∈ settings, Admits a) ∨
        ∀ a ∈ settings, ∀ d, c.applySetting a.1 a.2 = .ok d → d = c) := by
  refine ⟨fun order hperm => ?_, fun h => ?_, ?_⟩
  · rw [applySettings_fst]
    exact forall_congr' fun a => imp_congr_left hperm.mem_iff
  · by_contra hnot
    push Not at hnot
    obtain ⟨⟨b, hb, hrefused⟩, a, ha, d, hread, hne⟩ := hnot
    obtain ⟨order, hperm, hfault, hend⟩ := exists_order ha hb hread hrefused
    exact hne (hend.symm.trans ((h order order hperm hperm).2 hfault))
  · rintro (hall | hidle) order order' hperm hperm'
    · obtain ⟨c', hc'⟩ :=
        (readAs_sets.exists_foldlM (c := c)).2 fun a ha => admits_iff.1 (hall a ha)
      have hread {order : Settings} (hperm : order.Perm settings) :
          applySettings order c = (.ok (), c') :=
        applySettings_eq_ok.2 (readAs_sets.foldlM_perm hperm.symm hdistinct hc')
      rw [hread hperm, hread hperm']
      exact ⟨rfl, fun h => absurd rfl h⟩
    · have hstays {order : Settings} (hperm : order.Perm settings) :
          (applySettings order c).2 = c :=
        applySettings_of_idle fun a ha => hidle a (hperm.mem_iff.1 ha)
      rw [hstays hperm, hstays hperm']
      exact ⟨rfl, fun _ => rfl⟩

/-- Settings that are all read: a number of iterations beyond all counts, the code of a kind of
search as a negative zero, and no number under a name that means nothing to a solver. -/
def readSettings : Settings :=
  [("Max_Iteration", 1e300), ("LineSearch_LS", -0.0), ("ManDim", 0.0 / 0.0)]

theorem applySettings_orderly_read : (readSettings.map Prod.fst).Nodup ∧
    ∀ order, order.Perm readSettings →
      (applySettings order ({} : SolverOptions Float)).1 = .ok () ∧
      (applySettings order ({} : SolverOptions Float)).2.criterion.maxIterations =
        some maxCount ∧
      (applySettings order ({} : SolverOptions Float)).2.lineSearch = .armijo := by
  have hdistinct : (readSettings.map Prod.fst).Nodup := by decide
  obtain ⟨hrefused, hsame⟩ := applySettings_orderly hdistinct ({} : SolverOptions Float)
  have hall : ∀ a ∈ readSettings, Admits a := by
    obtain ⟨n, hn⟩ : ∃ n, Double.natural? 1e300 = some n :=
      Option.isSome_iff_exists.1 (by decide +kernel)
    have hcode : Double.natural? (-0.0) = some SearchKind.armijo.code := by decide +kernel
    simp only [readSettings, List.forall_mem_cons, admits_iff (K := Float)]
    refine ⟨⟨_, .maxIterations (Double.natural?_eq_some.1 hn)⟩,
      ⟨_, .lineSearch (Double.natural?_eq_some.1 hcode)⟩,
      ⟨_, .other ?_ ?_ ?_ ?_⟩, nofun⟩ <;> decide
  refine ⟨hdistinct, fun order hperm => ⟨(hrefused order hperm).2 hall, ?_⟩⟩
  rw [((hsame.2 (.inl hall)) order readSettings hperm (.refl _)).1]
  decide +kernel

/-- A setting that changes the usual options, and one that is refused. -/
def mixedSettings : Settings := [("Max_Iteration", 5.0), ("Tolerance", -1.0)]

/-- **A setting that comes before a refusal is read, and one that comes after it is not.** -/
theorem applySettings_order_shows : (mixedSettings.map Prod.fst).Nodup ∧
    mixedSettings.reverse.Perm mixedSettings ∧
    (applySettings mixedSettings ({} : SolverOptions Float)).1 ≠ .ok () ∧
    (applySettings mixedSettings.reverse ({} : SolverOptions Float)).1 ≠ .ok () ∧
    ({} : SolverOptions Float).criterion.maxIterations = some 1000 ∧
    (applySettings mixedSettings ({} : SolverOptions Float)).2.criterion.maxIterations = some 5 ∧
    (applySettings mixedSettings.reverse
      ({} : SolverOptions Float)).2.criterion.maxIterations = some 1000 := by
  have hrefused : ¬ Admits ("Tolerance", -1.0) := by
    intro h
    have hpos : (-1.0 : Float).isFinite = true ∧ (0.0 : Float) < -1.0 :=
      Double.isFinite_and_pos_iff.2 (h.tolerance rfl)
    exact absurd hpos (by decide +kernel)
  refine ⟨by decide, List.reverse_perm _, ?_, ?_, rfl, by decide +kernel, by decide +kernel⟩
  · exact fun h => hrefused (applySettings_fst.1 h _ (by simp [mixedSettings]))
  · exact fun h => hrefused (applySettings_fst.1 h _ (by simp [mixedSettings]))

end SolverOptions

end GeodesicDescent
