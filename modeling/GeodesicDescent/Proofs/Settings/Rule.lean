import GeodesicDescent.Direction.CGConfig
import GeodesicDescent.Proofs.Settings.Reading

/-!
# The settings of the conjugate gradient rule

The configuration of the rule is read all or not at all, in whatever order its settings come. The
period is any number of iterations but none, as large as it may be, and the method is given by its
code; no other number is read under either name, and other names are passed over.

* `CGMethod.ofCode_eq_ok`: the codes of the methods;
* `Sets`, **`readAs_sets`**: what one setting does to the configuration;
* `Admissible`: the settings that can be read into a configuration;
* `ReadInto`: the configurations that settings lead to;
* `admissible_iff`, **`readInto_of_foldlM`**: how reading all settings ends;
* **`readSettings_atomic`**: the rule reads its settings all or not at all.
-/

namespace GeodesicDescent

open Stateful

theorem CGMethod.ofCode_eq_ok {K : Type} {v : Float} {m : CGMethod} :
    (CGMethod.ofCode v : Except (SolverError K) CGMethod) = .ok m ↔
      Double.value? v = some (m.code : ℚ) := by
  have hlt : m.code < maxCount := by cases m <;> decide
  rw [← readCount_eq_ok_of_lt hlt, ofCode, checked_bind_eq_ok]
  constructor
  · rintro ⟨k, hk, h⟩
    have hmethod : m.code = k := by
      split at h
      · next hfound =>
        cases h
        have hlt : m.code < all.length := by cases m <;> decide
        exact (List.getElem?_inj hlt (by decide)).1 (m.getElem?_all_code.trans hfound.symm)
      · cases h
    rwa [← hmethod] at hk
  · intro h
    refine ⟨m.code, h, ?_⟩
    rw [m.getElem?_all_code]
    rfl

theorem CGMethod.code_inj {m m' : CGMethod} (h : m.code = m'.code) : m = m' := by
  have hfound := m.getElem?_all_code
  rw [h, m'.getElem?_all_code, Option.some_inj] at hfound
  exact hfound.symm

theorem CGMethod.code_le (m : CGMethod) : m.code ≤ 5 := by cases m <;> decide

theorem CGMethod.exists_code {k : Nat} (h : k ≤ 5) : ∃ m : CGMethod, m.code = k := by
  have hlt : k < all.length := Nat.lt_succ_of_le h
  refine ⟨all[k], ?_⟩
  revert k
  decide

namespace CGConfig

/-- What a setting does to the configuration: two names set a field each, and no other name does. -/
inductive Sets : String × Float → (CGConfig → CGConfig) → Prop
  | period {v : Float} {n : Nat} (h : Double.value? v = some (n : ℚ)) :
    Sets ("ManDim", v) fun c => { c with restartPeriod := min n maxCount }
  | method {v : Float} {m : CGMethod} (h : Double.value? v = some (m.code : ℚ)) :
    Sets ("RCGmethod", v) fun c => { c with method := m }
  | other {name : String} {v : Float} (h₁ : name ≠ "ManDim") (h₂ : name ≠ "RCGmethod") :
    Sets (name, v) id

variable {K : Type}

/-- The configuration after one more setting. -/
abbrev readNext (c : CGConfig) (a : String × Float) : Except (SolverError K) CGConfig :=
  c.applySetting a.1 a.2

variable {c c' : CGConfig} {a : String × Float} {settings : Settings} {f : CGConfig → CGConfig}

theorem readNext_period {v : Float} :
    (c.readNext ("ManDim", v) : Except (SolverError K) CGConfig) = .ok c' ↔
      ∃ n : Nat, Double.value? v = some (n : ℚ) ∧
        { c with restartPeriod := min n maxCount } = c' := by
  show (readCount "ManDim" v >>= fun n => _) = _ ↔ _
  rw [checked_bind_eq_ok]
  constructor
  · rintro ⟨_, hn, ⟨⟩⟩
    obtain ⟨n, hvalue, rfl⟩ := readCount_eq_ok.1 hn
    exact ⟨n, hvalue, rfl⟩
  · rintro ⟨n, hvalue, rfl⟩
    exact ⟨_, readCount_eq_ok.2 ⟨n, hvalue, rfl⟩, rfl⟩

theorem readNext_method {v : Float} :
    (c.readNext ("RCGmethod", v) : Except (SolverError K) CGConfig) = .ok c' ↔
      ∃ m : CGMethod, Double.value? v = some (m.code : ℚ) ∧ { c with method := m } = c' := by
  show (CGMethod.ofCode v >>= fun m => _) = _ ↔ _
  rw [checked_bind_eq_ok]
  simp only [CGMethod.ofCode_eq_ok]
  exact exists_congr fun m => and_congr_right fun _ => Except.ok.injEq .. |>.to_iff

theorem readNext_other {name : String} {v : Float} (h₁ : name ≠ "ManDim")
    (h₂ : name ≠ "RCGmethod") :
    (c.readNext (name, v) : Except (SolverError K) CGConfig) = .ok c := by
  unfold readNext applySetting
  split
  · next hname => exact absurd hname h₁
  · next hname => exact absurd hname h₂
  · rfl

theorem exists_sets {name : String} {v : Float}
    (h : (c.readNext (name, v) : Except (SolverError K) CGConfig) = .ok c') :
    ∃ f, Sets (name, v) f ∧ f c = c' := by
  by_cases h₁ : name = "ManDim"
  · subst h₁
    obtain ⟨n, hn, rfl⟩ := readNext_period.1 h
    exact ⟨_, .period hn, rfl⟩
  by_cases h₂ : name = "RCGmethod"
  · subst h₂
    obtain ⟨m, hm, rfl⟩ := readNext_method.1 h
    exact ⟨_, .method hm, rfl⟩
  · rw [readNext_other h₁ h₂] at h
    cases h
    exact ⟨id, .other h₁ h₂, rfl⟩

theorem Sets.readNext_eq (h : Sets a f) (c : CGConfig) :
    (c.readNext a : Except (SolverError K) CGConfig) = .ok (f c) := by
  cases h with
  | period h => exact readNext_period.2 ⟨_, h, rfl⟩
  | method h => exact readNext_method.2 ⟨_, h, rfl⟩
  | other h₁ h₂ => exact readNext_other h₁ h₂

/-- **A setting is read as the change that its name and its value stand for.** -/
theorem readAs_sets : ReadAs (readNext (K := K)) Sets where
  eq_ok := by
    refine ⟨exists_sets, ?_⟩
    rintro ⟨f, hf, rfl⟩
    exact hf.readNext_eq _
  comm hf hg hne c := by
    cases hf <;> cases hg <;> first | rfl | exact absurd rfl hne

/-! ## Reading all or none -/

/-- The settings that can be read into a configuration. -/
structure Admissible (c : CGConfig) (settings : Settings) : Prop where
  period : ∀ v, ("ManDim", v) ∈ settings → ∃ n : Nat, 1 ≤ n ∧ Double.value? v = some (n : ℚ)
  method : ∀ v, ("RCGmethod", v) ∈ settings → ∃ k : Nat, k ≤ 5 ∧ Double.value? v = some (k : ℚ)
  kept_period : (∀ v, ("ManDim", v) ∉ settings) → c.restartPeriod ≠ 0

/-- What settings lead to: the period and the method that they give, or the ones there were. -/
structure ReadInto (c : CGConfig) (settings : Settings) (c' : CGConfig) : Prop where
  period : ∀ v, ("ManDim", v) ∈ settings → ∀ n : Nat, Double.value? v = some (n : ℚ) →
    c'.restartPeriod = min n maxCount
  kept_period : (∀ v, ("ManDim", v) ∉ settings) → c'.restartPeriod = c.restartPeriod
  method : ∀ v, ("RCGmethod", v) ∈ settings → Double.value? v = some (c'.method.code : ℚ)
  kept_method : (∀ v, ("RCGmethod", v) ∉ settings) → c'.method = c.method

theorem Admissible.perm {order : Settings} (hperm : order.Perm settings)
    (h : Admissible c order) : Admissible c settings where
  period v hv := h.period v (hperm.mem_iff.2 hv)
  method v hv := h.method v (hperm.mem_iff.2 hv)
  kept_period hnone := h.kept_period fun v hv => hnone v (hperm.mem_iff.1 hv)

theorem ReadInto.perm {order : Settings} (hperm : order.Perm settings)
    (h : ReadInto c order c') : ReadInto c settings c' where
  period v hv := h.period v (hperm.mem_iff.2 hv)
  kept_period hnone := h.kept_period fun v hv => hnone v (hperm.mem_iff.1 hv)
  method v hv := h.method v (hperm.mem_iff.2 hv)
  kept_method hnone := h.kept_method fun v hv => hnone v (hperm.mem_iff.1 hv)

theorem Admissible.exists_sets (h : Admissible c settings) (ha : a ∈ settings) :
    ∃ f, Sets a f := by
  obtain ⟨name, v⟩ := a
  by_cases h₁ : name = "ManDim"
  · subst h₁
    obtain ⟨n, -, hn⟩ := h.period v ha
    exact ⟨_, .period hn⟩
  by_cases h₂ : name = "RCGmethod"
  · subst h₂
    obtain ⟨k, hk, hvalue⟩ := h.method v ha
    obtain ⟨m, rfl⟩ := CGMethod.exists_code hk
    exact ⟨_, .method hvalue⟩
  · exact ⟨id, .other h₁ h₂⟩

/-- **Settings with different names lead to what they give, and keep the rest.** -/
theorem readInto_of_foldlM (hdistinct : (settings.map Prod.fst).Nodup)
    (hread : settings.foldlM (readNext (K := K)) c = .ok c') : ReadInto c settings c' where
  period v hv n hn := by
    obtain ⟨d, hd⟩ := readAs_sets.exists_last hv hdistinct hread
    obtain ⟨k, hk, rfl⟩ := readNext_period.1 hd
    rw [hk, Option.some_inj, Nat.cast_inj] at hn
    rw [hn]
  kept_period hnone := by
    refine foldlM_keeps (P := fun d => d.restartPeriod = c.restartPeriod) ?_ hread rfl
    rintro ⟨name, v⟩ ha d d' hstep hd
    obtain ⟨f, hf, rfl⟩ := exists_sets hstep
    cases hf with
    | period => exact absurd ha (hnone _)
    | method => exact hd
    | other => exact hd
  method v hv := by
    obtain ⟨d, hd⟩ := readAs_sets.exists_last hv hdistinct hread
    obtain ⟨m, hm, rfl⟩ := readNext_method.1 hd
    exact hm
  kept_method hnone := by
    refine foldlM_keeps (P := fun d => d.method = c.method) ?_ hread rfl
    rintro ⟨name, v⟩ ha d d' hstep hd
    obtain ⟨f, hf, rfl⟩ := exists_sets hstep
    cases hf with
    | method => exact absurd ha (hnone _)
    | period => exact hd
    | other => exact hd

theorem applySettings_eq_ok :
    (c.applySettings settings : Except (SolverError K) CGConfig) = .ok c' ↔
      settings.foldlM (readNext (K := K)) c = .ok c' ∧ c'.restartPeriod ≠ 0 := by
  unfold applySettings validate
  rw [checked_bind_eq_ok]
  constructor
  · rintro ⟨d, hd, h⟩
    split_ifs at h with hzero
    · cases h
    · cases h
      exact ⟨hd, hzero⟩
  · rintro ⟨hread, hne⟩
    refine ⟨c', hread, ?_⟩
    rw [if_neg hne]
    rfl

theorem readSettings_apply : readSettings (K := K) settings c =
    match c.applySettings settings with
    | .ok c' => (.ok (), c')
    | .error e => (.error e, c) := by
  unfold readSettings
  rw [get_bind_apply, bind_apply, lift_apply]
  cases c.applySettings (K := K) settings <;> rfl

/-- **Settings can be read where the period they lead to is not zero.** -/
theorem admissible_iff (hdistinct : (settings.map Prod.fst).Nodup) : Admissible c settings ↔
    ∃ c', (c.applySettings settings : Except (SolverError K) CGConfig) = .ok c' := by
  simp only [applySettings_eq_ok]
  constructor
  · intro h
    obtain ⟨c', hc'⟩ := (readAs_sets (K := K)).exists_foldlM (c := c) |>.2 fun a => h.exists_sets
    have hinto := readInto_of_foldlM hdistinct hc'
    refine ⟨c', hc', ?_⟩
    by_cases hperiod : ∃ v, ("ManDim", v) ∈ settings
    · obtain ⟨v, hv⟩ := hperiod
      obtain ⟨n, hpos, hn⟩ := h.period v hv
      rw [hinto.period v hv n hn]
      simp only [maxCount, UInt64.size]
      omega
    · rw [not_exists] at hperiod
      rw [hinto.kept_period hperiod]
      exact h.kept_period hperiod
  · rintro ⟨c', hread, hne⟩
    have hinto := readInto_of_foldlM hdistinct hread
    constructor
    · intro v hv
      obtain ⟨d, hd⟩ := readAs_sets.exists_last hv hdistinct hread
      obtain ⟨n, hn, -⟩ := readNext_period.1 hd
      rw [hinto.period v hv n hn] at hne
      exact ⟨n, by omega, hn⟩
    · intro v hv
      exact ⟨_, c'.method.code_le, hinto.method v hv⟩
    · intro hnone
      rwa [← hinto.kept_period hnone]

/-- **The rule reads its settings all or not at all**, in any order. -/
theorem readSettings_atomic {order : Settings} (hdistinct : (settings.map Prod.fst).Nodup)
    (hperm : order.Perm settings) (c : CGConfig) :
    ((readSettings (K := K) order c).1 = .ok () ↔ Admissible c settings) ∧
    ((readSettings (K := K) order c).1 = .ok () →
      ReadInto c settings (readSettings (K := K) order c).2) ∧
    ((readSettings (K := K) order c).1 ≠ .ok () → (readSettings (K := K) order c).2 = c) := by
  have horder : (order.map Prod.fst).Nodup := (hperm.map Prod.fst).nodup_iff.2 hdistinct
  have hadmissible : Admissible c settings ↔
      ∃ c', (c.applySettings order : Except (SolverError K) CGConfig) = .ok c' :=
    ⟨fun h => (admissible_iff horder).1 (h.perm hperm.symm),
      fun h => ((admissible_iff horder).2 h).perm hperm⟩
  rw [readSettings_apply, hadmissible]
  cases hread : c.applySettings (K := K) order with
  | ok c' =>
    have hinto := readInto_of_foldlM horder (applySettings_eq_ok.1 hread).1
    exact ⟨iff_of_true rfl ⟨c', rfl⟩, fun _ => hinto.perm hperm, fun h => absurd rfl h⟩
  | error e => exact ⟨iff_of_false nofun nofun, nofun, fun _ => rfl⟩

/-- A period beyond all counts, the code of a method as a negative zero, and no number under a name
that means nothing to the rule. -/
def ruleSettings : Settings :=
  [("ManDim", 18446744073709551616.0), ("RCGmethod", -0.0), ("Tolerance", 0.0 / 0.0)]

theorem readSettings_atomic_reverse : (ruleSettings.map Prod.fst).Nodup ∧
    ruleSettings.reverse.Perm ruleSettings ∧
    (readSettings (K := Float) ruleSettings.reverse { restartPeriod := 0 }).1 = .ok () ∧
    (readSettings (K := Float) ruleSettings.reverse { restartPeriod := 0 }).2.restartPeriod =
      maxCount ∧
    (readSettings (K := Float) ruleSettings.reverse { restartPeriod := 0 }).2.method =
      .fletcherReeves := by
  have hdistinct : (ruleSettings.map Prod.fst).Nodup := by decide
  have hperm : ruleSettings.reverse.Perm ruleSettings := List.reverse_perm _
  have hperiod : Double.value? 18446744073709551616.0 = some ((UInt64.size : ℕ) : ℚ) :=
    Double.natural?_eq_some.1 (by decide +kernel)
  have hmethod : Double.value? (-0.0) = some ((0 : ℕ) : ℚ) :=
    Double.natural?_eq_some.1 (by decide +kernel)
  have hadmissible : Admissible { restartPeriod := 0 } ruleSettings := by
    constructor
    · intro v hv
      obtain rfl : v = 18446744073709551616.0 := by simpa [ruleSettings] using hv
      exact ⟨_, by decide, hperiod⟩
    · intro v hv
      obtain rfl : v = -0.0 := by simpa [ruleSettings] using hv
      exact ⟨0, by decide, hmethod⟩
    · exact fun hnone => absurd List.mem_cons_self (hnone _)
  obtain ⟨hok, hinto, -⟩ :=
    readSettings_atomic (K := Float) hdistinct hperm { restartPeriod := 0 }
  have hread := hok.2 hadmissible
  refine ⟨hdistinct, hperm, hread, ?_, ?_⟩
  · exact (hinto hread).period _ List.mem_cons_self _ hperiod
  · have hcode := (hinto hread).method _ (List.mem_cons_of_mem _ List.mem_cons_self)
    rw [hmethod, Option.some_inj, Nat.cast_inj] at hcode
    exact CGMethod.code_inj hcode.symm

end CGConfig

end GeodesicDescent
