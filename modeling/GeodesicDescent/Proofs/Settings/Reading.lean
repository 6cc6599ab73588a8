import Mathlib.Data.List.Nodup
import Mathlib.Data.List.Perm.Basic
import GeodesicDescent.Proofs.Double
import GeodesicDescent.Proofs.Stateful
import GeodesicDescent.Solver.Options

/-!
# Settings one after the other

Settings are read in some order, each into what the ones before have led to. A setting stands for a
change by its name and its value, whatever was read before it, and changes of different names may
change places. So the order of settings does not matter as long as none is refused, and which are
refused does not depend on it.

* `readCount_eq_ok`, `readPositive_eq_ok`: the doubles that are read;
* `ReadAs`: settings are read as changes that may change places;
* **`ReadAs.foldlM_perm`**: the order in which settings are read does not matter;
* **`ReadAs.exists_foldlM`**: all settings are read where each stands for a change;
* `ReadAs.exists_last`: any of the settings may be taken for the last one;
* `foldlM_keeps`: what each setting keeps, reading all of them keeps.
-/

namespace GeodesicDescent

open Stateful

/-! ## Single values -/

section Values

variable {K : Type} {name : String} {v : Float}

/-- A count is read where the double stands for a natural number; a larger one than the largest
counts as the largest. -/
theorem readCount_eq_ok {k : Nat} : (readCount name v : Except (SolverError K) Nat) = .ok k ↔
    ∃ n : Nat, Double.value? v = some (n : ℚ) ∧ min n maxCount = k := by
  simp only [← Double.natural?_eq_some]
  unfold readCount
  cases Double.natural? v with
  | none => exact iff_of_false nofun (by rintro ⟨n, ⟨⟩, -⟩)
  | some n => simp

theorem readCount_eq_ok_of_lt {k : Nat} (hk : k < maxCount) :
    (readCount name v : Except (SolverError K) Nat) = .ok k ↔ Double.value? v = some (k : ℚ) := by
  rw [readCount_eq_ok]
  constructor
  · rintro ⟨n, hn, hmin⟩
    obtain rfl : n = k := by omega
    exact hn
  · exact fun h => ⟨k, h, min_eq_left hk.le⟩

theorem readPositive_eq_ok {w : Float} :
    (readPositive name v : Except (SolverError K) Float) = .ok w ↔
      (∃ q, 0 < q ∧ Double.value? v = some q) ∧ v = w := by
  unfold readPositive
  rw [← Double.isFinite_and_pos_iff]
  split_ifs with h
  · simp [h]
  · exact iff_of_false nofun fun h' => h h'.1

end Values

/-! ## Any order -/

section Order

variable {σ ε : Type} {step : σ → String × Float → Except ε σ} {a : String × Float}
variable {changes : String × Float → (σ → σ) → Prop} {settings order : Settings} {c c' : σ}

theorem foldlM_cons_eq_ok : (a :: settings).foldlM step c = .ok c' ↔
    ∃ d, step c a = .ok d ∧ settings.foldlM step d = .ok c' := by
  rw [List.foldlM_cons]
  exact checked_bind_eq_ok

theorem foldlM_keeps {P : σ → Prop}
    (h : ∀ a ∈ settings, ∀ c d, step c a = .ok d → P c → P d)
    (hread : settings.foldlM step c = .ok c') (hc : P c) : P c' := by
  induction settings generalizing c with
  | nil =>
    cases hread
    exact hc
  | cons a rest ih =>
    obtain ⟨d, ha, hrest⟩ := foldlM_cons_eq_ok.1 hread
    obtain ⟨hfirst, hkeeps⟩ := List.forall_mem_cons.1 h
    exact ih hkeeps hrest (hfirst c d ha hc)

/-- A setting is read as a change that it stands for, whatever was read before. Changes of settings
with different names may change places. -/
structure ReadAs (step : σ → String × Float → Except ε σ)
    (changes : String × Float → (σ → σ) → Prop) : Prop where
  eq_ok : ∀ {a c c'}, step c a = .ok c' ↔ ∃ f, changes a f ∧ f c = c'
  comm : ∀ {a b f g}, changes a f → changes b g → a.1 ≠ b.1 → ∀ c, f (g c) = g (f c)

namespace ReadAs

variable (h : ReadAs step changes)

include h

theorem exists_error (ha : ¬ ∃ f, changes a f) (c : σ) : ∃ e, step c a = .error e := by
  cases hread : step c a with
  | ok d =>
    obtain ⟨f, hf, -⟩ := h.eq_ok.1 hread
    exact absurd ⟨f, hf⟩ ha
  | error e => exact ⟨e, rfl⟩

/-- **The settings are all read exactly where each of them stands for a change.** -/
theorem exists_foldlM : (∃ c', settings.foldlM step c = .ok c') ↔
    ∀ a ∈ settings, ∃ f, changes a f := by
  induction settings generalizing c with
  | nil => exact iff_of_true ⟨c, rfl⟩ nofun
  | cons a rest ih =>
    rw [List.forall_mem_cons]
    simp only [foldlM_cons_eq_ok, h.eq_ok]
    constructor
    · rintro ⟨c', _, ⟨f, hf, rfl⟩, hrest⟩
      exact ⟨⟨f, hf⟩, ih.1 ⟨c', hrest⟩⟩
    · rintro ⟨⟨f, hf⟩, hrest⟩
      obtain ⟨c', hc'⟩ := (ih (c := f c)).2 hrest
      exact ⟨c', f c, ⟨f, hf, rfl⟩, hc'⟩

/-- **The order of settings with different names does not matter.** -/
theorem foldlM_perm (hperm : settings.Perm order) (hdistinct : (settings.map Prod.fst).Nodup)
    (hread : settings.foldlM step c = .ok c') : order.foldlM step c = .ok c' := by
  induction hperm generalizing c with
  | nil => exact hread
  | cons a _ ih =>
    obtain ⟨d, ha, hrest⟩ := foldlM_cons_eq_ok.1 hread
    exact foldlM_cons_eq_ok.2 ⟨d, ha, ih (List.nodup_cons.1 hdistinct).2 hrest⟩
  | swap a b rest =>
    obtain ⟨_, hb, hrest⟩ := foldlM_cons_eq_ok.1 hread
    obtain ⟨_, ha, hrest⟩ := foldlM_cons_eq_ok.1 hrest
    obtain ⟨g, hg, rfl⟩ := h.eq_ok.1 hb
    obtain ⟨f, hf, rfl⟩ := h.eq_ok.1 ha
    have hne : a.1 ≠ b.1 := fun heq =>
      (List.nodup_cons.1 hdistinct).1 (by rw [← heq]; exact List.mem_cons_self)
    rw [h.comm hf hg hne] at hrest
    exact foldlM_cons_eq_ok.2
      ⟨f c, h.eq_ok.2 ⟨f, hf, rfl⟩, foldlM_cons_eq_ok.2 ⟨_, h.eq_ok.2 ⟨g, hg, rfl⟩, hrest⟩⟩
  | trans h₁ _ ih₁ ih₂ =>
    exact ih₂ ((h₁.map Prod.fst).nodup_iff.1 hdistinct) (ih₁ hdistinct hread)

theorem exists_last (ha : a ∈ settings) (hdistinct : (settings.map Prod.fst).Nodup)
    (hread : settings.foldlM step c = .ok c') : ∃ d, step d a = .ok c' := by
  obtain ⟨before, after, rfl⟩ := List.append_of_mem ha
  have hlast : (before ++ a :: after).Perm (before ++ after ++ [a]) :=
    List.perm_middle.trans (List.perm_append_singleton a _).symm
  have hend := h.foldlM_perm hlast hdistinct hread
  rw [List.foldlM_append] at hend
  obtain ⟨d, -, hd⟩ := checked_bind_eq_ok.1 hend
  obtain ⟨_, hstep, hdone⟩ := foldlM_cons_eq_ok.1 hd
  cases hdone
  exact ⟨d, hstep⟩

end ReadAs

end Order

end GeodesicDescent
