import Mathlib.Data.Nat.Find
import Mathlib.Order.Bounds.Defs
import GeodesicDescent.LineSearch.Backtracking
import GeodesicDescent.Manifold.Flat
import GeodesicDescent.Proofs.Exact
import GeodesicDescent.Proofs.LineSearch.Decrease

/-!
# Backtracking takes the first step that is low enough

Along a direction on which every call succeeds, and answers alike whenever it is asked, the steps
that backtracking tries are known beforehand. The search walks through them in order. It takes the
first of them that is low enough, and fails after the last of them otherwise.

* `SearchParams.stepAt`, `SearchParams.Tries`: the steps in order, and how many of them are tried
  as long as none is taken;
* `Backtracking.Answers`: what is answered along a direction;
* `Backtracking.tested`: the workspace after the first steps were tested;
* `trySteps_of_low`, `trySteps_of_short`, `trySteps_of_long`: the three ends of one test;
* `trySteps_skips`, `trySteps_fails`: the tests up to a step, none of them passed, and all tests;
* **`search_first`**: which step is taken, and how the search fails.
-/

namespace GeodesicDescent

open Stateful

variable {K σ : Type} [Scalar K]

namespace SearchParams

variable (params : SearchParams K)

/-- The steps of backtracking in order: the first step, and what is left of the step before. -/
def stepAt : Nat → K
  | 0 => params.firstStep
  | k + 1 => stepAt k * params.rho

/-- A step is tried if none before it is taken: the budget reaches that far, and no step up to
there is shorter than the least. The first step is not compared with the least. -/
def Tries (k : Nat) : Prop :=
  k < params.maxIterations ∧ ∀ j, 1 ≤ j → j ≤ k → ¬ params.stepAt j < params.minStep

/-- The value `φ` at the `k`-th step is low enough. -/
def LowAt (value slope : K) (φ : K → K) (k : Nat) : Prop :=
  params.LowEnough value slope (params.stepAt k) (φ (params.stepAt k))

instance Tries.decidable (k : Nat) : Decidable (params.Tries k) :=
  inferInstanceAs (Decidable (_ ∧ _))

instance LowAt.decidable (value slope : K) (φ : K → K) (k : Nat) :
    Decidable (params.LowAt value slope φ k) :=
  inferInstanceAs (Decidable (params.LowEnough ..))

variable {params}

theorem Tries.of_le {j k : Nat} (h : params.Tries k) (hj : j ≤ k) : params.Tries j :=
  ⟨Nat.lt_of_le_of_lt hj h.1, fun i hi hij => h.2 i hi (Nat.le_trans hij hj)⟩

theorem tries_succ {k : Nat} : params.Tries (k + 1) ↔
    k + 1 < params.maxIterations ∧ params.Tries k ∧ ¬ params.stepAt (k + 1) < params.minStep := by
  constructor
  · intro h
    exact ⟨h.1, h.of_le k.le_succ, h.2 (k + 1) (by omega) le_rfl⟩
  · rintro ⟨hbudget, h, hlong⟩
    refine ⟨hbudget, fun j hj hjk => ?_⟩
    rcases Nat.le_succ_iff.1 hjk with hjk | rfl
    · exact h.2 j hj hjk
    · exact hlong

theorem exists_tries_iff (params : SearchParams K) : ∃ n, ∀ j, params.Tries j ↔ j < n := by
  classical
  have hend : ∃ n, ¬ params.Tries n := ⟨params.maxIterations, fun h => lt_irrefl _ h.1⟩
  refine ⟨Nat.find hend, fun j => ⟨fun h => ?_, fun h => not_not.1 (Nat.find_min hend h)⟩⟩
  by_contra hj
  exact Nat.find_spec hend (h.of_le (not_lt.1 hj))

end SearchParams

namespace Backtracking

/-- Along a direction every call succeeds: the point that a step leads to, the value there, and the
value and the gradient that are evaluated where a step is taken. The answers do not depend on what
was asked before. -/
structure Answers (p : Problem K σ) (point direction : Vec K) (curve : K → Vec K) (φ : K → K)
    (found : K → K × Vec K) : Prop where
  retract : ∀ a, p.manifold.retract point (Vec.scale direction a) = .ok (curve a)
  eval : ∀ a o, (p.objective.eval (curve a) o).1 = .ok (φ a)
  evaluate : ∀ a w, (p.evaluate (curve a) w).1 = .ok (found a)

/-- The workspace after the first steps were tested, one evaluation of the objective each. -/
def tested (p : Problem K σ) (params : SearchParams K) (curve : K → Vec K) (w : Workspace K σ) :
    Nat → Workspace K σ
  | 0 => w
  | n + 1 =>
    let before := tested p params curve w n
    { before with objective := (p.objective.eval (curve (params.stepAt n)) before.objective).2 }

/-- The step taken after `k` others. -/
def acceptedAt (params : SearchParams K) (curve : K → Vec K) (found : K → K × Vec K) (k : Nat) :
    Accepted K where
  step := params.stepAt k
  point := curve (params.stepAt k)
  value := (found (params.stepAt k)).1
  gradient := (found (params.stepAt k)).2
  functionEvaluations := k + 2
  gradientEvaluations := 1

variable {p : Problem K σ} {params : SearchParams K} {point gradient direction : Vec K}
variable {value slope : K} {curve : K → Vec K} {φ : K → K} {found : K → K × Vec K}
variable {w : Workspace K σ} {budget k : Nat}

/-! ## One test -/

theorem trySteps_succ (h : Answers p point direction curve φ found) :
    trySteps p params point value slope direction (budget + 1) k (params.stepAt k)
        (tested p params curve w k) =
      (if params.LowAt value slope φ k then do
        let (newValue, newGradient) ← p.evaluate (curve (params.stepAt k))
        return {
          step := params.stepAt k
          point := curve (params.stepAt k)
          value := newValue
          gradient := newGradient
          functionEvaluations := k + 2
          gradientEvaluations := 1 }
      else if params.stepAt (k + 1) < params.minStep then
        throw (failed (k + 1) (params.stepAt (k + 1)) value)
      else trySteps p params point value slope direction budget (k + 1) (params.stepAt (k + 1)) :
        Searching K σ (Accepted K)) (tested p params curve w (k + 1)) := by
  have hpoint : p.trialPoint point direction (params.stepAt k) (tested p params curve w k) =
      (.ok (curve (params.stepAt k)), tested p params curve w k) := by
    rw [Problem.trialPoint, h.retract]
    rfl
  have hvalue : Searching.ofEval (p.objective.eval (curve (params.stepAt k)))
      (tested p params curve w k) =
        (.ok (φ (params.stepAt k)), tested p params curve w (k + 1)) := by
    change (Except.mapError _ (p.objective.eval _ _).1, _) = _
    rw [h.eval]
    rfl
  rw [trySteps, bind_apply, hpoint]
  change (Searching.ofEval _ >>= _) (tested p params curve w k) = _
  rw [bind_apply, hvalue]
  rfl

theorem trySteps_of_low (h : Answers p point direction curve φ found)
    (hlow : params.LowAt value slope φ k) :
    trySteps p params point value slope direction (budget + 1) k (params.stepAt k)
        (tested p params curve w k) = (.ok (acceptedAt params curve found k),
      (p.evaluate (curve (params.stepAt k)) (tested p params curve w (k + 1))).2) := by
  rw [trySteps_succ h, if_pos hlow, bind_apply]
  have hfound := h.evaluate (params.stepAt k) (tested p params curve w (k + 1))
  revert hfound
  rcases p.evaluate (curve (params.stepAt k)) (tested p params curve w (k + 1)) with ⟨r, w'⟩
  rintro (rfl : r = _)
  rfl

theorem trySteps_of_short (h : Answers p point direction curve φ found)
    (hhigh : ¬ params.LowAt value slope φ k)
    (hshort : params.stepAt (k + 1) < params.minStep) :
    trySteps p params point value slope direction (budget + 1) k (params.stepAt k)
        (tested p params curve w k) = (.error (failed (k + 1) (params.stepAt (k + 1)) value),
      tested p params curve w (k + 1)) := by
  rw [trySteps_succ h, if_neg hhigh, if_pos hshort]
  rfl

theorem trySteps_of_long (h : Answers p point direction curve φ found)
    (hhigh : ¬ params.LowAt value slope φ k)
    (hlong : ¬ params.stepAt (k + 1) < params.minStep) :
    trySteps p params point value slope direction (budget + 1) k (params.stepAt k)
        (tested p params curve w k) =
      trySteps p params point value slope direction budget (k + 1) (params.stepAt (k + 1))
        (tested p params curve w (k + 1)) := by
  rw [trySteps_succ h, if_neg hhigh, if_neg hlong]

/-! ## All tests -/

theorem trySteps_skips (h : Answers p point direction curve φ found) (htries : params.Tries k)
    (hhigh : ∀ j < k, ¬ params.LowAt value slope φ j) :
    trySteps p params point value slope direction params.maxIterations 0 params.firstStep w =
      trySteps p params point value slope direction (params.maxIterations - k) k (params.stepAt k)
        (tested p params curve w k) := by
  induction k with
  | zero => rfl
  | succ k ih =>
    obtain ⟨hbudget, hprevious, hlong⟩ := SearchParams.tries_succ.1 htries
    have hsplit : params.maxIterations - k = params.maxIterations - (k + 1) + 1 := by omega
    rw [ih hprevious fun j hj => hhigh j (Nat.lt_succ_of_lt hj), hsplit]
    exact trySteps_of_long h (hhigh k k.lt_succ_self) hlong

/-- Where no step that is tried is low enough, the search fails before the first one that is
not tried. -/
theorem trySteps_fails {n : Nat} (h : Answers p point direction curve φ found)
    (htries : ∀ j, params.Tries j ↔ j < n)
    (hhigh : ∀ j < n, ¬ params.LowAt value slope φ j) :
    trySteps p params point value slope direction params.maxIterations 0 params.firstStep w =
      (.error (failed n (params.stepAt n) value), tested p params curve w n) := by
  cases n with
  | zero =>
    have hnone : params.maxIterations = 0 := by
      by_contra hsome
      exact Nat.not_lt_zero 0 ((htries 0).1 ⟨by omega, fun j hj hj0 => by omega⟩)
    rw [hnone]
    rfl
  | succ m =>
    have hlast : params.Tries m := (htries m).2 m.lt_succ_self
    have hnext : ¬ params.Tries (m + 1) := fun hm => lt_irrefl _ ((htries (m + 1)).1 hm)
    have hsplit : params.maxIterations - m = params.maxIterations - (m + 1) + 1 := by
      have := hlast.1
      omega
    have hhigh_m := hhigh m m.lt_succ_self
    rw [trySteps_skips h hlast fun j hj => hhigh j (Nat.lt_succ_of_lt hj), hsplit]
    by_cases hshort : params.stepAt (m + 1) < params.minStep
    · exact trySteps_of_short h hhigh_m hshort
    · -- the next step is long enough, so that the budget is used up
      have hspent : params.maxIterations - (m + 1) = 0 := by
        by_contra hleft
        exact hnext (SearchParams.tries_succ.2 ⟨by omega, hlast, hshort⟩)
      rw [trySteps_of_long h hhigh_m hshort, hspent]
      rfl

/-! ## A whole search -/

theorem search_eq_trySteps (hslope : p.manifold.inner point gradient direction = .ok slope)
    (hdown : ¬ 0 ≤ slope) : search p params point value gradient direction w =
      trySteps p params point value slope direction params.maxIterations 0 params.firstStep w := by
  rw [search, bind_apply, Problem.downhillSlope_eq_ok.2 ⟨hslope, hdown, rfl⟩]

section

variable (h : Answers p point direction curve φ found)
variable (hslope : p.manifold.inner point gradient direction = .ok slope) (hdown : ¬ 0 ≤ slope)
include h hslope hdown

theorem search_of_isLeast
    (hk : IsLeast {k | params.Tries k ∧ params.LowAt value slope φ k} k) :
    search p params point value gradient direction w = (.ok (acceptedAt params curve found k),
      (p.evaluate (curve (params.stepAt k)) (tested p params curve w (k + 1))).2) := by
  obtain ⟨⟨htries, hlow⟩, hleast⟩ := hk
  have hhigh (j : Nat) (hj : j < k) : ¬ params.LowAt value slope φ j := fun hlow =>
    Nat.not_le.2 hj (hleast ⟨htries.of_le (Nat.le_of_lt hj), hlow⟩)
  have hsplit : params.maxIterations - k = params.maxIterations - (k + 1) + 1 := by
    have := htries.1
    omega
  rw [search_eq_trySteps hslope hdown, trySteps_skips h htries hhigh, hsplit]
  exact trySteps_of_low h hlow

theorem search_of_none (hnone : ¬ ∃ k, params.Tries k ∧ params.LowAt value slope φ k) :
    ∃ n, (∀ j, params.Tries j ↔ j < n) ∧
      search p params point value gradient direction w =
        (.error (failed n (params.stepAt n) value), tested p params curve w n) := by
  obtain ⟨n, hn⟩ := params.exists_tries_iff
  refine ⟨n, hn, ?_⟩
  rw [search_eq_trySteps hslope hdown]
  exact trySteps_fails h hn fun j hj hlow => hnone ⟨j, (hn j).2 hj, hlow⟩

end

/-- **The first step that is low enough is taken**, in any arithmetic; where none is, the search
fails. -/
theorem search_first (h : Answers p point direction curve φ found)
    (hslope : p.manifold.inner point gradient direction = .ok slope) (hdown : ¬ 0 ≤ slope)
    (w : Workspace K σ) :
    ((∃ a, (search p params point value gradient direction w).1 = .ok a) ↔
      ∃ k, params.Tries k ∧ params.LowAt value slope φ k) ∧
    (∀ k, IsLeast {k | params.Tries k ∧ params.LowAt value slope φ k} k →
      search p params point value gradient direction w = (.ok (acceptedAt params curve found k),
        (p.evaluate (curve (params.stepAt k)) (tested p params curve w (k + 1))).2)) ∧
    ((¬ ∃ k, params.Tries k ∧ params.LowAt value slope φ k) →
      ∃ n, (∀ j, params.Tries j ↔ j < n) ∧
        search p params point value gradient direction w =
          (.error (failed n (params.stepAt n) value), tested p params curve w n)) := by
  refine ⟨⟨?_, ?_⟩, fun k => search_of_isLeast h hslope hdown, search_of_none h hslope hdown⟩
  · rintro ⟨a, ha⟩
    by_contra hnone
    obtain ⟨n, -, hfails⟩ := search_of_none (w := w) h hslope hdown hnone
    rw [hfails] at ha
    cases ha
  · intro hsome
    have hleast : IsLeast {k | params.Tries k ∧ params.LowAt value slope φ k}
        (Nat.find hsome) := ⟨Nat.find_spec hsome, fun k hk => Nat.find_min' hsome hk⟩
    exact ⟨_, congrArg Prod.fst (search_of_isLeast h hslope hdown hleast)⟩

/-- Half the square, on the line. -/
def lineBowl : Problem ℚ Unit where
  objective := (Quadratic.simple 1).objective
  manifold := Flat.manifold ⟨1⟩
  usage := .firstOrder

/-- The point that a step from one leads to; a step of one third reaches the bottom. -/
def lineCurve (a : ℚ) : Vec ℚ := [1 + -3 * a]

/-- The value after a step. -/
def lineValue (a : ℚ) : ℚ := (Quadratic.simple 1).valueAt (lineCurve a)

/-- Value and gradient after a step. -/
def lineFound (a : ℚ) : ℚ × Vec ℚ := (lineValue a, [1 * 1 * (1 + -3 * a) + 0])

theorem answers_lineBowl : Answers lineBowl [1] [-3] lineCurve lineValue lineFound where
  retract _ := rfl
  eval _ _ := rfl
  evaluate _ _ := rfl

/-- The usual choice, with a budget of two steps. -/
def twoSteps : SearchParams ℚ := { SearchParams.backtracking with maxIterations := 2 }

/-- The first two steps go too far. With a budget of two the search fails before the third, which
it takes otherwise. -/
theorem search_first_lineBowl :
    (search lineBowl .backtracking [1] (1 / 2) [1] [-3] { objective := () }).1 =
      .ok (acceptedAt .backtracking lineCurve lineFound 2) ∧
    (search lineBowl twoSteps [1] (1 / 2) [1] [-3] { objective := () }).1 =
      .error (failed 2 (twoSteps.stepAt 2) (1 / 2)) := by
  have hslope : lineBowl.manifold.inner [1] [1] [-3] = .ok (-3) :=
    eq_ok_of_yields (by decide +kernel)
  have hdown : ¬ (0 : ℚ) ≤ -3 := by norm_num
  constructor
  · have hhigh : ∀ j < 2, ¬ SearchParams.backtracking.LowAt (1 / 2) (-3) lineValue j := by
      decide +kernel
    have hleast : IsLeast {k | (SearchParams.backtracking : SearchParams ℚ).Tries k ∧
        SearchParams.backtracking.LowAt (1 / 2) (-3) lineValue k} 2 := by
      refine ⟨by decide +kernel, fun k hk => ?_⟩
      by_contra hless
      exact hhigh k (not_le.1 hless) hk.2
    have hfound := (search_first answers_lineBowl hslope hdown { objective := () }).2.1 2 hleast
    exact congrArg Prod.fst hfound
  · have hhigh : ∀ j < 2, ¬ twoSteps.LowAt (1 / 2) (-3) lineValue j := by decide +kernel
    have hnone : ¬ ∃ k, twoSteps.Tries k ∧ twoSteps.LowAt (1 / 2) (-3) lineValue k :=
      fun ⟨k, htries, hlow⟩ => hhigh k htries.1 hlow
    obtain ⟨n, hn, hfailed⟩ :=
      (search_first answers_lineBowl hslope hdown { objective := () }).2.2 hnone
    have hone : 1 < n := (hn 1).1 (by decide +kernel)
    have htwo : ¬ 2 < n := mt (hn 2).2 fun h => absurd h.1 (by decide)
    obtain rfl : n = 2 := by omega
    exact congrArg Prod.fst hfailed

end Backtracking

end GeodesicDescent
