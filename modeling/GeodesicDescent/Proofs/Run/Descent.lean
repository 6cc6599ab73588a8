import GeodesicDescent.Proofs.LineSearch.Descent
import GeodesicDescent.Proofs.Run.Iterations
import GeodesicDescent.Manifold.Flat

/-!
# Descent along a run

Over an ordered field every accepted step of a run leads downhill, whatever the manifold and the
direction rule are, so that the values at the points of a run fall without exception.

* `Falls`: values that fall from a first to a last one;
* `Running.Descends`: what the history of values shows in every state that a run visits;
* `Running.descends_of_advance`: an accepted step adds a lower value to the history;
* **`Setup.run_descends`**: every accepted step leads downhill, and the history of a run falls from
  the value of the start to that of the result.
-/

namespace GeodesicDescent

variable {K σ ρ : Type}

/-- The values fall from `first` to `last`, the least of them. -/
structure Falls [LinearOrder K] (first last : K) (values : List K) : Prop where
  head_eq : values.head? = some first
  last_eq : values.getLast? = some last
  falling : values.Pairwise (· > ·)
  least : ∀ v ∈ values, last ≤ v

namespace Falls

variable [LinearOrder K] {first last value : K} {values : List K}

theorem single (value : K) : Falls value value [value] where
  head_eq := rfl
  last_eq := rfl
  falling := List.pairwise_singleton _ _
  least _ hv := (List.mem_singleton.1 hv).ge

theorem snoc (h : Falls first last values) (lower : value < last) :
    Falls first value (values ++ [value]) where
  head_eq := by rw [List.head?_append, h.head_eq, Option.some_or]
  last_eq := List.getLast?_concat
  falling := by
    refine List.pairwise_append.2 ⟨h.falling, List.pairwise_singleton _ _, fun v hv v' hv' => ?_⟩
    rw [List.mem_singleton.1 hv']
    exact lower.trans_le (h.least v hv)
  least _ hv := by
    rcases List.mem_append.1 hv with hv | hv
    · exact (lower.trans_le (h.least _ hv)).le
    · exact (List.mem_singleton.1 hv).ge

end Falls

variable [Field K] [LinearOrder K] [Elementary K] [Tolerances K]
variable {u : Setup K σ ρ} {φ : Vec K → K} {x₀ : Vec K} {s s' t : RunState K σ ρ}

namespace Running

/-- The history falls from the value of the start to the current one, one entry for each step. -/
structure Descends (φ : Vec K → K) (x₀ : Vec K) (s : RunState K σ ρ) : Prop where
  value_eq : s.iterate.value = φ s.iterate.point
  size_eq : s.history.size = s.iterate.iteration + 1
  falls : Falls (φ x₀) s.iterate.value s.history.toList

theorem descends_of_steers {norm : K} (h : Steers u s norm t) (hs : Descends φ x₀ s) :
    Descends φ x₀ t where
  value_eq := by
    rw [h.iterate_eq]
    exact hs.value_eq
  size_eq := by
    rw [h.iterate_eq, h.history_eq]
    exact hs.size_eq
  falls := by
    rw [h.iterate_eq, h.history_eq]
    exact hs.falls

theorem descends_of_advance {norm : K} {a : Accepted K} {work : Workspace K σ}
    (ht : Descends φ x₀ t) (hvalue : a.value = φ a.point) (hlower : a.value < t.iterate.value)
    (h : advance u norm a { t with work } = (.ok (), s')) : Descends φ x₀ s' := by
  obtain ⟨-, h', -, rfl⟩ := advance_eq_ok h
  refine ⟨hvalue, ?_, ?_⟩
  · show (t.history.push a.value).size = t.iterate.iteration + 1 + 1
    rw [Array.size_push, ht.size_eq]
  · show Falls (φ x₀) a.value (t.history.push a.value).toList
    rw [Array.toList_push]
    exact ht.falls.snoc hlower

theorem descends_of_ends {outcome : Reason × K} (hs : Descends φ x₀ s)
    (h : Iterates u s (some outcome) s') : Descends φ x₀ s' := by
  cases h with
  | stops => exact hs
  | stuck steers =>
    obtain ⟨hvalue, hsize, hfalls⟩ := descends_of_steers steers hs
    exact ⟨hvalue, hsize, hfalls⟩

variable [IsStrictOrderedRing K]

theorem accepts_downhill (hf : u.objective.HasValues φ)
    (hv : u.config.searchParams.Valid) {norm : K} {a : Accepted K} {work : Workspace K σ}
    (h : Accepts u s t norm a work) :
    ∃ slope, u.manifold.inner t.iterate.point t.iterate.gradient t.direction = .ok slope ∧
      a.value = φ a.point ∧
      a.value ≤ t.iterate.value + u.config.searchParams.c1 * a.step * slope ∧
      t.iterate.value + u.config.searchParams.c1 * a.step * slope < t.iterate.value :=
  (SearchKind.search_descends (p := u.problem) hf hv h.2).2

theorem descends_of_iterate (hf : u.objective.HasValues φ) (hv : u.config.searchParams.Valid)
    (hs : Descends φ x₀ s) (h : iterate u s = (.ok none, s')) : Descends φ x₀ s' := by
  cases iterates_of_eq_ok h with
  | moves accepts advanced =>
    obtain ⟨slope, -, hvalue, hshare, hlower⟩ := accepts_downhill hf hv accepts
    exact descends_of_advance (descends_of_steers accepts.1 hs) hvalue (hshare.trans_lt hlower)
      advanced

end Running

namespace Setup

variable {start : ρ} {objective : σ} {point : Vec K}

variable [IsStrictOrderedRing K]

theorem Visits.descends (hf : u.objective.HasValues φ) (h : u.Visits start objective point s) :
    Running.Descends φ point s := by
  induction h with
  | first begun =>
    obtain ⟨-, value, gradient, w, -, heval, rfl⟩ := begin_eq_ok begun
    obtain rfl : value = φ point := Problem.evaluate_value (p := u.problem) hf heval
    exact ⟨rfl, rfl, .single _⟩
  | next visited moved ih =>
    have hv := SearchParams.valid_of_validate visited.begun.2
    exact Running.descends_of_iterate hf hv ih moved

/-- **Every run leads downhill**, by its share of the predicted decrease in each step. -/
theorem run_descends (hf : u.objective.HasValues φ) (start : ρ) (objective : σ) (point : Vec K) :
    (∀ s t norm a work, u.Visits start objective point s → Running.Accepts u s t norm a work →
      ∃ slope, u.manifold.inner s.iterate.point s.iterate.gradient t.direction = .ok slope ∧
        φ a.point ≤ φ s.iterate.point + u.config.searchParams.c1 * a.step * slope ∧
        φ s.iterate.point + u.config.searchParams.c1 * a.step * slope < φ s.iterate.point) ∧
    ∀ result after, u.run start objective point = (.ok result, after) →
      result.value = φ result.point ∧ result.history.size = result.iterations + 1 ∧
        Falls (φ point) result.value result.history.toList := by
  constructor
  · intro s t norm a work visited accepts
    have hv := SearchParams.valid_of_validate visited.begun.2
    obtain ⟨slope, hslope, hvalue, hshare, hlower⟩ := Running.accepts_downhill hf hv accepts
    rw [accepts.1.iterate_eq] at hslope hshare hlower
    rw [(visited.descends hf).value_eq] at hshare hlower
    exact ⟨slope, hslope, hvalue ▸ hshare, hlower⟩
  · intro result after h
    obtain ⟨s, s', reason, norm, visited, ends, rfl⟩ := run_eq_ok h
    obtain ⟨hvalue, hsize, hfalls⟩ := Running.descends_of_ends (visited.descends hf) ends
    exact ⟨hvalue, hsize, hfalls⟩

/-- Steepest descent with backtracking on the rational line, for half the square. -/
def parabola : Setup ℚ Unit Unit where
  config := { lineSearch := .armijo }
  rule := steepestDescent false
  objective := (Quadratic.simple 1).objective
  manifold := Flat.manifold ⟨1⟩
  clock _ := 0

theorem run_descends_parabola :
    ∃ result after, parabola.run () () [1] = (.ok result, after) ∧
      (result.iterations = 1 ∧ result.history = #[1 / 2, 0]) ∧
      Falls (1 / 2) result.value result.history.toList := by
  have hf : parabola.objective.HasValues (Quadratic.simple 1).valueAt :=
    Quadratic.objective_hasValues _
  obtain ⟨result, after, hrun, hvalues⟩ := Stateful.exists_of_yields
    (x := parabola.run () () [1])
    (P := fun r => r.iterations = 1 ∧ r.history = #[1 / 2, 0]) (by decide +kernel)
  have hstart : (Quadratic.simple 1).valueAt [1] = (1 / 2 : ℚ) := by decide +kernel
  refine ⟨result, after, hrun, hvalues, ?_⟩
  rw [← hstart]
  exact ((run_descends hf () () [1]).2 result after hrun).2.2

end Setup

end GeodesicDescent
