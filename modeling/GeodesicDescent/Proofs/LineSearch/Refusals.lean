import GeodesicDescent.Proofs.LineSearch.Keeping

/-!
# When a search refuses its direction

A search tests its direction once, before the first step. Nothing that comes after the test refuses
a direction, and what the geometry or the objective refuse is reported as such.

* `Searching.Relays.avoids`: parts that relay the faults of others refuse no direction;
* `SearchKind.avoids_descend`: nor does a search after the test;
* **`SearchKind.search_refuses`**: a search refuses its direction exactly where the slope along it
  is known and does not lead downhill.
-/

namespace GeodesicDescent

open Stateful

variable {K σ α : Type}

/-- The direction does not lead downhill. -/
abbrev Fault.uphill : Fault (SolverError K) := .refused .invalidDirection

theorem Fault.map_geometry_ne_uphill (fault : Fault GeometryError) :
    fault.map SolverError.geometry ≠ (Fault.uphill : Fault (SolverError K)) := by
  cases fault <;> exact nofun

theorem seen_ne_uphill (r : Checked α) :
    r.mapError (Fault.map .geometry) ≠ .error (Fault.uphill : Fault (SolverError K)) := by
  cases r with
  | error fault => exact fun h => Fault.map_geometry_ne_uphill fault (Except.error.inj h)
  | ok a => exact nofun

namespace Searching

theorem Relays.avoids {m : Searching K σ α} (hm : Relays m) : Avoids Fault.uphill m := by
  refine avoids_of_ne fun w w' h => ?_
  obtain ⟨fault, hfault⟩ := hm w _ w' h
  exact Fault.map_geometry_ne_uphill fault hfault.symm

end Searching

variable [Scalar K] {p : Problem K σ} {params : SearchParams K}

namespace Problem

/-- The test of the direction refuses it exactly where the slope is known and not downhill. -/
theorem downhillSlope_eq_uphill {point gradient direction : Vec K} {w w' : Workspace K σ} :
    p.downhillSlope point gradient direction w = (.error .uphill, w') ↔
      ∃ slope, p.manifold.inner point gradient direction = .ok slope ∧ 0 ≤ slope ∧ w' = w := by
  unfold downhillSlope
  rw [bind_eq_error]
  constructor
  · rintro (h | ⟨slope, _, h, htest⟩)
    · exact absurd h (Searching.relays_ofChecked _).avoids.ne
    · obtain ⟨hslope, rfl⟩ := Searching.ofChecked_eq_ok.1 h
      by_cases hup : 0 ≤ slope
      · rw [if_pos hup] at htest
        cases htest
        exact ⟨slope, hslope, hup, rfl⟩
      · rw [if_neg hup] at htest
        cases htest
  · rintro ⟨slope, hslope, hup, rfl⟩
    refine .inr ⟨slope, w', Searching.ofChecked_eq_ok.2 ⟨hslope, rfl⟩, ?_⟩
    rw [if_pos hup]
    rfl

end Problem

namespace SearchKind

variable {kind : SearchKind} {point gradient direction : Vec K} {value : K}

theorem avoids_descend (slope : K) :
    Avoids Fault.uphill (kind.descend p params point value direction slope) := by
  refine (ensures_descend p.accounts_nothing slope).mono (fun _ _ _ => trivial) fun e w hfault => ?_
  cases hfault with
  | relayed fault => exact Fault.map_geometry_ne_uphill fault
  | failed => exact nofun

/-- **A search refuses its direction exactly where the slope along it does not lead downhill.** -/
theorem search_refuses {w w' : Workspace K σ} :
    kind.search p params point value gradient direction w = (.error .uphill, w') ↔
      ∃ slope, p.manifold.inner point gradient direction = .ok slope ∧ 0 ≤ slope ∧ w' = w := by
  rw [search_eq, bind_eq_error, ← Problem.downhillSlope_eq_uphill]
  exact or_iff_left fun ⟨slope, _, _, h⟩ => (avoids_descend slope).ne h

end SearchKind

end GeodesicDescent
