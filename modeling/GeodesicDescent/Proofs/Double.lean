import Mathlib
import GeodesicDescent.Double
import GeodesicDescent.Proofs.Floating

/-!
# The number that a double stands for

A finite double stands for a rational number, both zeros for the same; infinities stand for none,
nor does what is not a number. A double is read as a natural number exactly where it stands for it,
at every size.

* `Double.value?`: the number;
* **`natural?_eq_some`**: the doubles that are read as a natural number;
* `isFinite_and_pos_iff`: the doubles that are finite and positive.
-/

namespace GeodesicDescent.Double

open Float.Model (UnpackedFloat)

/-- The number that an unpacked double stands for. -/
def unpackedValue? : UnpackedFloat → Option ℚ
  | .zero _ => some 0
  | .finite .positive m e _ => some (m * 2 ^ e)
  | .finite .negative m e _ => some (-(m * 2 ^ e))
  | .infinity _ => none
  | .notANumber => none

/-- The number that a double stands for, if it stands for one. -/
def value? (x : Float) : Option ℚ := unpackedValue? x.toModel.unpack

theorem scaled?_eq_some {m n : Nat} {e : Int} :
    scaled? m e = some n ↔ (m : ℚ) * 2 ^ e = n := by
  cases e with
  | ofNat e =>
    rw [scaled?, Option.some.injEq, Int.ofNat_eq_natCast, zpow_natCast]
    exact_mod_cast Iff.rfl
  | negSucc e =>
    have hunit : 0 < 2 ^ (e + 1) := Nat.two_pow_pos (e + 1)
    have hvalue : (m : ℚ) * 2 ^ Int.negSucc e = n ↔ m = n * 2 ^ (e + 1) := by
      rw [zpow_negSucc, mul_inv_eq_iff_eq_mul₀ (by positivity)]
      exact_mod_cast Iff.rfl
    rw [hvalue]
    simp only [scaled?, Nat.pow_eq, Option.ite_none_right_eq_some, Option.some.injEq]
    constructor
    · rintro ⟨hdvd, rfl⟩
      exact (Nat.div_mul_cancel (Nat.dvd_of_mod_eq_zero hdvd)).symm
    · rintro rfl
      exact ⟨Nat.mul_mod_left _ _, Nat.mul_div_cancel _ hunit⟩

/-- **A double is read as a natural number exactly where it stands for it.** -/
theorem natural?_eq_some {x : Float} {n : Nat} : natural? x = some n ↔ value? x = some (n : ℚ) := by
  unfold natural? value?
  cases x.toModel.unpack with
  | zero s =>
    rw [unpackedValue?, Option.some.injEq, Option.some.injEq]
    exact_mod_cast Iff.rfl
  | finite s m e hm =>
    cases s with
    | positive => rw [unpackedValue?, Option.some.injEq, ← scaled?_eq_some]
    | negative =>
      have hvalue : (0 : ℚ) < m * 2 ^ e := mul_pos (Nat.cast_pos.2 hm) (zpow_pos two_pos e)
      have hn : (0 : ℚ) ≤ n := Nat.cast_nonneg n
      refine iff_of_false nofun fun h => ?_
      rw [unpackedValue?, Option.some.injEq] at h
      linarith
  | infinity s => exact iff_of_false nofun nofun
  | notANumber => exact iff_of_false nofun nofun

theorem unpackedValue?_pos {u : UnpackedFloat} : u.isFinite = true ∧
    UnpackedFloat.lt (.zero .positive) u = true ↔ ∃ q, 0 < q ∧ unpackedValue? u = some q := by
  cases u with
  | zero s => exact iff_of_false (by rintro ⟨-, ⟨⟩⟩) (by rintro ⟨q, hq, ⟨⟩⟩; exact hq.false)
  | finite s m e hm =>
    have hvalue : (0 : ℚ) < m * 2 ^ e := mul_pos (Nat.cast_pos.2 hm) (zpow_pos two_pos e)
    cases s with
    | positive => exact iff_of_true ⟨rfl, rfl⟩ ⟨_, hvalue, rfl⟩
    | negative =>
      refine iff_of_false (by rintro ⟨-, ⟨⟩⟩) ?_
      rintro ⟨q, hq, ⟨⟩⟩
      linarith
  | infinity s => exact iff_of_false (by rintro ⟨⟨⟩, -⟩) (by rintro ⟨q, -, ⟨⟩⟩)
  | notANumber => exact iff_of_false (by rintro ⟨⟨⟩, -⟩) (by rintro ⟨q, -, ⟨⟩⟩)

theorem isFinite_and_pos_iff {x : Float} :
    x.isFinite = true ∧ 0.0 < x ↔ ∃ q, 0 < q ∧ value? x = some q := by
  have hzero : (0.0 : Float).toModel.unpack = .zero .positive := rfl
  rw [double_lt_iff, hzero]
  exact unpackedValue?_pos

end GeodesicDescent.Double
