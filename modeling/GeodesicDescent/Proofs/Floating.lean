import GeodesicDescent.Scalar

/-!
# Comparisons of rounded scalars

A rounded scalar may fail to be a number, and then no comparison with it holds. Two tests that
exclude each other on numbers may so both fail.

* `IsNumber`: scalars that equal themselves;
* **`FloatingOrder`**: between numbers exactly one of `a ≤ b` and `b < a` holds, and otherwise
  neither does;
* `FloatingComparison`, `lt_iff_isNumber`: the same of `<`, which is transitive;
* **`unpacked_compare_eq`**: double and single precision compare their numbers by their places.
-/

namespace GeodesicDescent

variable {K : Type}

/-- A scalar is a number when it equals itself. -/
def IsNumber [BEq K] (a : K) : Prop := (a == a) = true

instance IsNumber.decidable [BEq K] (a : K) : Decidable (IsNumber a) :=
  inferInstanceAs (Decidable (_ = _))

/-- Comparisons decide between two numbers, and hold of nothing else. -/
class FloatingOrder (K : Type) [LE K] [LT K] [BEq K] : Prop where
  le_iff : ∀ a b : K, a ≤ b ↔ IsNumber a ∧ IsNumber b ∧ ¬ b < a

/-- Only numbers are compared, what lies below a number below zero lies below zero, and minus the
precision does. -/
class FloatingPrecision (K : Type) [Scalar K] : Prop extends FloatingOrder K where
  isNumber_of_lt : ∀ {a b : K}, a < b → IsNumber a
  lt_zero_of_lt : ∀ {a b : K}, a < b → b < 0 → a < 0
  neg_epsilon_lt_zero : -Scalar.epsilon < (0 : K)

/-- Numbers alone lie below each other, what lies below another lies below all above that one, and
zero lies below one. -/
class FloatingComparison (K : Type) [Scalar K] : Prop extends FloatingOrder K where
  isNumber_of_lt : ∀ {a b : K}, a < b → IsNumber a ∧ IsNumber b
  lt_trans : ∀ {a b c : K}, a < b → b < c → a < c
  zero_lt_one : (0 : K) < 1

theorem lt_iff_isNumber [Scalar K] [FloatingComparison K] {a b : K} :
    a < b ↔ IsNumber a ∧ IsNumber b ∧ ¬ b ≤ a := by
  constructor
  · intro h
    obtain ⟨ha, hb⟩ := FloatingComparison.isNumber_of_lt h
    exact ⟨ha, hb, fun hle => ((FloatingOrder.le_iff b a).1 hle).2.2 h⟩
  · rintro ⟨ha, hb, hnot⟩
    exact Decidable.byContradiction fun h => hnot ((FloatingOrder.le_iff b a).2 ⟨hb, ha, h⟩)

theorem lt_zero_iff_isNumber [Scalar K] [FloatingPrecision K] {a : K}
    (h : ¬ -Scalar.epsilon ≤ a) : a < 0 ↔ IsNumber a := by
  have hnegative : -Scalar.epsilon < (0 : K) := FloatingPrecision.neg_epsilon_lt_zero
  refine ⟨FloatingPrecision.isNumber_of_lt, fun ha => ?_⟩
  rw [FloatingOrder.le_iff] at h
  have hlow : a < -Scalar.epsilon := Decidable.byContradiction fun hhigh =>
    h ⟨FloatingPrecision.isNumber_of_lt hnegative, ha, hhigh⟩
  exact FloatingPrecision.lt_zero_of_lt hlow hnegative

/-! ## Double and single precision -/

section Unpacked

open Float.Model

variable {a b c : UnpackedFloat}

theorem compare_neg (a b : Int) : compare (-a) (-b) = (compare a b).swap := by
  cases h : compare a b with
  | lt => exact Int.compare_eq_gt.2 (Int.neg_lt_neg (Int.compare_eq_lt.1 h))
  | eq => exact Int.compare_eq_eq.2 (congrArg Neg.neg (Int.compare_eq_eq.1 h))
  | gt => exact Int.compare_eq_lt.2 (Int.neg_lt_neg (Int.compare_eq_gt.1 h))

theorem compare_cast (m n : Nat) : compare (m : Int) n = compare m n := by
  cases h : compare m n with
  | lt => exact Int.compare_eq_lt.2 (Int.ofNat_lt.2 (Nat.compare_eq_lt.1 h))
  | eq => exact Int.compare_eq_eq.2 (congrArg Nat.cast (Nat.compare_eq_eq.1 h))
  | gt => exact Int.compare_eq_gt.2 (Int.ofNat_lt.2 (Nat.compare_eq_gt.1 h))

/-- Where a number stands: by its sign and whether it is infinite, and then by its exponent and its
significand, which count the other way round where it is negative. -/
def place : UnpackedFloat → Int × Int × Int
  | .infinity .negative => (-2, 0, 0)
  | .finite .negative m e _ => (-1, -e, -m)
  | .finite .positive m e _ => (1, e, m)
  | .infinity .positive => (2, 0, 0)
  | .zero _ | .notANumber => (0, 0, 0)

/-- Places in their order. -/
abbrev comparePlaces : Int × Int × Int → Int × Int × Int → Ordering :=
  compareLex (compareOn fun p => p.1) (compareLex (compareOn fun p => p.2.1)
    (compareOn fun p => p.2.2))

/-- **Two numbers are compared by their places.** -/
theorem unpacked_compare_eq (ha : a ≠ .notANumber) (hb : b ≠ .notANumber) :
    a.compare b = some (comparePlaces (place a) (place b)) := by
  cases a with
  | notANumber => exact absurd rfl ha
  | infinity s =>
    cases b with
    | notANumber => exact absurd rfl hb
    | zero t => cases s <;> rfl
    | _ t => cases s <;> cases t <;> rfl
  | zero s =>
    cases b with
    | notANumber => exact absurd rfl hb
    | zero t => rfl
    | _ t => cases t <;> rfl
  | finite s m e =>
    cases b with
    | notANumber => exact absurd rfl hb
    | zero t => cases s <;> rfl
    | infinity t => cases s <;> cases t <;> rfl
    | finite t n i =>
      -- only where the signs agree do the exponents and the significands count
      cases s with
      | negative =>
        cases t with
        | positive => rfl
        | negative =>
          have h : ((compare e i).then (compare m n)).swap =
              (compare (-e) (-i)).then (compare (-(m : Int)) (-n)) := by
            rw [compare_neg, compare_neg, compare_cast, Ordering.swap_then]
          exact congrArg some h
      | positive =>
        cases t with
        | negative => rfl
        | positive =>
          have h : (compare e i).then (compare m n) =
              (compare e i).then (compare (m : Int) n) := by rw [compare_cast]
          exact congrArg some h

theorem unpacked_compare_self (ha : a ≠ .notANumber) : a.compare a = some .eq := by
  rw [unpacked_compare_eq ha ha, @Std.ReflCmp.compare_self _ comparePlaces]

theorem unpacked_compare_swap (ha : a ≠ .notANumber) (hb : b ≠ .notANumber) :
    ∃ o, a.compare b = some o ∧ b.compare a = some o.swap := by
  refine ⟨_, unpacked_compare_eq ha hb, ?_⟩
  rw [unpacked_compare_eq hb ha, @Std.OrientedCmp.eq_swap _ comparePlaces]

theorem unpacked_compare_notANumber :
    a.compare .notANumber = none ∧ UnpackedFloat.compare .notANumber a = none := by
  cases a with
  | infinity s => cases s <;> exact ⟨rfl, rfl⟩
  | finite s => cases s <;> exact ⟨rfl, rfl⟩
  | _ => exact ⟨rfl, rfl⟩

theorem unpacked_lt_irrefl : ¬ a.lt a = true := by
  intro h
  by_cases ha : a = .notANumber
  · rw [ha, UnpackedFloat.lt, unpacked_compare_notANumber.1] at h
    cases h
  · rw [UnpackedFloat.lt, unpacked_compare_self ha] at h
    cases h

theorem unpacked_le_iff : a.le b = true ↔
    a.beq a = true ∧ b.beq b = true ∧ ¬ b.lt a = true := by
  show (a.compare b).any (·.isLE) = true ↔ (a.compare a == some .eq) = true ∧
    (b.compare b == some .eq) = true ∧ ¬ (b.compare a == some .lt) = true
  by_cases ha : a = .notANumber
  · rw [ha, unpacked_compare_notANumber.2, unpacked_compare_notANumber.2]
    simp
  by_cases hb : b = .notANumber
  · rw [hb, unpacked_compare_notANumber.1, unpacked_compare_notANumber.1]
    simp
  obtain ⟨o, hab, hba⟩ := unpacked_compare_swap ha hb
  rw [hab, hba, unpacked_compare_self ha, unpacked_compare_self hb]
  cases o <;> simp

theorem unpacked_beq_self (ha : a ≠ .notANumber) : a.beq a = true := by
  show (a.compare a == some .eq) = true
  rw [unpacked_compare_self ha]
  rfl

theorem unpacked_lt_iff : a.lt b = true ↔
    a ≠ .notANumber ∧ b ≠ .notANumber ∧ comparePlaces (place a) (place b) = .lt := by
  show (a.compare b == some .lt) = true ↔ _
  by_cases ha : a = .notANumber
  · simp [ha, unpacked_compare_notANumber.2]
  by_cases hb : b = .notANumber
  · simp [hb, unpacked_compare_notANumber.1]
  simp [unpacked_compare_eq ha hb, ha, hb]

theorem unpacked_beq_self_of_lt (h : a.lt b = true) : a.beq a = true ∧ b.beq b = true := by
  obtain ⟨ha, hb, -⟩ := unpacked_lt_iff.1 h
  exact ⟨unpacked_beq_self ha, unpacked_beq_self hb⟩

theorem unpacked_lt_trans (h : a.lt b = true) (h' : b.lt c = true) : a.lt c = true := by
  obtain ⟨ha, -, hab⟩ := unpacked_lt_iff.1 h
  obtain ⟨-, hc, hbc⟩ := unpacked_lt_iff.1 h'
  exact unpacked_lt_iff.2 ⟨ha, hc, Std.TransCmp.lt_trans hab hbc⟩

end Unpacked

theorem double_lt_iff {a b : Float} : a < b ↔ a.toModel.unpack.lt b.toModel.unpack = true :=
  decide_eq_true_iff

theorem single_lt_iff {a b : Float32} : a < b ↔ a.toModel.unpack.lt b.toModel.unpack = true :=
  decide_eq_true_iff

instance FloatingOrder.double : FloatingOrder Float where
  le_iff a b := by
    have le : a ≤ b ↔ a.toModel.unpack.le b.toModel.unpack = true := decide_eq_true_iff
    rw [le, double_lt_iff]
    exact unpacked_le_iff

instance FloatingOrder.single : FloatingOrder Float32 where
  le_iff a b := by
    have le : a ≤ b ↔ a.toModel.unpack.le b.toModel.unpack = true := decide_eq_true_iff
    rw [le, single_lt_iff]
    exact unpacked_le_iff

instance FloatingComparison.double : FloatingComparison Float where
  isNumber_of_lt h := unpacked_beq_self_of_lt (double_lt_iff.1 h)
  lt_trans h h' :=
    double_lt_iff.2 (unpacked_lt_trans (double_lt_iff.1 h) (double_lt_iff.1 h'))
  zero_lt_one := by decide +kernel

instance FloatingComparison.single : FloatingComparison Float32 where
  isNumber_of_lt h := unpacked_beq_self_of_lt (single_lt_iff.1 h)
  lt_trans h h' :=
    single_lt_iff.2 (unpacked_lt_trans (single_lt_iff.1 h) (single_lt_iff.1 h'))
  zero_lt_one := by decide +kernel

instance FloatingPrecision.double : FloatingPrecision Float where
  isNumber_of_lt h := (FloatingComparison.isNumber_of_lt h).1
  lt_zero_of_lt := FloatingComparison.lt_trans
  neg_epsilon_lt_zero := by decide +kernel

instance FloatingPrecision.single : FloatingPrecision Float32 where
  isNumber_of_lt h := (FloatingComparison.isNumber_of_lt h).1
  lt_zero_of_lt := FloatingComparison.lt_trans
  neg_epsilon_lt_zero := by decide +kernel

end GeodesicDescent
