import GeodesicDescent.Proofs.Double

/-!
# Rounding to single precision

A double that is kept in single precision is cut off after 24 bits and rounded by what is cut, which
gives the nearest number there is. Only at the least exponent does this give zero, and only at the
greatest one is the outcome too large to be kept.

* `NearestEven`: the nearest natural number, and how it compares with others;
* `CutTo.nearestEven`: a mantissa is rounded to it;
* **`exists_roundsTo`**: what a number is rounded to, in any format;
* `exists_unpack_pack`, `unpack_pack_of_le`: which exponents are kept in 32 bits;
* **`Double.narrowed_toSingle`**: which doubles become zero, finite or infinite.
-/

namespace GeodesicDescent

open Float.Model (UnpackedFloat Format totalExponent)
open Float.Model.UnpackedFloat (ExtendedMantissa)

/-! ## The nearest natural number -/

/-- The natural number that is nearest to `v`, or the even one of two. -/
structure NearestEven (v : ℚ) (r : Nat) : Prop where
  below : r - 1 / 2 ≤ v
  above : v ≤ r + 1 / 2
  even_of_tie : v = r - 1 / 2 ∨ v = r + 1 / 2 → Even r

namespace NearestEven

variable {v : ℚ} {n r : Nat}

theorem le_iff_of_even (h : NearestEven v r) (hn : Even n) : n ≤ r ↔ n - 1 / 2 ≤ v := by
  constructor
  · intro hle
    have hcast : (n : ℚ) ≤ r := Nat.cast_le.2 hle
    linarith [h.below]
  · intro hle
    by_contra hlt
    obtain hlt | heq : r + 1 < n ∨ r + 1 = n := by omega
    · have hcast : (r : ℚ) + 1 + 1 ≤ n := by exact_mod_cast hlt
      linarith [h.above]
    · have hcast : (r : ℚ) + 1 = n := by exact_mod_cast heq
      have htie : v = r + 1 / 2 := le_antisymm h.above (by linarith)
      rw [← heq, Nat.even_add_one] at hn
      exact hn (h.even_of_tie (.inr htie))

theorem le_iff_of_odd (h : NearestEven v r) (hn : Odd n) : n ≤ r ↔ n - 1 / 2 < v := by
  constructor
  · intro hle
    obtain rfl | hlt := Nat.eq_or_lt_of_le hle
    · refine lt_of_le_of_ne h.below fun htie => ?_
      exact Nat.not_even_iff_odd.2 hn (h.even_of_tie (.inl htie.symm))
    · have hcast : (n : ℚ) + 1 ≤ r := by exact_mod_cast hlt
      linarith [h.below]
  · intro hlt
    by_contra hnot
    have hcast : (r : ℚ) + 1 ≤ n := by exact_mod_cast Nat.lt_of_not_le hnot
    linarith [h.above]

end NearestEven

/-- The number that a mantissa and the bit after it stand for. -/
def mark (em : ExtendedMantissa) : ℚ := em.mantissa + if em.roundBit then 1 / 2 else 0

/-- A number that is cut off after the bit that follows its mantissa: it is the number up to there,
or lies between that one and the next. -/
def CutTo (v : ℚ) (em : ExtendedMantissa) : Prop :=
  if em.stickyBit then mark em < v ∧ v < mark em + 1 / 2 else v = mark em

theorem mark_shiftRightOne (em : ExtendedMantissa) : mark em.shiftRightOne = em.mantissa / 2 := by
  have hm : (em.mantissa : ℚ) = 2 * (em.mantissa / 2 : Nat) + (em.mantissa % 2 : Nat) := by
    exact_mod_cast (Nat.div_add_mod em.mantissa 2).symm
  rw [mark, ExtendedMantissa.shiftRightOne, hm]
  obtain hparity | hparity := Nat.mod_two_eq_zero_or_one em.mantissa <;> rw [hparity]
  · simp
  · push_cast
    rw [if_pos (by decide)]
    ring

namespace CutTo

variable {v : ℚ} {em : ExtendedMantissa}

theorem of_exact (m : Nat) : CutTo m ⟨m, false, false⟩ := (add_zero (m : ℚ)).symm

theorem shiftRightOne (h : CutTo v em) : CutTo (v / 2) em.shiftRightOne := by
  rw [CutTo, mark_shiftRightOne]
  obtain ⟨m, _ | _, _ | _⟩ := em
  · have heq : v = m + 0 := h
    exact congrArg (· / 2) (heq.trans (add_zero _))
  · obtain ⟨hlow, hhigh⟩ : m + 0 < v ∧ v < m + 0 + 1 / 2 := h
    exact ⟨by linarith, by linarith⟩
  · have heq : v = m + 1 / 2 := h
    exact ⟨by linarith, by linarith⟩
  · obtain ⟨hlow, hhigh⟩ : m + 1 / 2 < v ∧ v < m + 1 / 2 + 1 / 2 := h
    exact ⟨by linarith, by linarith⟩

theorem shiftRight (h : CutTo v em) (k : Nat) : CutTo (v / 2 ^ k) (em >>> k) := by
  induction k with
  | zero =>
    rw [pow_zero, div_one]
    exact h
  | succ k ih =>
    rw [pow_succ, ← div_div]
    exact ih.shiftRightOne

/-- **A mantissa is rounded to the nearest number, ties to the even one.** -/
theorem nearestEven (h : CutTo v em) : NearestEven v em.roundedMantissa := by
  obtain ⟨m, _ | _, _ | _⟩ := em
  · have heq : v = m + 0 := h
    show NearestEven v m
    exact ⟨by linarith, by linarith, by rintro (htie | htie) <;> linarith⟩
  · obtain ⟨hlow, hhigh⟩ : m + 0 < v ∧ v < m + 0 + 1 / 2 := h
    show NearestEven v m
    exact ⟨by linarith, by linarith, by rintro (htie | htie) <;> linarith⟩
  · have heq : v = m + 1 / 2 := h
    show NearestEven v (m + m % 2)
    have heven : Even (m + m % 2) := by rw [Nat.even_iff]; omega
    refine ⟨?_, ?_, fun _ => heven⟩
    all_goals
      obtain hparity | hparity := Nat.mod_two_eq_zero_or_one m
      all_goals
        rw [hparity]
        push_cast
        linarith
  · obtain ⟨hlow, hhigh⟩ : m + 1 / 2 < v ∧ v < m + 1 / 2 + 1 / 2 := h
    show NearestEven v (m + 1)
    refine ⟨?_, ?_, ?_⟩
    all_goals push_cast
    · linarith
    · linarith
    · rintro (htie | htie) <;> linarith

end CutTo

/-! ## Rounding to a format -/

section Round

variable {spec : Format} {m : Nat} {e : Int}

/-- The exponent that a number is rounded to. -/
abbrev target (spec : Format) (m : Nat) (e : Int) : Int := spec.targetExponent (totalExponent m e)

theorem log2_shiftLeft (hm : m ≠ 0) (k : Nat) : (m <<< k).log2 = m.log2 + k := by
  have hlow : 2 ^ (m.log2 + k) ≤ m * 2 ^ k := by
    rw [pow_add]
    exact Nat.mul_le_mul_right _ (Nat.log2_self_le hm)
  have hhigh : m * 2 ^ k < 2 ^ (m.log2 + k + 1) := by
    rw [Nat.add_right_comm, pow_add]
    exact Nat.mul_lt_mul_of_pos_right Nat.lt_log2_self (Nat.two_pow_pos k)
  rw [Nat.shiftLeft_eq, Nat.log2_eq_iff (Nat.mul_ne_zero hm (Nat.two_pow_pos k).ne')]
  exact ⟨hlow, hhigh⟩

theorem target_shiftLeft (hm : m ≠ 0) (k : Nat) :
    target spec (m <<< k) (e - k) = target spec m e := by
  have htotal : totalExponent (m <<< k) (e - k) = totalExponent m e := by
    simp only [totalExponent, log2_shiftLeft hm]
    omega
  rw [target, htotal]

theorem shift_eq (spec : Format) (m : Nat) (e : Int) :
    UnpackedFloat.shiftToTargetExponent spec m e .exact =
      ((⟨m, false, false⟩ : ExtendedMantissa) >>> (target spec m e - e).toNat,
        e + (target spec m e - e).toNat) := rfl

/-- A mantissa is cut off at its target exponent. -/
theorem exists_cutTo (he : e ≤ target spec m e) : ∃ em,
    UnpackedFloat.shiftToTargetExponent spec m e .exact = (em, target spec m e) ∧
      CutTo (m * 2 ^ (e - target spec m e)) em := by
  obtain ⟨k, hk⟩ := Int.le.dest he
  have hshift : (target spec m e - e).toNat = k := by omega
  have hpow : (2 : ℚ) ^ (e - target spec m e) = (2 ^ k)⁻¹ := by
    rw [show e - target spec m e = -(k : Int) by omega, zpow_neg, zpow_natCast]
  refine ⟨(⟨m, false, false⟩ : ExtendedMantissa) >>> k, ?_, ?_⟩
  · rw [shift_eq, hshift, hk]
  · rw [hpow, ← div_eq_mul_inv]
    exact (CutTo.of_exact m).shiftRight k

theorem shift_of_lt {r : Nat} {t : Int} (hr : r < 2 ^ spec.mantissaBits)
    (ht : spec.minExponent ≤ t) :
    UnpackedFloat.shiftToTargetExponent spec r t .exact = (⟨r, false, false⟩, t) := by
  have hlog : r.log2 < spec.mantissaBits := by
    obtain rfl | hpos := Nat.eq_zero_or_pos r
    · exact Nat.lt_of_lt_of_le spec.hm (Nat.le_add_left _ _)
    · exact (Nat.log2_lt hpos.ne').2 hr
  have htarget : target spec r t ≤ t := max_le (by unfold totalExponent; omega) ht
  rw [shift_eq, show (target spec r t - t).toNat = 0 by omega]
  exact Prod.ext rfl (add_zero t)

theorem shift_of_eq {t : Int} (ht : spec.minExponent ≤ t) :
    UnpackedFloat.shiftToTargetExponent spec (2 ^ spec.mantissaBits) t .exact =
      (⟨2 ^ spec.mantissaBitsWithoutImplicit, false, false⟩, t + 1) := by
  have htotal : totalExponent (2 ^ spec.mantissaBits) t - spec.mantissaBits = t + 1 := by
    rw [totalExponent, Nat.log2_two_pow]
    ring
  have htarget : target spec (2 ^ spec.mantissaBits) t = t + 1 := by
    rw [target, Format.targetExponent, htotal]
    omega
  have hhalf : 2 ^ spec.mantissaBits / 2 = 2 ^ spec.mantissaBitsWithoutImplicit := by
    rw [Format.mantissaBits, Nat.add_comm, pow_succ, Nat.mul_div_cancel _ two_pos]
  have hparity : 2 ^ spec.mantissaBits % 2 = 0 := by
    rw [Format.mantissaBits, Nat.add_comm, pow_succ, Nat.mul_mod_left]
  rw [shift_eq, htarget, show (t + 1 - t).toNat = 1 by omega]
  refine Prod.ext ?_ rfl
  show ExtendedMantissa.mk (2 ^ spec.mantissaBits / 2) (2 ^ spec.mantissaBits % 2 != 0) false = _
  rw [hhalf, hparity]
  rfl

/-- What a number is rounded to, as a mantissa at an exponent; one that is too large by one is
halved at the next. -/
inductive RoundsTo (spec : Format) (r : Nat) (t : Int) : UnpackedFloat → Prop
  | zero (hr : r = 0) : RoundsTo spec r t (.zero .positive)
  | finite (hpos : 0 < r) (hr : r < 2 ^ spec.mantissaBits) :
    RoundsTo spec r t (.finite .positive r t hpos)
  | carried (hr : r = 2 ^ spec.mantissaBits) :
    RoundsTo spec r t (.finite .positive (2 ^ spec.mantissaBitsWithoutImplicit) (t + 1)
      (Nat.two_pow_pos _))

theorem mul_zpow_lt (spec : Format) (m : Nat) (e : Int) :
    (m : ℚ) * 2 ^ (e - target spec m e) < 2 ^ spec.mantissaBits := by
  have htarget : m.log2 + 1 + e - spec.mantissaBits ≤ target spec m e := le_max_left _ _
  have hlog : (m : ℚ) < 2 ^ ((m.log2 : Int) + 1) := by
    exact_mod_cast (Nat.lt_log2_self : m < 2 ^ (m.log2 + 1))
  calc (m : ℚ) * 2 ^ (e - target spec m e)
    _ < 2 ^ ((m.log2 : Int) + 1) * 2 ^ (e - target spec m e) :=
      mul_lt_mul_of_pos_right hlog (by positivity)
    _ = 2 ^ ((m.log2 : Int) + 1 + (e - target spec m e)) := (zpow_add₀ two_ne_zero _ _).symm
    _ ≤ 2 ^ (spec.mantissaBits : Int) := zpow_le_zpow_right₀ one_le_two (by omega)
    _ = 2 ^ spec.mantissaBits := zpow_natCast _ _

theorem two_pow_le_of_target (hm : m ≠ 0) (ht : spec.minExponent < target spec m e) :
    (2 : ℚ) ^ spec.mantissaBitsWithoutImplicit ≤ m * 2 ^ (e - target spec m e) := by
  have htarget : target spec m e = m.log2 + 1 + e - spec.mantissaBits :=
    (max_choice _ _).resolve_right ht.ne'
  have hbits : (spec.mantissaBits : Int) = 1 + spec.mantissaBitsWithoutImplicit := by
    rw [Format.mantissaBits]
    push_cast
    rfl
  have hlog : (2 : ℚ) ^ (m.log2 : Int) ≤ m := by exact_mod_cast Nat.log2_self_le hm
  calc (2 : ℚ) ^ spec.mantissaBitsWithoutImplicit
    _ = 2 ^ ((m.log2 : Int) + (e - target spec m e)) := by
      rw [← zpow_natCast]
      congr 1
      omega
    _ = 2 ^ (m.log2 : Int) * 2 ^ (e - target spec m e) := zpow_add₀ two_ne_zero _ _
    _ ≤ m * 2 ^ (e - target spec m e) := mul_le_mul_of_nonneg_right hlog (by positivity)

theorem exists_roundsTo_exact (spec : Format) (he : e ≤ target spec m e) : ∃ r,
    NearestEven (m * 2 ^ (e - target spec m e)) r ∧ RoundsTo spec r (target spec m e)
      (UnpackedFloat.roundWithAccuracy spec .positive m e .exact) := by
  obtain ⟨em, hshift, hcut⟩ := exists_cutTo he
  have hnear := hcut.nearestEven
  refine ⟨em.roundedMantissa, hnear, ?_⟩
  have ht : spec.minExponent ≤ target spec m e := le_max_right _ _
  -- Nothing is rounded beyond an even number that it is less than.
  have hle : em.roundedMantissa ≤ 2 ^ spec.mantissaBits := by
    by_contra hgt
    have hodd : Odd (2 ^ spec.mantissaBits + 1) := by
      rw [Format.mantissaBits, pow_add]
      exact ⟨_, rfl⟩
    have habove := (hnear.le_iff_of_odd hodd).1 (Nat.lt_of_not_le hgt)
    push_cast at habove
    linarith [mul_zpow_lt spec m e]
  unfold UnpackedFloat.roundWithAccuracy
  rw [hshift]
  dsimp only
  obtain hlt | heq := Nat.lt_or_eq_of_le hle
  · rw [shift_of_lt hlt ht]
    dsimp only
    split_ifs with hzero
    · exact .zero hzero
    · exact .finite _ hlt
  · rw [heq, shift_of_eq ht]
    dsimp only
    rw [dif_neg (Nat.two_pow_pos _).ne']
    exact .carried rfl

/-- **A number is rounded to the nearest mantissa at its target exponent.** -/
theorem exists_roundsTo (spec : Format) (e : Int) (hm : m ≠ 0) : ∃ r,
    NearestEven (m * 2 ^ (e - target spec m e)) r ∧ RoundsTo spec r (target spec m e)
      (UnpackedFloat.round spec .positive m e) := by
  obtain ⟨k, hk⟩ : ∃ k, (e - target spec m e).toNat = k := ⟨_, rfl⟩
  have htarget : target spec (m <<< k) (e - k) = target spec m e := target_shiftLeft hm k
  have hvalue : ((m <<< k : Nat) : ℚ) * 2 ^ (e - k - target spec m e) =
      m * 2 ^ (e - target spec m e) := by
    rw [Nat.shiftLeft_eq, show e - target spec m e = k + (e - k - target spec m e) by omega,
      zpow_add₀ two_ne_zero, zpow_natCast]
    push_cast
    ring
  obtain ⟨r, hnear, hrounds⟩ :=
    exists_roundsTo_exact spec (m := m <<< k) (e := e - k) (by omega)
  rw [htarget] at hnear hrounds
  rw [hvalue] at hnear
  have hround : UnpackedFloat.round spec .positive m e =
      UnpackedFloat.roundWithAccuracy spec .positive (m <<< (e - target spec m e).toNat)
        (e - (e - target spec m e).toNat) .exact := rfl
  refine ⟨r, hnear, ?_⟩
  rw [hround, hk]
  exact hrounds

end Round

/-! ## Single precision -/

section Pack

open Float.Model.UnpackedFloat

theorem unpackSign_packComponents {spec : Format} {sign : Sign} {exponent mantissa} :
    unpackSign (packComponents spec sign exponent mantissa) = sign.toBitVec := by
  ext i hi
  obtain rfl : i = 0 := by omega
  simp [unpackSign, packComponents, BitVec.getLsbD_append, BitVec.getElem_append]

theorem ofBitVec_toBitVec (sign : Sign) : Sign.ofBitVec sign.toBitVec = sign := by
  cases sign <;> rfl

theorem exists_unpack_packComponents {exponent : BitVec 8} {mantissa : BitVec 23}
    (hmax : exponent ≠ -1#_) (hzero : exponent = 0#_ → mantissa ≠ 0#_) : ∃ m e hm,
      unpack .binary32 (packComponents .binary32 .positive exponent mantissa) =
        .finite .positive m e hm := by
  simp only [unpack, unpackExponent_packComponents, unpackMantissa_packComponents,
    unpackSign_packComponents, ofBitVec_toBitVec]
  rw [if_neg hmax]
  by_cases hexponent : exponent = 0#_
  · have hpos : 0 < mantissa.toNat :=
      Nat.pos_of_ne_zero fun h => hzero hexponent (BitVec.eq_of_toNat_eq h)
    rw [if_pos hexponent, dif_neg (hzero hexponent)]
    exact ⟨_, _, hpos, rfl⟩
  · have hpos : 0 < (1#1 ++ mantissa).toNat := by
      rw [BitVec.toNat_append]
      exact Nat.lt_of_lt_of_le (by decide) Nat.left_le_or
    rw [if_neg hexponent]
    exact ⟨_, _, hpos, rfl⟩

variable {m : Nat} {e : Int}

/-- The exponent as it is kept is too large from 105 on. -/
theorem exponent_overflows_iff : 2 ^ Format.binary32.exponentBits ≤
    (e + Format.binary32.exponentBias + Format.binary32.mantissaBitsWithoutImplicit).toNat + 1 ↔
      105 ≤ e := by
  simp only [Format.exponentBias]
  omega

theorem unpack_pack_of_le (hm : 0 < m) (he : 105 ≤ e) :
    unpack .binary32 (pack .binary32 (.finite .positive m e hm)) = .infinity .positive := by
  rw [pack, if_pos (exponent_overflows_iff.2 he)]
  rfl

theorem exists_unpack_pack (hm : 0 < m) (hlt : m < 2 ^ 24) (hlow : -149 ≤ e) (he : e < 105) :
    ∃ m' e' hm', unpack .binary32 (pack .binary32 (.finite .positive m e hm)) =
      .finite .positive m' e' hm' := by
  have hkept : (e + Format.binary32.exponentBias +
      Format.binary32.mantissaBitsWithoutImplicit).toNat = (e + 150).toNat := by
    simp only [Format.exponentBias]
    omega
  rw [pack]
  dsimp only
  rw [if_neg (mt exponent_overflows_iff.1 (Int.not_le.2 he)), hkept]
  split_ifs with hnormal
  · have hbits : (BitVec.ofNat 8 (e + 150).toNat).toNat = (e + 150).toNat := by
      rw [BitVec.toNat_ofNat]
      omega
    refine exists_unpack_packComponents (fun hmax => ?_) fun hzero => ?_
    · rw [hmax] at hbits
      change 255 = _ at hbits
      omega
    · rw [hzero] at hbits
      change 0 = _ at hbits
      omega
  · refine exists_unpack_packComponents (by decide) fun _ hzero => ?_
    have hsmall : m < 2 ^ 23 := by
      have hlog := (Nat.log2_lt hm.ne').2 hlt
      refine (Nat.log2_lt hm.ne').1 ?_
      change ¬ m.log2 + 1 = 24 at hnormal
      omega
    have hbits := congrArg BitVec.toNat hzero
    rw [BitVec.toNat_ofNat, Nat.mod_eq_of_lt hsmall] at hbits
    exact hm.ne' hbits

end Pack

/-! ## Doubles in single precision -/

/-- What a positive number becomes in single precision: zero up to half the least single, an
infinity from the middle between the greatest single and the next power of two on, and a finite
positive number in between. -/
inductive Narrowed (q : ℚ) : UnpackedFloat → Prop
  | zero (hq : q ≤ 2 ^ (-150 : Int)) : Narrowed q (.zero .positive)
  | finite {m e hm} (hlow : 2 ^ (-150 : Int) < q) (hhigh : q < 2 ^ 128 - 2 ^ 103) :
    Narrowed q (.finite .positive m e hm)
  | infinity (hq : 2 ^ 128 - 2 ^ 103 ≤ q) : Narrowed q (.infinity .positive)

section Narrow

variable {q v : ℚ} {m : Nat} {e t : Int}

theorem mul_two_zpow_le {a : ℚ} {k : Int} (ha : 0 ≤ a) (hv : a ≤ v) (ht : k ≤ t) :
    a * 2 ^ k ≤ v * 2 ^ t :=
  mul_le_mul hv (zpow_le_zpow_right₀ one_le_two ht) (by positivity) (ha.trans hv)

theorem mul_two_zpow_lt {a : ℚ} {k : Int} (hv : v < a) (ha : 0 ≤ a) (ht : t ≤ k) :
    v * 2 ^ t < a * 2 ^ k :=
  mul_lt_mul hv (zpow_le_zpow_right₀ one_le_two ht) (by positivity) ha

open Float.Model.UnpackedFloat in
theorem narrowed_of_roundsTo {r : Nat} {u : UnpackedFloat} (hleast : -149 ≤ t)
    (hnormal : -149 < t → 2 ^ 23 ≤ v) (hroom : v < 2 ^ 24) (hnear : NearestEven v r)
    (hrounds : RoundsTo .binary32 r t u) :
    Narrowed (v * 2 ^ t) (unpack .binary32 (pack .binary32 u)) := by
  have hodd : 1 ≤ r ↔ (1 : Nat) - 1 / 2 < v := hnear.le_iff_of_odd odd_one
  have heven : 2 ^ 24 ≤ r ↔ (2 ^ 24 : Nat) - 1 / 2 ≤ v := hnear.le_iff_of_even (by decide)
  push_cast at hodd heven
  have hbound : ((2 : ℚ) ^ 24 - 1 / 2) * 2 ^ (104 : Int) = 2 ^ 128 - 2 ^ 103 := by norm_num
  -- Only at the least exponent is a mantissa rounded to zero.
  have hlow (hv : 1 / 2 < v) : (2 : ℚ) ^ (-150 : Int) < v * 2 ^ t := by
    calc (2 : ℚ) ^ (-150 : Int)
      _ = 1 / 2 * 2 ^ (-149 : Int) := by norm_num
      _ < v * 2 ^ (-149 : Int) := mul_lt_mul_of_pos_right hv (by positivity)
      _ ≤ v * 2 ^ t := mul_two_zpow_le (by linarith) le_rfl hleast
  cases hrounds with
  | zero hr =>
    have hv : v ≤ 1 / 2 := by
      by_contra hlt
      have hpos := hodd.2 (by linarith)
      omega
    have ht : t = -149 := by
      by_contra hne
      linarith [hnormal (by omega)]
    refine .zero ?_
    calc v * 2 ^ t
      _ ≤ 1 / 2 * 2 ^ t := mul_le_mul_of_nonneg_right hv (by positivity)
      _ = 2 ^ (-150 : Int) := by rw [ht]; norm_num
  | finite hpos hr =>
    have hv : 1 / 2 < v := by linarith [hodd.1 hpos]
    have hvr : v < 2 ^ 24 - 1 / 2 := lt_of_not_ge fun hle => absurd (heven.2 hle) (Nat.not_le.2 hr)
    obtain hlt | hle := lt_or_ge t 105
    · obtain ⟨m', e', hm', hunpack⟩ := exists_unpack_pack hpos hr hleast hlt
      rw [hunpack]
      refine .finite (hlow hv) ?_
      rw [← hbound]
      exact mul_two_zpow_lt hvr (by norm_num) (by omega)
    · rw [unpack_pack_of_le _ hle]
      refine .infinity ?_
      calc (2 : ℚ) ^ 128 - 2 ^ 103
        _ ≤ 2 ^ 23 * 2 ^ (105 : Int) := by norm_num
        _ ≤ v * 2 ^ t := mul_two_zpow_le (by positivity) (hnormal (by omega)) hle
  | carried hr =>
    have hv : 2 ^ 24 - 1 / 2 ≤ v := heven.1 hr.ge
    obtain hlt | hle := lt_or_ge (t + 1) 105
    · obtain ⟨m', e', hm', hunpack⟩ :=
        exists_unpack_pack (Nat.two_pow_pos 23) (by decide) (by omega) hlt
      refine hunpack ▸ .finite (hlow (by linarith)) ?_
      calc v * 2 ^ t
        _ < 2 ^ 24 * 2 ^ (103 : Int) := mul_two_zpow_lt hroom (by positivity) (by omega)
        _ < 2 ^ 128 - 2 ^ 103 := by norm_num
    · refine unpack_pack_of_le (Nat.two_pow_pos 23) hle ▸ .infinity ?_
      rw [← hbound]
      exact mul_two_zpow_le (by norm_num) hv (by omega)

open Float.Model.UnpackedFloat in
theorem narrowed_round (hm : m ≠ 0) : Narrowed (m * 2 ^ e)
    (unpack .binary32 (pack .binary32 (round .binary32 .positive m e))) := by
  obtain ⟨r, hnear, hrounds⟩ := exists_roundsTo .binary32 e hm
  have hvalue : (m : ℚ) * 2 ^ e =
      m * 2 ^ (e - target .binary32 m e) * 2 ^ target .binary32 m e := by
    rw [mul_assoc, ← zpow_add₀ two_ne_zero, sub_add_cancel]
  rw [hvalue]
  exact narrowed_of_roundsTo (le_max_right _ _) (two_pow_le_of_target hm) (mul_zpow_lt _ _ _)
    hnear hrounds

end Narrow

namespace Double

variable {x : Float} {q : ℚ}

/-- **A positive double in single precision.** -/
theorem narrowed_toSingle (hq : 0 < q) (h : value? x = some q) :
    Narrowed q (toSingle x).toModel.unpack := by
  rw [value?] at h
  cases hx : x.toModel.unpack with
  | zero s =>
    rw [hx] at h
    cases h
    exact absurd hq (lt_irrefl _)
  | finite s m e hm =>
    rw [hx] at h
    cases s with
    | positive =>
      cases h
      rw [toSingle, hx]
      exact narrowed_round hm.ne'
    | negative =>
      cases h
      have hvalue : (0 : ℚ) < m * 2 ^ e := mul_pos (Nat.cast_pos.2 hm) (zpow_pos two_pos e)
      linarith
  | infinity s =>
    rw [hx] at h
    cases h
  | notANumber =>
    rw [hx] at h
    cases h

end Double

end GeodesicDescent
