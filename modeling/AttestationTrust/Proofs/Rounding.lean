import Mathlib.Algebra.Order.Field.Power
import Mathlib.Algebra.Order.Field.Rat
import Mathlib.Data.Nat.Digits.Defs
import Mathlib.Data.Rat.Cast.Order
import Mathlib.Tactic.FieldSimp
import Mathlib.Tactic.Linarith
import Mathlib.Tactic.NormNum
import Mathlib.Tactic.Positivity
import AttestationTrust.Numeral.Binary64
/-!
# Where rounding leaves the finite numbers

A quotient has an order, the power of two that it reaches, and with it a last place; rounding it counts its units in
that place (`Binary64.RoundsTo`).  The count is carried into the next order when it is full, and so the quotients that
no finite number is nearest to are those from `Binary64.overflow` on, half a unit below the power of two that comes
behind the greatest finite number.  This settles rounding of quotients (`Binary64.isFinite_ofRatio_iff`), of decimals
(`Binary64.isFinite_ofDecimal_iff`) and of integers (`Binary64.ofInt?_of_pos`).
-/
namespace AttestationTrust

variable {num den : Nat}

/-- A quotient is rounded up to a number from halfway below it on, and at halfway if the number is even. -/
theorem le_roundHalfEven_iff {k : Nat} (hden : 0 < den) : k ≤ roundHalfEven num den ↔
    (k - 1 / 2 : ℚ) < num / den ∨ (k - 1 / 2 : ℚ) = num / den ∧ k % 2 = 0 := by
  have hcross : k ≤ roundHalfEven num den ↔
      2 * (k * den) < 2 * num + den ∨ 2 * (k * den) = 2 * num + den ∧ k % 2 = 0 := by
    have hnum : den * (num / den) + num % den = num := Nat.div_add_mod num den
    have hlt : num % den < den := Nat.mod_lt num hden
    have hround : roundHalfEven num den = if 2 * (num % den) < den then num / den
        else if den < 2 * (num % den) then num / den + 1
        else if num / den % 2 = 0 then num / den else num / den + 1 := rfl
    rw [hround]
    -- only the quotient and what is behind it can be the answer, so `k` is compared with these
    generalize num / den = q at *
    generalize num % den = r at *
    rw [Nat.mul_comm] at hnum
    rcases Nat.lt_trichotomy k (q + 1) with hk | rfl | hk
    · have hle : k * den ≤ q * den := Nat.mul_le_mul_right den (Nat.le_of_lt_succ hk)
      have hleft : 2 * (k * den) < 2 * num + den := by omega
      refine iff_of_true ?_ (.inl hleft)
      split_ifs <;> omega
    · rw [Nat.add_mul, Nat.one_mul]
      split_ifs <;> omega
    · have hle : (q + 2) * den ≤ k * den := Nat.mul_le_mul_right den hk
      rw [Nat.add_mul] at hle
      refine iff_of_false ?_ (by omega)
      split_ifs <;> omega
  have hden_pos : (0 : ℚ) < den := by exact_mod_cast hden
  have hlt : 2 * (k * den) < 2 * num + den ↔ (2 * (k * den) : ℚ) < 2 * num + den := by exact_mod_cast Iff.rfl
  have heq : 2 * (k * den) = 2 * num + den ↔ (2 * (k * den) : ℚ) = 2 * num + den := by exact_mod_cast Iff.rfl
  rw [hcross, lt_div_iff₀ hden_pos, eq_div_iff hden_pos.ne', sub_mul, hlt, heq]
  refine or_congr ?_ (and_congr_left' ?_)
  · constructor <;> intro h <;> linarith
  · constructor <;> intro h <;> linarith

theorem zpow_eq_pow_div_pow (b : ℚ) (e : ℤ) : b ^ e = b ^ e.toNat / b ^ (-e).toNat := by
  obtain ⟨n, rfl | rfl⟩ := e.eq_nat_or_neg <;> simp

namespace Binary64

variable {x : Binary64} {v : ℚ} {d e : Int} {m digits : Nat} {negative : Bool}

/-! ## Patterns -/

theorem magnitude_ofMagnitude (h : m ≤ topMagnitude) (negative : Bool) : (ofMagnitude negative m).magnitude = m := by
  have htop : topMagnitude = 9218868437227405312 := by decide
  have hsign : signBit = 9223372036854775808 := by decide
  unfold magnitude ofMagnitude
  cases negative <;> simp only [UInt64.toNat_ofNat', hsign, Bool.false_eq_true, if_true, if_false] <;> omega

theorem isNegative_ofMagnitude (h : m ≤ topMagnitude) (negative : Bool) :
    (ofMagnitude negative m).isNegative = negative := by
  have htop : topMagnitude = 9218868437227405312 := by decide
  have hsign : signBit = 9223372036854775808 := by decide
  unfold isNegative ofMagnitude
  cases negative <;> simp only [UInt64.toNat_ofNat', hsign, Bool.false_eq_true, if_true, if_false, decide_eq_true_eq,
    decide_eq_false_iff_not] <;> omega

theorem isNaN_ofMagnitude (h : m ≤ topMagnitude) (negative : Bool) : (ofMagnitude negative m).isNaN = false := by
  simp [isNaN, magnitude_ofMagnitude h, h]

/-- The one number above zero that is not finite is infinity. -/
theorem isPositive_and_not_isFinite_iff : x.isPositive = true ∧ x.isFinite = false ↔ x = infinity := by
  have htop : topMagnitude = 9218868437227405312 := by decide
  have hsign : signBit = 9223372036854775808 := by decide
  constructor
  · rintro ⟨hpositive, hfinite⟩
    simp only [isPositive, isNegative, isNaN, isFinite, magnitude, hsign, Bool.and_eq_true, Bool.not_eq_true',
      decide_eq_false_iff_not] at hpositive hfinite
    have hbits : x.bits.toNat = topMagnitude := by omega
    have hx : x.bits = UInt64.ofNat topMagnitude := by rw [← hbits, UInt64.ofNat_toNat]
    exact congrArg Binary64.mk hx
  · rintro rfl
    decide

theorem exists_ofRatio (negative : Bool) (num den : Nat) :
    ∃ m ≤ topMagnitude, ofRatio negative num den = ofMagnitude negative m := by
  unfold ofRatio
  split
  · exact ⟨0, Nat.zero_le _, rfl⟩
  · dsimp only
    split
    · exact ⟨_, Nat.le_refl _, rfl⟩
    · next h => exact ⟨_, Nat.le_of_not_le h, rfl⟩

theorem exists_ofDecimal (negative : Bool) (digits : Nat) (e : Int) :
    ∃ m ≤ topMagnitude, ofDecimal negative digits e = ofMagnitude negative m := by
  unfold ofDecimal
  split
  · exact ⟨0, Nat.zero_le _, rfl⟩
  · dsimp only
    split
    · exact ⟨_, Nat.le_refl _, rfl⟩
    · split
      · exact ⟨0, Nat.zero_le _, rfl⟩
      · exact exists_ofRatio _ _ _

theorem isNaN_ofDecimal (negative : Bool) (digits : Nat) (e : Int) : (ofDecimal negative digits e).isNaN = false := by
  obtain ⟨m, hm, heq⟩ := exists_ofDecimal negative digits e
  rw [heq, isNaN_ofMagnitude hm]

theorem isNegative_ofDecimal (negative : Bool) (digits : Nat) (e : Int) :
    (ofDecimal negative digits e).isNegative = negative := by
  obtain ⟨m, hm, heq⟩ := exists_ofDecimal negative digits e
  rw [heq, isNegative_ofMagnitude hm]

/-! ## Units in the last place -/

theorem floorLog2_spec (hnum : 0 < num) (hden : 0 < den) :
    (2 : ℚ) ^ floorLog2 num den ≤ num / den ∧ (num / den : ℚ) < 2 ^ (floorLog2 num den + 1) := by
  have hnum_le : (2 : ℚ) ^ num.log2 ≤ num := by exact_mod_cast Nat.log2_self_le hnum.ne'
  have hnum_lt : (num : ℚ) < 2 ^ (num.log2 + 1) := by exact_mod_cast Nat.lt_log2_self
  have hden_le : (2 : ℚ) ^ den.log2 ≤ den := by exact_mod_cast Nat.log2_self_le hden.ne'
  have hden_lt : (den : ℚ) < 2 ^ (den.log2 + 1) := by exact_mod_cast Nat.lt_log2_self
  have hden_pos : (0 : ℚ) < den := by exact_mod_cast hden
  have hreach : ∀ d : ℤ, den * Nat.pow 2 d.toNat ≤ num * Nat.pow 2 (-d).toNat ↔ (2 : ℚ) ^ d ≤ num / den := by
    intro d
    rw [zpow_eq_pow_div_pow, div_le_div_iff₀ (by positivity) hden_pos, mul_comm]
    exact_mod_cast Iff.rfl
  have hpow : ∀ a b : Nat, (2 : ℚ) ^ ((a : ℤ) - b) = 2 ^ a / 2 ^ b := by
    intro a b
    rw [zpow_sub₀ two_ne_zero, zpow_natCast, zpow_natCast]
  unfold floorLog2
  dsimp only
  split
  · next h =>
    have hexp : (num.log2 : ℤ) - den.log2 + 1 = ((num.log2 + 1 : ℕ) : ℤ) - den.log2 := by omega
    refine ⟨(hreach _).1 h, ?_⟩
    rw [hexp, hpow]
    exact div_lt_div₀ hnum_lt hden_le (by positivity) (by positivity)
  · next h =>
    have hexp : (num.log2 : ℤ) - den.log2 - 1 = (num.log2 : ℤ) - (den.log2 + 1 : ℕ) := by omega
    rw [hreach, not_le] at h
    rw [sub_add_cancel]
    refine ⟨?_, h⟩
    rw [hexp, hpow]
    exact div_le_div₀ (Nat.cast_nonneg _) hnum_le hden_pos hden_lt.le

theorem scaled_eq (num den : Nat) (q : ℤ) : ((num * Nat.pow 2 (-q).toNat : ℕ) : ℚ) / (den * Nat.pow 2 q.toNat : ℕ) =
    num / den / 2 ^ q := by
  rw [zpow_eq_pow_div_pow, Nat.pow_eq, Nat.pow_eq]
  push_cast
  field_simp

/-- The exponent of the last place of a number of order `d`. -/
def lastPlace (d : Int) : Int := Max.max (d - 52) (-1074)

/-- A quotient of order `d` is rounded to `m` units in the last place. -/
structure RoundsTo (v : ℚ) (d : Int) (m : Nat) : Prop where
  le : 2 ^ d ≤ v
  lt : v < 2 ^ (d + 1)
  units : ∀ k : Nat, k ≤ m ↔
    (k - 1 / 2 : ℚ) < v / 2 ^ lastPlace d ∨ (k - 1 / 2 : ℚ) = v / 2 ^ lastPlace d ∧ k % 2 = 0

theorem exists_roundsTo (hnum : 0 < num) (hden : 0 < den) (negative : Bool) : ∃ d m,
    RoundsTo (num / den : ℚ) d m ∧ ofRatio negative num den =
      ofMagnitude negative (Min.min topMagnitude ((lastPlace d + 1074).toNat * fractionBits + m)) := by
  obtain ⟨hle, hlt⟩ := floorLog2_spec hnum hden
  let q := lastPlace (floorLog2 num den)
  refine ⟨_, roundHalfEven (num * Nat.pow 2 (-q).toNat) (den * Nat.pow 2 q.toNat), ⟨hle, hlt, fun k => ?_⟩, ?_⟩
  · have hunit : 0 < den * Nat.pow 2 q.toNat := Nat.mul_pos hden (Nat.two_pow_pos _)
    rw [le_roundHalfEven_iff hunit, scaled_eq]
  · rw [ofRatio, if_neg hnum.ne', Nat.min_def]
    rfl

theorem RoundsTo.le_two_pow (h : RoundsTo v d m) : m ≤ 2 ^ 53 := by
  have hlast : d + 1 ≤ 53 + lastPlace d := by unfold lastPlace; omega
  have hlt : v / 2 ^ lastPlace d < 2 ^ 53 := by
    rw [div_lt_iff₀ (by positivity)]
    calc v < 2 ^ (d + 1) := h.lt
      _ ≤ 2 ^ (53 + lastPlace d) := zpow_le_zpow_right₀ one_le_two hlast
      _ = 2 ^ 53 * 2 ^ lastPlace d := zpow_add₀ two_ne_zero 53 _
  by_contra hm
  rcases (h.units (2 ^ 53 + 1)).1 (by omega) with hk | ⟨hk, -⟩
  · push_cast at hk
    linarith
  · push_cast at hk
    linarith

theorem RoundsTo.two_pow_le (h : RoundsTo v d m) (hd : -1022 ≤ d) : 2 ^ 52 ≤ m := by
  have hlast : 52 + lastPlace d = d := by unfold lastPlace; omega
  refine (h.units (2 ^ 52)).2 (.inl ?_)
  rw [lt_div_iff₀ (by positivity)]
  calc ((2 ^ 52 : ℕ) - 1 / 2 : ℚ) * 2 ^ lastPlace d < 2 ^ 52 * 2 ^ lastPlace d := by
        refine mul_lt_mul_of_pos_right ?_ (by positivity)
        norm_num
    _ = 2 ^ (52 + lastPlace d) := (zpow_add₀ two_ne_zero 52 _).symm
    _ = 2 ^ d := by rw [hlast]
    _ ≤ v := h.le

/-! ## Overflow -/

/-- Halfway between the greatest finite number and the power of two behind it. -/
def overflow : Nat := (2 ^ 54 - 1) * 2 ^ 970

theorem cast_overflow : (overflow : ℚ) = (2 ^ 53 - 1 / 2) * 2 ^ (971 : ℤ) := by
  have hpow : (2 : ℚ) ^ (971 : ℤ) = 2 * 2 ^ 970 := by
    rw [← pow_succ']
    exact zpow_natCast _ 971
  have hhalf : ((2 ^ 54 - 1 : ℕ) : ℚ) = (2 ^ 53 - 1 / 2) * 2 := by norm_num
  rw [hpow, overflow, Nat.cast_mul, Nat.cast_pow, Nat.cast_ofNat, hhalf, mul_assoc]

theorem RoundsTo.overflow_iff (h : RoundsTo v d m) :
    topMagnitude ≤ (lastPlace d + 1074).toNat * fractionBits + m ↔ overflow ≤ v := by
  have htop : topMagnitude = 9218868437227405312 := by decide
  have hfraction : fractionBits = 4503599627370496 := by decide
  have hm := h.le_two_pow
  have hpos : (0 : ℚ) < 2 ^ (971 : ℤ) := by positivity
  rw [cast_overflow, htop, hfraction]
  -- below the order 1023 no count of units reaches infinity, above it every one does
  rcases lt_trichotomy d 1023 with hd | rfl | hd
  · have hlast : lastPlace d ≤ 970 := by unfold lastPlace; omega
    have hv : v < 2 ^ 52 * 2 ^ (971 : ℤ) := by
      calc v < 2 ^ (d + 1) := h.lt
        _ ≤ 2 ^ (1023 : ℤ) := zpow_le_zpow_right₀ one_le_two hd
        _ = 2 ^ 52 * 2 ^ (971 : ℤ) := zpow_add₀ two_ne_zero 52 971
    refine iff_of_false (by omega) (not_le.2 (hv.trans_le ?_))
    refine mul_le_mul_of_nonneg_right ?_ hpos.le
    norm_num
  · have hlast : lastPlace 1023 = 971 := by decide
    have hunits := h.units (2 ^ 53)
    rw [hlast, lt_div_iff₀ hpos, eq_div_iff hpos.ne'] at hunits
    have hfull : 9218868437227405312 ≤ (lastPlace 1023 + 1074).toNat * 4503599627370496 + m ↔ 2 ^ 53 ≤ m := by
      rw [hlast]
      omega
    have heven : 2 ^ 53 % 2 = 0 := by decide
    rw [hfull, hunits, le_iff_lt_or_eq, and_iff_left heven, Nat.cast_pow, Nat.cast_ofNat]
  · have hlast : 972 ≤ lastPlace d := by unfold lastPlace; omega
    have hm' := h.two_pow_le (by omega)
    have hv : 2 ^ 53 * 2 ^ (971 : ℤ) ≤ v := by
      calc (2 ^ 53 * 2 ^ (971 : ℤ) : ℚ) = 2 ^ (1024 : ℤ) := (zpow_add₀ two_ne_zero 53 971).symm
        _ ≤ 2 ^ d := zpow_le_zpow_right₀ one_le_two hd
        _ ≤ v := h.le
    refine iff_of_true (by omega) (le_trans ?_ hv)
    refine mul_le_mul_of_nonneg_right ?_ hpos.le
    norm_num

theorem isFinite_ofRatio_iff (hnum : 0 < num) (hden : 0 < den) (negative : Bool) :
    (ofRatio negative num den).isFinite = true ↔ (num / den : ℚ) < overflow := by
  obtain ⟨d, m, h, heq⟩ := exists_roundsTo hnum hden negative
  have hmagnitude := magnitude_ofMagnitude (Nat.min_le_left topMagnitude ((lastPlace d + 1074).toNat * fractionBits + m))
  rw [← not_le (a := (overflow : ℚ)), ← h.overflow_iff, heq, isFinite, decide_eq_true_eq, hmagnitude]
  omega

theorem isPositive_ofRatio (hden : 0 < den) (hle : den ≤ num) : (ofRatio false num den).isPositive = true := by
  obtain ⟨d, m, h, heq⟩ := exists_roundsTo (hden.trans_le hle) hden false
  have hden_pos : (0 : ℚ) < den := by exact_mod_cast hden
  have hone : (1 : ℚ) ≤ num / den := (one_le_div hden_pos).2 (by exact_mod_cast hle)
  have hd : -1022 ≤ d := by
    by_contra hd
    have hpow : (2 : ℚ) ^ (d + 1) ≤ 1 := zpow_le_one_of_nonpos₀ one_le_two (by omega)
    linarith [h.lt]
  have hm := h.two_pow_le hd
  have htop : topMagnitude = 9218868437227405312 := by decide
  have hsize := Nat.min_le_left topMagnitude ((lastPlace d + 1074).toNat * fractionBits + m)
  have hzero : (ofRatio false num den).isZero = false := by
    rw [heq, isZero, magnitude_ofMagnitude hsize, beq_eq_false_iff_ne]
    omega
  rw [isPositive, hzero, heq, isNegative_ofMagnitude hsize, isNaN_ofMagnitude hsize]
  rfl

theorem isFinite_ofRatio_one_iff {n : Nat} (hn : 0 < n) : (ofRatio false n 1).isFinite = true ↔ n < overflow := by
  have hfinite := isFinite_ofRatio_iff hn Nat.one_pos false
  rwa [Nat.cast_one, div_one, Nat.cast_lt] at hfinite

/-- An integer above zero has no finite number near it from `overflow` on. -/
theorem ofInt?_of_pos {n : Int} (hpos : 0 < n) :
    ofInt? n = if n < overflow then some (ofRatio false n.toNat 1) else none := by
  obtain ⟨k, rfl⟩ := Int.eq_ofNat_of_zero_le hpos.le
  have hfinite := isFinite_ofRatio_one_iff (Int.natCast_pos.1 hpos)
  have hsign : decide ((k : Int) < 0) = false := decide_eq_false (by omega)
  unfold ofInt?
  rw [hsign, Int.natAbs_natCast, Int.toNat_natCast]
  simp only [hfinite, Int.ofNat_lt]

/-- The number of digits is the order of an integer in tens. -/
theorem digits_bounds (h : digits ≠ 0) : 10 ^ ((Nat.toDigits 10 digits).length - 1) ≤ digits ∧
    digits < 10 ^ (Nat.toDigits 10 digits).length := by
  refine ⟨?_, (Nat.length_toDigits_le_iff (by decide) Nat.length_toDigits_pos).1 (Nat.le_refl _)⟩
  by_contra hlt
  rcases Nat.eq_zero_or_pos ((Nat.toDigits 10 digits).length - 1) with hzero | hpos
  · rw [hzero, Nat.pow_zero] at hlt
    omega
  · have hlength := (Nat.length_toDigits_le_iff (by decide) hpos).2 (Nat.lt_of_not_le hlt)
    omega

theorem decimal_bounds (h : digits ≠ 0) (e : Int) :
    (10 ^ (e + (Nat.toDigits 10 digits).length - 1) : ℚ) ≤ digits * 10 ^ e ∧
      (digits * 10 ^ e : ℚ) < 10 ^ (e + (Nat.toDigits 10 digits).length) := by
  obtain ⟨hle, hlt⟩ := digits_bounds h
  have hpos : 0 < (Nat.toDigits 10 digits).length := Nat.length_toDigits_pos
  generalize (Nat.toDigits 10 digits).length = places at *
  have hpower : (0 : ℚ) < 10 ^ e := by positivity
  have hten : ∀ n : Nat, (10 ^ (e + n) : ℚ) = (10 ^ n : ℕ) * 10 ^ e := fun n => by
    rw [zpow_add₀ (by norm_num), zpow_natCast, mul_comm, Nat.cast_pow, Nat.cast_ofNat]
  have hpred : e + (places : ℤ) - 1 = e + (places - 1 : ℕ) := by omega
  rw [hpred, hten, hten]
  exact ⟨mul_le_mul_of_nonneg_right (by exact_mod_cast hle) hpower.le,
    mul_lt_mul_of_pos_right (by exact_mod_cast hlt) hpower⟩

theorem one_le_overflow : (1 : ℚ) ≤ overflow := by
  have hpower : (1 : ℚ) ≤ 2 ^ (971 : ℤ) := one_le_zpow₀ one_le_two (by decide)
  rw [cast_overflow]
  exact one_le_mul_of_one_le_of_one_le (by norm_num) hpower

theorem overflow_pos : 0 < overflow := by
  have hone := one_le_overflow
  exact_mod_cast hone

theorem overflow_le_ten_pow : (overflow : ℚ) ≤ 10 ^ (400 : ℤ) := by
  calc (overflow : ℚ) ≤ 2 ^ 53 * 2 ^ (971 : ℤ) := by
        rw [cast_overflow]
        refine mul_le_mul_of_nonneg_right ?_ (by positivity)
        norm_num
    _ = 2 ^ (1024 : ℤ) := (zpow_add₀ two_ne_zero 53 971).symm
    _ ≤ 2 ^ (1200 : ℤ) := zpow_le_zpow_right₀ one_le_two (by decide)
    _ = (2 ^ (3 : ℤ)) ^ (400 : ℤ) := by rw [← zpow_mul]; rfl
    _ ≤ 10 ^ (400 : ℤ) := zpow_le_zpow_left₀ (by decide) (by positivity) (by norm_num)

/-- Decimals of very many places or very few are not rounded, and come out as if they were. -/
theorem isFinite_ofDecimal_iff : (ofDecimal negative digits e).isFinite = true ↔ (digits * 10 ^ e : ℚ) < overflow := by
  have hnull : (ofMagnitude negative 0).isFinite = true := by cases negative <;> decide
  have hfull : (ofMagnitude negative topMagnitude).isFinite = false := by cases negative <;> decide
  unfold ofDecimal
  split
  · next hzero =>
    rw [hzero, Nat.cast_zero, zero_mul]
    exact iff_of_true hnull (zero_lt_one.trans_le one_le_overflow)
  · next hne =>
    obtain ⟨hle, hlt⟩ := decimal_bounds hne e
    dsimp only
    split
    · next hmany =>
      refine iff_of_false (by simp [hfull]) (not_lt.2 (overflow_le_ten_pow.trans (le_trans ?_ hle)))
      exact zpow_le_zpow_right₀ (by norm_num) (by omega)
    · split
      · next hfew =>
        refine iff_of_true hnull (hlt.trans_le (le_trans ?_ one_le_overflow))
        exact zpow_le_one_of_nonpos₀ (by norm_num) (by omega)
      · have hvalue : ((digits * Nat.pow 10 e.toNat : ℕ) : ℚ) / (Nat.pow 10 (-e).toNat : ℕ) = digits * 10 ^ e := by
          rw [zpow_eq_pow_div_pow, Nat.pow_eq, Nat.pow_eq, mul_div_assoc']
          push_cast
          rfl
        have hnum : 0 < digits * Nat.pow 10 e.toNat := Nat.mul_pos (Nat.pos_of_ne_zero hne) (Nat.pow_pos (by decide))
        have hden : 0 < Nat.pow 10 (-e).toNat := Nat.pow_pos (by decide)
        rw [isFinite_ofRatio_iff hnum hden, hvalue]

theorem ofDecimal_eq_infinity_iff : ofDecimal false digits e = infinity ↔ (overflow : ℚ) ≤ digits * 10 ^ e := by
  obtain ⟨m, hm, heq⟩ := exists_ofDecimal false digits e
  have hinfinity : ofMagnitude false m = infinity ↔ m = topMagnitude := by
    constructor
    · intro h
      rw [← magnitude_ofMagnitude hm false, h]
      decide
    · rintro rfl
      rfl
  have hfinite : (ofDecimal false digits e).isFinite = true ↔ (digits * 10 ^ e : ℚ) < overflow := isFinite_ofDecimal_iff
  rw [← not_lt, ← hfinite, heq, hinfinity, isFinite, magnitude_ofMagnitude hm, decide_eq_true_eq]
  omega

end Binary64
end AttestationTrust
