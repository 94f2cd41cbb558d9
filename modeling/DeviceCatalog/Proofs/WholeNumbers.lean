import DeviceCatalog.Binary64

/-!
# Whole numbers among the binary64 numbers

A number that is whole is finite, and its sign, its distance from zero and whether it is zero are those of the integer that it is.
-/

namespace DeviceCatalog.Binary64

/-- The bits that a number has besides its sign. -/
theorem toNat_bits_abs (x : Binary64) : x.abs.bits.toNat = x.bits.toNat % 9223372036854775808 := by
  rw [abs, UInt64.toNat_and]
  exact Nat.and_two_pow_sub_one_eq_mod _ 63

theorem storedExponent_abs (x : Binary64) : x.abs.storedExponent = x.storedExponent := by
  have hparts : Nat.pow 2 52 = 4503599627370496 ∧ Nat.pow 2 11 = 2048 := by decide
  rw [storedExponent, storedExponent, toNat_bits_abs, hparts.1, hparts.2]
  omega

theorem fraction_abs (x : Binary64) : x.abs.fraction = x.fraction := by
  have hparts : Nat.pow 2 52 = 4503599627370496 := by decide
  rw [fraction, fraction, toNat_bits_abs, hparts]
  omega

theorem negative_abs (x : Binary64) : x.abs.negative = false := by
  have hparts : Nat.pow 2 63 = 9223372036854775808 := by decide
  rw [negative, toNat_bits_abs, hparts]
  exact decide_eq_false (by omega)

/-- The sign does not matter for the distance from zero. -/
theorem kind_abs (x : Binary64) : x.abs.kind = x.kind := by
  rw [kind, kind, storedExponent_abs, fraction_abs]

theorem magnitude_abs (x : Binary64) : x.abs.magnitude = x.magnitude := by
  rw [magnitude, magnitude, kind_abs]

/-- A number is zero when it has no bits besides its sign. -/
theorem isZero_iff (x : Binary64) : x.isZero = true ↔ x.storedExponent = 0 ∧ x.fraction = 0 := by
  have hbits : x.isZero = true ↔ x.bits.toNat % 9223372036854775808 = 0 := by
    rw [isZero, beq_iff_eq, ← toNat_bits_abs, ← UInt64.toNat_inj]
    rfl
  have hparts : Nat.pow 2 52 = 4503599627370496 ∧ Nat.pow 2 11 = 2048 := by decide
  rw [hbits, storedExponent, fraction, hparts.1, hparts.2]
  omega

/-- A number is finite unless its exponent is the greatest one, and it is zero when exponent and fraction are. -/
theorem exists_kind_finite {x : Binary64} (h : x.storedExponent ≠ 2047) :
    ∃ m e, x.kind = .finite m e ∧ (m = 0 ↔ x.storedExponent = 0 ∧ x.fraction = 0) := by
  rw [kind, if_neg h]
  by_cases hzero : x.storedExponent = 0
  · exact ⟨x.fraction, -1074, by rw [if_pos hzero], by simp [hzero]⟩
  · refine ⟨Nat.pow 2 52 + x.fraction, x.storedExponent - 1075, by rw [if_neg hzero], ?_⟩
    have hhidden : 0 < Nat.pow 2 52 := by decide
    simp only [hzero, false_and, iff_false]
    omega

/-- The denominator of a magnitude is positive. -/
theorem magnitude_pos (x : Binary64) : 0 < x.magnitude.2 := by
  unfold magnitude
  split
  · exact Nat.pow_pos Nat.zero_lt_two
  · exact Nat.zero_lt_one

/-- A whole number is finite, and its numerator is a multiple of its denominator. -/
theorem whole?_eq_some_iff {x : Binary64} {n : Int} : x.whole? = some n ↔
    x.storedExponent ≠ 2047 ∧ ∃ q : Nat, x.magnitude.1 = x.magnitude.2 * q ∧ n = if x.negative then -(q : Int) else q := by
  by_cases hfinite : x.storedExponent = 2047
  · have hnone : x.whole? = none := by
      rw [whole?, kind, if_pos hfinite]
      by_cases hfraction : x.fraction = 0 <;> simp [hfraction]
    simp [hnone, hfinite]
  · obtain ⟨m, e, hkind, -⟩ := exists_kind_finite hfinite
    rw [whole?, hkind, and_iff_right hfinite]
    dsimp only
    by_cases hdvd : x.magnitude.1 % x.magnitude.2 = 0
    · rw [if_pos hdvd, Option.some_inj]
      constructor
      · exact fun hn => ⟨_, (Nat.mul_div_cancel' (Nat.dvd_of_mod_eq_zero hdvd)).symm, hn.symm⟩
      · rintro ⟨q, hq, hn⟩
        rw [hn, hq, Nat.mul_div_cancel_left q x.magnitude_pos]
    · rw [if_neg hdvd]
      refine iff_of_false (fun h => by cases h) ?_
      rintro ⟨q, hq, -⟩
      exact hdvd (by rw [hq, Nat.mul_mod_right])

variable {x : Binary64} {n : Int}

/-- The distance from zero of a whole number is whole. -/
theorem whole?_abs (h : x.whole? = some n) : x.abs.whole? = some (n.natAbs : Int) := by
  obtain ⟨hfinite, q, hq, hn⟩ := whole?_eq_some_iff.1 h
  rw [whole?_eq_some_iff, storedExponent_abs, magnitude_abs, negative_abs]
  refine ⟨hfinite, q, hq, ?_⟩
  rw [if_neg Bool.false_ne_true, hn]
  split <;> omega

/-- A whole number is zero when it is the integer zero. -/
theorem isZero_iff_of_whole (h : x.whole? = some n) : x.isZero = true ↔ n = 0 := by
  obtain ⟨hfinite, q, hq, hn⟩ := whole?_eq_some_iff.1 h
  obtain ⟨m, e, hkind, hm⟩ := exists_kind_finite hfinite
  have hnumerator : x.magnitude.1 = m * Nat.pow 2 e.toNat := by rw [magnitude, hkind]
  have hscale : 0 < Nat.pow 2 e.toNat := Nat.pow_pos Nat.zero_lt_two
  have hdenominator := x.magnitude_pos
  have hquotient : q = 0 ↔ m = 0 := by
    have hnumerators : m * Nat.pow 2 e.toNat = x.magnitude.2 * q := hnumerator.symm.trans hq
    constructor
    · rintro rfl
      exact (Nat.mul_eq_zero.1 hnumerators).resolve_right (Nat.ne_of_gt hscale)
    · rintro rfl
      rw [Nat.zero_mul] at hnumerators
      exact (Nat.mul_eq_zero.1 hnumerators.symm).resolve_left (Nat.ne_of_gt hdenominator)
  rw [isZero_iff, ← hm, ← hquotient, hn]
  split <;> omega

theorem isNaN_of_whole (h : x.whole? = some n) : x.isNaN = false := by
  rw [isNaN, decide_eq_false (whole?_eq_some_iff.1 h).1, Bool.false_and]

/-- A whole number that is not zero has the sign of its integer. -/
theorem negative_of_whole (h : x.whole? = some n) (hzero : n ≠ 0) : x.negative = decide (n < 0) := by
  obtain ⟨-, q, -, hn⟩ := whole?_eq_some_iff.1 h
  cases hsign : x.negative with
  | true =>
    rw [hsign, if_pos rfl] at hn
    exact (decide_eq_true (by omega)).symm
  | false =>
    rw [hsign, if_neg Bool.false_ne_true] at hn
    exact (decide_eq_false (by omega)).symm

theorem isPositive_iff_of_whole (h : x.whole? = some n) : x.isPositive = true ↔ 0 < n := by
  rw [isPositive, isNaN_of_whole h]
  by_cases hzero : n = 0
  · simp [(isZero_iff_of_whole h).2 hzero, hzero]
  · have hnonzero : x.isZero = false := Bool.eq_false_iff.2 fun hz => hzero ((isZero_iff_of_whole h).1 hz)
    rw [hnonzero, negative_of_whole h hzero]
    simp only [Bool.not_false, Bool.true_and, Bool.not_eq_true', decide_eq_false_iff_not]
    omega

theorem isNegative_iff_of_whole (h : x.whole? = some n) : x.isNegative = true ↔ n < 0 := by
  rw [isNegative, isNaN_of_whole h]
  by_cases hzero : n = 0
  · simp [(isZero_iff_of_whole h).2 hzero, hzero]
  · have hnonzero : x.isZero = false := Bool.eq_false_iff.2 fun hz => hzero ((isZero_iff_of_whole h).1 hz)
    rw [hnonzero, negative_of_whole h hzero]
    simp

end DeviceCatalog.Binary64
