import Spreadsheet.Proofs.Number.Binary64
import Spreadsheet.Proofs.Number.HalfEven

/-!
# Quotients of whole numbers

Every fraction up to the middle of the gap after the greatest double rounds to a double, which is found
as the nearest one, and no fraction from there on does. So a division of whole numbers gives the double
that the quotient rounds to, and fails just when there is none.
-/

set_option autoImplicit false

namespace Spreadsheet

namespace Binary64

variable {q : ℚ} {m num den : Nat} {e : Int}

/-- The middle of the gap after the greatest double. -/
def overflow : ℚ := (2 ^ 53 - 1 / 2) * 2 ^ greatestExponent

theorem RoundsTo.lt_overflow (hDouble : IsDouble m e) (h : RoundsTo q m e) : q < overflow := by
  have hSmall : (m : ℚ) + 1 ≤ 2 ^ 53 := by exact_mod_cast hDouble.small
  have hUnit : (0 : ℚ) < 2 ^ e := by positivity
  have hTop : ((2 : ℚ) ^ 53 - 1 / 2) * 2 ^ e ≤ overflow :=
    mul_le_mul_of_nonneg_left (zpow_le_zpow_right₀ one_le_two hDouble.greatest) (by norm_num)
  refine lt_of_lt_of_le ?_ hTop
  rcases Nat.mod_two_eq_zero_or_one m with hEven | hOdd
  · have hLess : (m : ℚ) + 2 ≤ 2 ^ 53 := by
      have hSmall' := hDouble.small
      exact_mod_cast (show m + 2 ≤ 2 ^ 53 by omega)
    exact lt_of_le_of_lt h.high (mul_lt_mul_of_pos_right (by linarith) hUnit)
  · exact lt_of_lt_of_le (h.odd hOdd).2 (mul_le_mul_of_nonneg_right (by linarith) hUnit.le)

theorem roundHalfEven_bounds (num : Nat) (hDen : 0 < den) :
    (roundHalfEven num den - 1 / 2 : ℚ) ≤ num / den ∧
      (num / den : ℚ) ≤ roundHalfEven num den + 1 / 2 ∧
      (roundHalfEven num den % 2 = 1 → (roundHalfEven num den - 1 / 2 : ℚ) < num / den ∧
        (num / den : ℚ) < roundHalfEven num den + 1 / 2) := by
  have hDen' : (0 : ℚ) < den := by exact_mod_cast hDen
  obtain ⟨hNear, hEven⟩ := isNearestEven_roundHalfEven num hDen
  generalize roundHalfEven num den = r at *
  rw [le_div_iff₀ hDen', div_le_iff₀ hDen', lt_div_iff₀ hDen', div_lt_iff₀ hDen']
  have hNear' : 2 * |(num : ℚ) - r * den| ≤ den := by exact_mod_cast hNear
  have hBelow : -|(num : ℚ) - r * den| ≤ num - r * den := neg_abs_le _
  have hAbove : (num : ℚ) - r * den ≤ |(num : ℚ) - r * den| := le_abs_self _
  refine ⟨by linarith, by linarith, fun hOdd => ?_⟩
  have hNotHalf : 2 * |(num : ℚ) - r * den| ≠ den := by
    intro hHalf
    have hTwo := hEven (by exact_mod_cast hHalf)
    rw [Int.even_coe_nat, Nat.even_iff] at hTwo
    omega
  have hStrict := lt_of_le_of_ne hNear' hNotHalf
  exact ⟨by linarith, by linarith⟩

theorem roundsTo_zero : RoundsTo 0 0 leastExponent := by
  have hUnit : (0 : ℚ) < 2 ^ leastExponent := by positivity
  have hGap : gapBelow 0 leastExponent = 1 / 2 := if_neg (by decide)
  refine ⟨?_, ?_, fun hOdd => absurd hOdd (by decide)⟩
  · rw [hGap, Nat.cast_zero, zero_sub, neg_mul, Left.neg_nonpos_iff]
    positivity
  · positivity

theorem roundsTo_of_bounds (hPlace : e = leastExponent ∨ 2 ^ 52 ≤ q / 2 ^ e)
    (hLow : m - 1 / 2 ≤ q / 2 ^ e) (hHigh : q / 2 ^ e ≤ m + 1 / 2)
    (hOdd : m % 2 = 1 → m - 1 / 2 < q / 2 ^ e ∧ q / 2 ^ e < m + 1 / 2) : RoundsTo q m e := by
  have hUnit : (0 : ℚ) < 2 ^ e := by positivity
  have hGap : m - gapBelow m e ≤ q / 2 ^ e := by
    rw [gapBelow]
    split_ifs with hBorder
    · obtain ⟨rfl, hAbove⟩ := hBorder
      have hPlace' := hPlace.resolve_left hAbove.ne'
      push_cast
      linarith
    · exact hLow
  refine ⟨(le_div_iff₀ hUnit).mp hGap, (div_le_iff₀ hUnit).mp hHigh, fun hm => ?_⟩
  have hWide : gapBelow m e = 1 / 2 := by
    refine if_neg fun hBorder => ?_
    omega
  rw [hWide, ← lt_div_iff₀ hUnit, ← div_lt_iff₀ hUnit]
  exact hOdd hm

theorem roundsTo_of_carry (hLeast : leastExponent ≤ e) (hLow : 2 ^ 53 - 1 / 2 ≤ q / 2 ^ e)
    (hHigh : q / 2 ^ e < 2 ^ 53) : RoundsTo q (2 ^ 52) (e + 1) := by
  have hHalf : q / 2 ^ (e + 1) = q / 2 ^ e / 2 := by
    rw [zpow_add_one₀ two_ne_zero, div_mul_eq_div_div]
  have hUnit : (0 : ℚ) < 2 ^ (e + 1) := by positivity
  have hGap : gapBelow (2 ^ 52) (e + 1) = 1 / 4 := if_pos ⟨rfl, by omega⟩
  refine ⟨?_, ?_, fun hOdd => absurd hOdd (by decide)⟩
  · rw [← le_div_iff₀ hUnit, hHalf, hGap]
    push_cast
    linarith
  · rw [← div_le_iff₀ hUnit, hHalf]
    push_cast
    linarith

theorem overflow_le (hTop : greatestExponent ≤ e) (h : 2 ^ 53 - 1 / 2 ≤ q / 2 ^ e) :
    overflow ≤ q := by
  have hUnit : (0 : ℚ) < 2 ^ e := by positivity
  calc overflow
    _ ≤ (2 ^ 53 - 1 / 2) * 2 ^ e :=
      mul_le_mul_of_nonneg_left (zpow_le_zpow_right₀ one_le_two hTop) (by norm_num)
    _ ≤ q := (le_div_iff₀ hUnit).mp h

theorem overflow_le_of_lt (hTop : greatestExponent < e) (hNormal : 2 ^ 52 ≤ q / 2 ^ e) :
    overflow ≤ q := by
  have hHalf : q / 2 ^ (e - 1) = 2 * (q / 2 ^ e) := by
    rw [zpow_sub_one₀ two_ne_zero]
    field_simp
  apply overflow_le (show greatestExponent ≤ e - 1 by omega)
  rw [hHalf]
  linarith

theorem isDouble_of_bounds (hLeast : leastExponent ≤ e) (hGreatest : e ≤ greatestExponent)
    (hSmall : m < 2 ^ 53) (hPlace : e = leastExponent ∨ 2 ^ 52 ≤ q / 2 ^ e)
    (hHigh : q / 2 ^ e ≤ m + 1 / 2) : IsDouble m e := by
  refine ⟨hSmall, hLeast, hGreatest, fun hFew => ?_⟩
  by_contra hAbove
  have hNormal := hPlace.resolve_left hAbove
  have hFew' : (m : ℚ) + 1 ≤ 2 ^ 52 := by exact_mod_cast hFew
  linarith

theorem exponentFor_bounds (hNum : 0 < num) (hDen : 0 < den) (he : exponentFor num den = e) :
    leastExponent ≤ e ∧ (e = leastExponent ∨ 2 ^ 52 ≤ (num / den / 2 ^ e : ℚ)) ∧
      (num / den / 2 ^ e : ℚ) < 2 ^ 53 := by
  rw [exponentFor_eq_log hNum hDen] at he
  have hPositive : (0 : ℚ) < num / den := by positivity
  have hUnit : (0 : ℚ) < 2 ^ e := by positivity
  have hPower (k : Nat) : (2 : ℚ) ^ k * 2 ^ e = 2 ^ (e + (k : Int)) := by
    rw [zpow_add₀ two_ne_zero, zpow_natCast, mul_comm]
  have hLow := Int.zpow_log_le_self one_lt_two hPositive
  have hHigh := Int.lt_zpow_succ_log_self one_lt_two (num / den : ℚ)
  rw [Nat.cast_ofNat] at hLow hHigh
  rw [div_lt_iff₀ hUnit, le_div_iff₀ hUnit, hPower, hPower]
  refine ⟨by omega, ?_, ?_⟩
  · rcases le_or_gt (Int.log 2 (num / den : ℚ) - 52) leastExponent with hTiny | hNormal
    · exact .inl (by omega)
    · exact .inr ((zpow_le_zpow_right₀ one_le_two (by omega)).trans hLow)
  · exact lt_of_lt_of_le hHigh (zpow_le_zpow_right₀ one_le_two (by omega))

/-- The nearest double to a fraction is one that it rounds to, if there is any. -/
theorem nearest_spec (negative : Bool) (num : Nat) (hDen : 0 < den) :
    (∃ m e, IsDouble m e ∧ RoundsTo (num / den) m e ∧
      nearest negative num den = some (encode negative m e)) ∨
      (overflow ≤ num / den ∧ nearest negative num den = none) := by
  rcases Nat.eq_zero_or_pos num with rfl | hNum
  · refine .inl ⟨0, leastExponent, ⟨by decide, le_rfl, by decide, fun _ => rfl⟩, ?_, rfl⟩
    rw [Nat.cast_zero, zero_div]
    exact roundsTo_zero
  obtain ⟨e, he⟩ : ∃ e, exponentFor num den = e := ⟨_, rfl⟩
  obtain ⟨hLeast, hPlace, hHigh⟩ := exponentFor_bounds hNum hDen he
  have hBounds := roundHalfEven_bounds (scale num den e).1 (scale_pos hDen num e)
  rw [scale_div] at hBounds
  rw [nearest, beq_eq_false_iff_ne.mpr hNum.ne', if_neg Bool.false_ne_true]
  dsimp only
  rw [he]
  generalize roundHalfEven (scale num den e).1 (scale num den e).2 = m at *
  obtain ⟨hLow, hUp, hOdd⟩ := hBounds
  have hMost : m ≤ 2 ^ 53 := by
    have hLess : (m : ℚ) < 2 ^ 53 + 1 := by linarith
    exact Nat.lt_succ_iff.mp (by exact_mod_cast hLess)
  -- Rounding may reach the next power of two, which has the next exponent.
  by_cases hCarry : m = 2 ^ 53
  · subst hCarry
    push_cast at hLow
    rw [Nat.pow_eq, Nat.pow_eq, beq_self_eq_true, if_pos rfl]
    by_cases hTop : greatestExponent < e + 1
    · exact .inr ⟨overflow_le (by omega) hLow, if_pos hTop⟩
    · have hDouble : IsDouble (2 ^ 52) (e + 1) :=
        ⟨by decide, by omega, by omega, fun hFew => absurd hFew (lt_irrefl _)⟩
      exact .inl ⟨_, _, hDouble, roundsTo_of_carry hLeast hLow hHigh, if_neg hTop⟩
  · rw [Nat.pow_eq, beq_eq_false_iff_ne.mpr hCarry, if_neg Bool.false_ne_true]
    by_cases hTop : greatestExponent < e
    · have hAbove : e ≠ leastExponent := by
        rintro rfl
        exact absurd hTop (by decide)
      exact .inr ⟨overflow_le_of_lt hTop (hPlace.resolve_left hAbove), if_pos hTop⟩
    · have hDouble : IsDouble m e :=
        isDouble_of_bounds hLeast (not_lt.mp hTop) (by omega) hPlace hUp
      exact .inl ⟨_, _, hDouble, roundsTo_of_bounds hPlace hLow hUp hOdd, if_neg hTop⟩

end Binary64

namespace Number

open Binary64

/-- A whole number divided by another one is the double that their quotient rounds to, if there is
any. -/
theorem div_ints (a : Int) {b : Int} (hb : b ≠ 0) :
    (∃ m e, IsDouble m e ∧ RoundsTo |(a / b : ℚ)| m e ∧
      (int a).div (int b) = .ok (float (encode (decide (a < 0) != decide (b < 0)) m e))) ∨
      (overflow ≤ |(a / b : ℚ)| ∧ (int a).div (int b) = .error .quotientBeyondFloat) := by
  have hQuotient : |(a / b : ℚ)| = (a.natAbs : ℚ) / (b.natAbs : ℚ) := by
    rw [abs_div, Nat.cast_natAbs, Nat.cast_natAbs, Int.cast_abs, Int.cast_abs]
  rw [hQuotient, div]
  rcases nearest_spec (decide (a < 0) != decide (b < 0)) a.natAbs (Int.natAbs_pos.mpr hb) with
    ⟨m, e, hDouble, hRounds, hNearest⟩ | ⟨hOver, hNone⟩
  · exact .inl ⟨m, e, hDouble, hRounds, by rw [hNearest]⟩
  · exact .inr ⟨hOver, by rw [hNone]⟩

theorem div_ints_eq_error_iff (a : Int) {b : Int} (hb : b ≠ 0) :
    (int a).div (int b) = .error .quotientBeyondFloat ↔ overflow ≤ |(a / b : ℚ)| := by
  rcases div_ints a hb with ⟨m, e, hDouble, hRounds, hValue⟩ | ⟨hOver, hFault⟩
  · rw [hValue]
    exact iff_of_false nofun (not_le.mpr (hRounds.lt_overflow hDouble))
  · exact iff_of_true hFault hOver

end Number
end Spreadsheet
