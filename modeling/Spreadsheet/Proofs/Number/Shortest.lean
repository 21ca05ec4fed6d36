import Spreadsheet.Number.Shortest
import Spreadsheet.Proofs.Address.Readable
import Spreadsheet.Proofs.Address.RoundTrip
import Spreadsheet.Proofs.Number.Binary64

/-!
# The fewest digits of a double

Whatever `shortest` finds lies between the middles of the gaps beside the number, so it is read back
as the number. It does find something: with 17 digits a step of the last one is shorter than the
gaps, so one of the two whole numbers beside the double lies between the middles.
-/

set_option autoImplicit false

namespace Spreadsheet.Decimal

open Binary64

variable {m num den c n : Nat} {e k point : Int}

theorem shift_div (num den : Nat) (k : Int) :
    ((shift num den k).1 : ℚ) / (shift num den k).2 = num / den * 10 ^ k := by
  rw [shift, Nat.pow_eq, Nat.pow_eq]
  split_ifs with h
  · rw [Nat.cast_mul, cast_pow_toNat 10 (by omega), Nat.cast_ofNat, zpow_neg, div_mul_eq_div_div,
      div_inv_eq_mul]
  · rw [Nat.cast_mul, cast_pow_toNat 10 (by omega), Nat.cast_ofNat, mul_div_right_comm]

theorem shift_pos (h : 0 < den) (num : Nat) (k : Int) : 0 < (shift num den k).2 := by
  rw [shift, Nat.pow_eq, Nat.pow_eq]
  split_ifs
  · positivity
  · exact h

theorem length_digits (n : Nat) : (digits n).length = Nat.log 10 n + 1 := by
  have hPositive : 0 < (digits n).length := List.length_pos_iff.mpr (digits_ne_nil n)
  have hLess := (Nat.length_toDigits_le_iff (by decide) hPositive).mp (le_refl (digits n).length)
  apply le_antisymm
  · exact Decimal.digits_length_le (Nat.succ_pos _) (Nat.lt_pow_succ_log_self (by decide) n)
  · exact Nat.log_lt_of_lt_pow' hPositive.ne' hLess

theorem pointPlace_eq_log (hNum : 0 < num) (hDen : 0 < den) :
    pointPlace num den = Int.log 10 (num / den : ℚ) + 1 := by
  have hBelow (p : Int) : (shift num den (-p)).1 < (shift num den (-p)).2 ↔
      (num / den : ℚ) < 10 ^ p := by
    have hShifted : (0 : ℚ) < (shift num den (-p)).2 := by exact_mod_cast shift_pos hDen num (-p)
    rw [← Nat.cast_lt (α := ℚ), ← div_lt_one hShifted, shift_div, zpow_neg, ← div_eq_mul_inv,
      div_lt_one (by positivity)]
  have hLog := log_div (show 1 < 10 by decide) hNum hDen
  rw [Nat.cast_ofNat] at hLog
  rw [pointPlace, hLog]
  dsimp only
  simp only [hBelow, length_digits, Nat.cast_succ, add_sub_add_right_eq_sub]
  split_ifs <;> ring

/-! ## The interval of what is read back -/

theorem fraction_eq (m : Nat) (e : Int) :
    fraction m e = (m * (fraction 1 e).1, (fraction 1 e).2) := by
  rw [fraction, fraction]
  split_ifs
  · rw [Nat.mul_one]
  · rw [Nat.one_mul]

/-- The test of `shortestWith`, whether `c` with its point moved by `k` places is read back. -/
def isInside (m : Nat) (e : Int) (k : Int) (c : Nat) : Bool :=
  let (low, _, high, den) := readBack m e
  let (s, d) := shift 1 1 k
  let x := c * den * d
  if m % 2 == 0 then low * s ≤ x && x ≤ high * s else low * s < x && x < high * s

/-- The whole number below the double with its point moved by `k` places. -/
def neighbour (m : Nat) (e : Int) (k : Int) : Nat :=
  let (_, v, _, den) := readBack m e
  let (s, d) := shift 1 1 k
  v * s / (den * d)

theorem exists_shortestWith_eq (m : Nat) (e point : Int) (n : Nat) :
    let k := n - point
    let q := neighbour m e k
    ∃ isNearer : Bool, shortestWith m e point n =
      if isInside m e k q && q != 0 then
        if isInside m e k (q + 1) && isNearer then some (q + 1) else some q
      else if isInside m e k (q + 1) then some (q + 1) else none := ⟨_, rfl⟩

theorem isInside_of_shortestWith (h : shortestWith m e point n = some c) :
    isInside m e (n - point) c = true := by
  obtain ⟨isNearer, hTests⟩ := exists_shortestWith_eq m e point n
  rw [hTests] at h
  split_ifs at h with hBelow hNearer hAbove
  · obtain rfl := Option.some.inj h
    exact (Bool.and_eq_true_iff.mp hNearer).1
  · obtain rfl := Option.some.inj h
    exact (Bool.and_eq_true_iff.mp hBelow).1
  · obtain rfl := Option.some.inj h
    exact hAbove

theorem shortestWith_ne_none (hNonzero : neighbour m e (n - point) ≠ 0)
    (h : isInside m e (n - point) (neighbour m e (n - point)) = true ∨
      isInside m e (n - point) (neighbour m e (n - point) + 1) = true) :
    shortestWith m e point n ≠ none := by
  intro hNone
  obtain ⟨isNearer, hTests⟩ := exists_shortestWith_eq m e point n
  rw [hTests] at hNone
  split_ifs at hNone with hBelow hNearer hAbove
  rcases h with h | h
  · exact hBelow (Bool.and_eq_true_iff.mpr ⟨h, bne_iff_ne.mpr hNonzero⟩)
  · exact hAbove h

/-- The interval in units of its denominator. -/
theorem readBack_div (hm : m ≠ 0) (e : Int) :
    ((readBack m e).1 : ℚ) / (readBack m e).2.2.2 = (m - gapBelow m e) * 2 ^ e ∧
      ((readBack m e).2.1 : ℚ) / (readBack m e).2.2.2 = m * 2 ^ e ∧
      ((readBack m e).2.2.1 : ℚ) / (readBack m e).2.2.2 = (m + 1 / 2) * 2 ^ e ∧
      0 < (readBack m e).2.2.2 := by
  have hUnit := fraction_div 1 e
  have hDen := fraction_pos 1 e
  rw [readBack, fraction_eq m e]
  dsimp only
  generalize (fraction 1 e).1 = unit at *
  generalize (fraction 1 e).2 = den at *
  have hDen' : (0 : ℚ) < den := by exact_mod_cast hDen
  rw [Nat.cast_one, one_mul] at hUnit
  have hMagnitude : unit ≤ m * unit := Nat.le_mul_of_pos_left unit (Nat.pos_of_ne_zero hm)
  rw [← hUnit]
  refine ⟨?_, ?_, ?_, by omega⟩
  · rw [gapBelow]
    by_cases hBorder : m = 2 ^ 52 ∧ leastExponent < e
    · rw [if_pos hBorder, if_pos (by simpa using hBorder), Nat.cast_sub (by omega)]
      push_cast
      field_simp
    · rw [if_neg hBorder, if_neg (by simpa using hBorder), Nat.cast_sub (by omega)]
      push_cast
      field_simp
      ring
  · push_cast
    field_simp
  · push_cast
    field_simp
    ring

theorem isInside_iff (hm : m ≠ 0) : isInside m e k c = true ↔ RoundsTo (c * 10 ^ (-k)) m e := by
  obtain ⟨hLow, -, hHigh, hDen⟩ := readBack_div hm e
  have hShift := shift_div 1 1 k
  have hDigits := shift_pos one_pos 1 k
  rw [isInside]
  dsimp only
  generalize (readBack m e).1 = low at *
  generalize (readBack m e).2.2.1 = high at *
  generalize (readBack m e).2.2.2 = den at *
  generalize (shift 1 1 k).1 = s at *
  generalize (shift 1 1 k).2 = d at *
  rw [Nat.cast_one, div_one, one_mul] at hShift
  have hScale : 0 < s := by
    refine Nat.pos_of_ne_zero ?_
    rintro rfl
    rw [Nat.cast_zero, zero_div] at hShift
    exact absurd hShift (by positivity)
  -- All is compared over one denominator.
  have hUnit : (0 : ℚ) < (den * s : Nat) := by positivity
  have hValue : (c * 10 ^ (-k) : ℚ) = (c * den * d : Nat) / (den * s : Nat) := by
    rw [zpow_neg, ← hShift]
    push_cast
    field_simp
  have hEnd (a : Nat) : (a / den : ℚ) = (a * s : Nat) / (den * s : Nat) := by
    push_cast
    field_simp
  have hLe (a b : Nat) : (a : ℚ) / (den * s : Nat) ≤ b / (den * s : Nat) ↔ a ≤ b := by
    rw [div_le_div_iff_of_pos_right hUnit, Nat.cast_le]
  have hLt (a b : Nat) : (a : ℚ) / (den * s : Nat) < b / (den * s : Nat) ↔ a < b := by
    rw [div_lt_div_iff_of_pos_right hUnit, Nat.cast_lt]
  have hRounds : RoundsTo (c * 10 ^ (-k)) m e ↔ low * s ≤ c * den * d ∧ c * den * d ≤ high * s ∧
      (m % 2 = 1 → low * s < c * den * d ∧ c * den * d < high * s) := by
    rw [← hLe, ← hLe, ← hLt, ← hLt, ← hValue, ← hEnd, ← hEnd, hLow, hHigh]
    exact ⟨fun h => ⟨h.low, h.high, h.odd⟩, fun ⟨hLow, hHigh, hOdd⟩ => ⟨hLow, hHigh, hOdd⟩⟩
  rw [hRounds]
  split_ifs with hParity
  · rw [beq_iff_eq] at hParity
    simp [hParity]
  · rw [beq_iff_eq] at hParity
    have hOdd : m % 2 = 1 := by omega
    simp only [Bool.and_eq_true, decide_eq_true_eq, hOdd, forall_const]
    exact ⟨fun h => ⟨h.1.le, h.2.le, h⟩, fun h => h.2.2⟩

/-- The digits that the double is between. -/
theorem neighbour_le (hm : m ≠ 0) (e k : Int) : (neighbour m e k : ℚ) ≤ m * 2 ^ e * 10 ^ k ∧
    m * 2 ^ e * 10 ^ k < (neighbour m e k : ℚ) + 1 := by
  obtain ⟨-, hValue, -, hDen⟩ := readBack_div hm e
  have hShift := shift_div 1 1 k
  have hDigits := shift_pos one_pos 1 k
  rw [Nat.cast_one, div_one, one_mul] at hShift
  rw [← hValue, ← hShift, div_mul_div_comm, ← Nat.cast_mul, ← Nat.cast_mul, neighbour]
  dsimp only
  rw [← Nat.floor_div_eq_div (K := ℚ)]
  exact ⟨Nat.floor_le (by positivity), Nat.lt_floor_add_one _⟩

/-- A step of the last of 17 digits is shorter than the gap on either side of a double. -/
theorem half_lt_gap (hDouble : IsDouble m e) (hLarge : (10 : ℚ) ^ 16 ≤ m * (2 ^ e * 10 ^ k)) :
    1 / 2 < gapBelow m e * (2 ^ e * 10 ^ k : ℚ) ∧ 1 / 2 < 1 / 2 * (2 ^ e * 10 ^ k : ℚ) := by
  have hSmall : (m : ℚ) ≤ 2 ^ 53 := by exact_mod_cast hDouble.small.le
  have hPositive : (0 : ℚ) < 2 ^ e * 10 ^ k := by positivity
  generalize (2 : ℚ) ^ e * 10 ^ k = step at *
  have hStep : 1 < step := by
    have hMost : (10 : ℚ) ^ 16 ≤ 2 ^ 53 * step :=
      hLarge.trans (mul_le_mul_of_nonneg_right hSmall hPositive.le)
    linarith
  refine ⟨?_, by linarith⟩
  rw [gapBelow]
  split_ifs with hBorder
  · rw [hBorder.1, Nat.cast_pow, Nat.cast_ofNat] at hLarge
    linarith
  · linarith

theorem roundsTo_of_lt (hLow : (m - gapBelow m e) * (2 ^ e * 10 ^ k) < (c : ℚ))
    (hHigh : (c : ℚ) < (m + 1 / 2) * (2 ^ e * 10 ^ k)) : RoundsTo (c * 10 ^ (-k)) m e := by
  have hShift : (0 : ℚ) < 10 ^ k := by positivity
  rw [← mul_assoc, ← lt_div_iff₀ hShift, div_eq_mul_inv, ← zpow_neg] at hLow
  rw [← mul_assoc, ← div_lt_iff₀ hShift, div_eq_mul_inv, ← zpow_neg] at hHigh
  exact ⟨hLow.le, hHigh.le, fun _ => ⟨hLow, hHigh⟩⟩

/-- One of the two whole numbers beside a double is read back when they have 17 digits. -/
theorem isInside_seventeen (hDouble : IsDouble m e) (hm : m ≠ 0)
    (hLarge : (10 : ℚ) ^ 16 ≤ m * (2 ^ e * 10 ^ k)) :
    isInside m e k (neighbour m e k) = true ∨ isInside m e k (neighbour m e k + 1) = true := by
  rw [isInside_iff hm, isInside_iff hm]
  obtain ⟨hBelow, hAbove⟩ := neighbour_le hm e k
  obtain ⟨hGapBelow, hGapAbove⟩ := half_lt_gap hDouble hLarge
  rw [mul_assoc] at hBelow hAbove
  rcases le_or_gt ((m : ℚ) * (2 ^ e * 10 ^ k) - neighbour m e k) (1 / 2) with hNear | hFar
  · left
    apply roundsTo_of_lt
    · rw [sub_mul]
      linarith
    · rw [add_mul]
      linarith
  · right
    apply roundsTo_of_lt
    all_goals rw [Nat.cast_succ]
    · rw [sub_mul]
      linarith
    · rw [add_mul]
      linarith

/-! ## The search -/

theorem pointPlace_fraction (hm : m ≠ 0) (e : Int) :
    pointPlace (fraction m e).1 (fraction m e).2 = Int.log 10 (m * 2 ^ e : ℚ) + 1 := by
  have hValue := fraction_div m e
  have hPositive : (0 : ℚ) < m * 2 ^ e := by positivity
  have hNum : 0 < (fraction m e).1 := by
    refine Nat.pos_of_ne_zero fun hZero => ?_
    rw [hZero, Nat.cast_zero, zero_div] at hValue
    exact hPositive.ne hValue
  rw [pointPlace_eq_log hNum (fraction_pos m e), hValue]

/-- Seventeen digits suffice. -/
theorem shortestWith_seventeen (hDouble : IsDouble m e) (hm : m ≠ 0)
    (hPoint : point = Int.log 10 (m * 2 ^ e : ℚ) + 1) : shortestWith m e point 17 ≠ none := by
  have hPositive : (0 : ℚ) < m * 2 ^ e := by positivity
  have hLarge : (10 : ℚ) ^ 16 ≤ m * (2 ^ e * 10 ^ ((17 : Nat) - point)) := by
    have hFirst := Int.zpow_log_le_self (show 1 < 10 by decide) hPositive
    calc (10 : ℚ) ^ 16
      _ = 10 ^ Int.log 10 (m * 2 ^ e : ℚ) * 10 ^ ((17 : Nat) - point) := by
        rw [← zpow_add₀ (by norm_num), hPoint, ← zpow_natCast]
        congr 1
        push_cast
        ring
      _ ≤ m * 2 ^ e * 10 ^ ((17 : Nat) - point) :=
        mul_le_mul_of_nonneg_right hFirst (by positivity)
      _ = m * (2 ^ e * 10 ^ ((17 : Nat) - point)) := mul_assoc _ _ _
  refine shortestWith_ne_none ?_ (isInside_seventeen hDouble hm hLarge)
  intro hZero
  have hAbove := (neighbour_le hm e ((17 : Nat) - point)).2
  rw [hZero, Nat.cast_zero, zero_add, mul_assoc] at hAbove
  linarith

/-- The digits that are found are read back. -/
theorem shortest_roundsTo (hDouble : IsDouble m e) (hm : m ≠ 0) :
    RoundsTo ((shortest m e).1 * 10 ^ (shortest m e).2) m e := by
  have hPoint := pointPlace_fraction hm e
  cases hFound : (List.range 17).findSome? fun n =>
      (shortestWith m e (pointPlace (fraction m e).1 (fraction m e).2) (n + 1)).map (·, n + 1) with
  | none =>
    have hNone := List.findSome?_eq_none_iff.mp hFound 16 (by decide)
    exact absurd (Option.map_eq_none_iff.mp hNone) (shortestWith_seventeen hDouble hm hPoint)
  | some found =>
    obtain ⟨i, -, hCount⟩ := List.exists_of_findSome?_eq_some hFound
    obtain ⟨c, hDigits, rfl⟩ := Option.map_eq_some_iff.mp hCount
    have hRounds := (isInside_iff hm).mp (isInside_of_shortestWith hDigits)
    have hShortest : shortest m e =
        (c, pointPlace (fraction m e).1 (fraction m e).2 - (i + 1 : Nat)) := by
      unfold shortest
      dsimp only
      rw [hFound]
    rwa [hShortest, ← neg_sub]

end Spreadsheet.Decimal
