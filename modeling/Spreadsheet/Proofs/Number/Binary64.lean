import Mathlib
import Spreadsheet.Number.Binary64

/-!
# Doubles and the fractions that round to them

The bits of a finite double are those of the number that it stands for. A fraction that lies between
the middles of the gaps beside a double has that double for its nearest one, and decimal digits that
spell such a fraction are read as it.
-/

set_option autoImplicit false

namespace Spreadsheet.Binary64

variable {x : Float} {negative : Bool} {m num den : Nat} {e k : Int} {q : ℚ}

/-! ## Bits -/

/-- The numbers `m * 2 ^ e` that finite doubles stand for: of 53 binary digits, or of fewer where
the exponent is least. -/
structure IsDouble (m : Nat) (e : Int) : Prop where
  small : m < 2 ^ 53
  least : leastExponent ≤ e
  greatest : e ≤ greatestExponent
  normal : m < 2 ^ 52 → e = leastExponent

theorem ofBits_of_toNat_eq {b : UInt64} (h : b.toNat = x.toBits.toNat) : Float.ofBits b = x := by
  rw [UInt64.toNat.inj h, Float.ofBits_toBits]

/-- A finite double is the one that its number is encoded as. -/
theorem encode_of_decode (h : decode x = finite negative m e) :
    IsDouble m e ∧ encode negative m e = x := by
  have hSize : x.toBits.toNat < 2 ^ 64 := x.toBits.toNat_lt
  simp only [decode, ofBits, Nat.pow_eq, beq_iff_eq] at h
  -- One bit is the sign, eleven are the exponent and 52 the fraction.
  have hSign : (if (x.toBits.toNat / 2 ^ 63 % 2 == 1) = true then 2 ^ 63 else 0) =
      x.toBits.toNat / 2 ^ 63 * 2 ^ 63 := by
    split_ifs with hOne
    all_goals simp only [beq_iff_eq] at hOne
    all_goals omega
  split_ifs at h with hTop hNone hBottom
  · obtain ⟨rfl, rfl, rfl⟩ := finite.inj h
    refine ⟨⟨by omega, le_rfl, by decide, fun _ => rfl⟩, ofBits_of_toNat_eq ?_⟩
    simp only [Nat.pow_eq]
    rw [hSign, if_pos (by omega), UInt64.toNat_ofNat_of_lt' (show _ < 2 ^ 64 by omega)]
    omega
  · obtain ⟨rfl, rfl, rfl⟩ := finite.inj h
    refine ⟨⟨by omega, ?_, ?_, by omega⟩, ofBits_of_toNat_eq ?_⟩
    · rw [leastExponent]
      omega
    · rw [greatestExponent]
      omega
    simp only [Nat.pow_eq]
    rw [hSign, if_neg (by omega), UInt64.toNat_ofNat_of_lt' (show _ < 2 ^ 64 by omega)]
    omega

theorem infinity_of_decode (h : decode x = infinite negative) : infinity negative = x := by
  have hSize : x.toBits.toNat < 2 ^ 64 := x.toBits.toNat_lt
  simp only [decode, ofBits, Nat.pow_eq, beq_iff_eq] at h
  split_ifs at h with hTop hNone hBottom
  obtain rfl := infinite.inj h
  apply ofBits_of_toNat_eq
  split_ifs with hOne
  all_goals simp only [beq_iff_eq] at hOne
  · change 0xfff0000000000000 = _
    omega
  · change 0x7ff0000000000000 = _
    omega

/-- All doubles that are no numbers have the same bits. -/
theorem nan_of_decode (h : decode x = nan) : (0.0 / 0.0 : Float) = x := by
  simp only [decode, ofBits, Nat.pow_eq, beq_iff_eq] at h
  split_ifs at h with hTop hNone hBottom
  have hBits : x.toBits.toBitVec = 0x7ff8000000000000#64 := by
    refine (x.toModel.valid.eq_packedNaN ?_ ?_).trans (by decide +kernel)
    · apply BitVec.eq_of_toNat_eq
      rw [Float.Model.UnpackedFloat.unpackExponent, BitVec.toNat_cast, BitVec.extractLsb_toNat,
        Nat.shiftRight_eq_div_pow]
      exact hTop
    · intro hZero
      have hFraction := congrArg BitVec.toNat hZero
      rw [Float.Model.UnpackedFloat.unpackMantissa, BitVec.toNat_cast, BitVec.extractLsb_toNat,
        Nat.shiftRight_eq_div_pow, pow_zero, Nat.div_one] at hFraction
      exact hNone hFraction
  have hQuotient : (0.0 / 0.0 : Float).toBits = 0x7ff8000000000000 := by decide +kernel
  rw [← Float.ofBits_toBits (0.0 / 0.0), hQuotient]
  exact ofBits_of_toNat_eq (congrArg BitVec.toNat hBits).symm

/-! ## Fractions -/

theorem cast_pow_toNat (b : Nat) (h : 0 ≤ k) : ((b ^ k.toNat : Nat) : ℚ) = (b : ℚ) ^ k := by
  rw [Nat.cast_pow, ← zpow_natCast, Int.toNat_of_nonneg h]

theorem scale_div (num den : Nat) (e : Int) :
    ((scale num den e).1 : ℚ) / (scale num den e).2 = num / den / 2 ^ e := by
  rw [scale, Nat.pow_eq, Nat.pow_eq]
  split_ifs with h
  · rw [Nat.cast_mul, cast_pow_toNat 2 (by omega), Nat.cast_ofNat, zpow_neg, div_right_comm,
      ← div_eq_mul_inv]
  · rw [Nat.cast_mul, cast_pow_toNat 2 (by omega), Nat.cast_ofNat, div_mul_eq_div_div]

theorem scale_pos (h : 0 < den) (num : Nat) (e : Int) : 0 < (scale num den e).2 := by
  rw [scale, Nat.pow_eq, Nat.pow_eq]
  split_ifs
  · exact h
  · positivity

theorem fraction_div (m : Nat) (e : Int) :
    ((fraction m e).1 : ℚ) / (fraction m e).2 = m * 2 ^ e := by
  rw [fraction, Nat.pow_eq, Nat.pow_eq]
  split_ifs with h
  · rw [cast_pow_toNat 2 (by omega), Nat.cast_ofNat, zpow_neg, div_inv_eq_mul]
  · rw [Nat.cast_mul, cast_pow_toNat 2 (by omega), Nat.cast_ofNat, Nat.cast_one, div_one]

theorem fraction_pos (m : Nat) (e : Int) : 0 < (fraction m e).2 := by
  rw [fraction, Nat.pow_eq]
  split_ifs <;> positivity

theorem log_eq {b : Nat} (hb : 1 < b) (hLow : (b : ℚ) ^ k ≤ q) (hHigh : q < (b : ℚ) ^ (k + 1)) :
    Int.log b q = k := by
  have hPositive : 0 < q := lt_of_lt_of_le (by positivity) hLow
  have hLeast := (Int.zpow_le_iff_le_log hb hPositive).mp hLow
  have hMost := (Int.lt_zpow_iff_log_lt hb hPositive).mp hHigh
  omega

/-- The place of the first digit of a fraction, by the counts of digits of its two numbers. -/
theorem log_div {b : Nat} (hb : 1 < b) (hNum : 0 < num) (hDen : 0 < den) :
    Int.log b (num / den : ℚ) =
      if (num / den : ℚ) < (b : ℚ) ^ ((Nat.log b num : Int) - Nat.log b den) then
        (Nat.log b num : Int) - Nat.log b den - 1
      else (Nat.log b num : Int) - Nat.log b den := by
  have hBase : (b : ℚ) ≠ 0 := by positivity
  have hDen' : (0 : ℚ) < den := by exact_mod_cast hDen
  have hNumLow : (b : ℚ) ^ (Nat.log b num : Int) ≤ num := by
    rw [zpow_natCast]
    exact_mod_cast Nat.pow_log_le_self b hNum.ne'
  have hNumHigh : (num : ℚ) < (b : ℚ) ^ ((Nat.log b num : Int) + 1) := by
    exact_mod_cast Nat.lt_pow_succ_log_self hb num
  have hDenLow : (b : ℚ) ^ (Nat.log b den : Int) ≤ den := by
    rw [zpow_natCast]
    exact_mod_cast Nat.pow_log_le_self b hDen.ne'
  have hDenHigh : (den : ℚ) < (b : ℚ) ^ ((Nat.log b den : Int) + 1) := by
    exact_mod_cast Nat.lt_pow_succ_log_self hb den
  generalize (Nat.log b num : Int) = i at *
  generalize (Nat.log b den : Int) = j at *
  split_ifs with hBelow
  · apply log_eq hb
    · rw [le_div_iff₀ hDen']
      calc (b : ℚ) ^ (i - j - 1) * den
        _ ≤ (b : ℚ) ^ (i - j - 1) * (b : ℚ) ^ (j + 1) := by gcongr
        _ = (b : ℚ) ^ i := by
          rw [← zpow_add₀ hBase]
          congr 1
          ring
        _ ≤ num := hNumLow
    · rwa [sub_add_cancel]
  · apply log_eq hb (not_lt.mp hBelow)
    rw [div_lt_iff₀ hDen']
    calc (num : ℚ)
      _ < (b : ℚ) ^ (i + 1) := hNumHigh
      _ = (b : ℚ) ^ (i - j + 1) * (b : ℚ) ^ j := by
        rw [← zpow_add₀ hBase]
        congr 1
        ring
      _ ≤ (b : ℚ) ^ (i - j + 1) * den := by gcongr

/-- The exponent is the place of the first binary digit, less 52. -/
theorem exponentFor_eq_log (hNum : 0 < num) (hDen : 0 < den) :
    exponentFor num den = max leastExponent (Int.log 2 (num / den : ℚ) - 52) := by
  have hBelow (e : Int) : (scale num den e).1 / (scale num den e).2 < 2 ^ 52 ↔
      (num / den : ℚ) < 2 ^ (e + 52) := by
    have hScaled := scale_pos hDen num e
    have hSplit : (2 : ℚ) ^ (e + 52) = 2 ^ 52 * 2 ^ e := by
      rw [zpow_add₀ two_ne_zero, mul_comm]
      norm_cast
    rw [Nat.div_lt_iff_lt_mul hScaled, hSplit, ← div_lt_iff₀ (by positivity), ← scale_div,
      div_lt_iff₀ (by exact_mod_cast hScaled)]
    norm_cast
  have hLog := log_div one_lt_two hNum hDen
  rw [Nat.cast_ofNat, ← Nat.log2_eq_log_two, ← Nat.log2_eq_log_two] at hLog
  rw [exponentFor, hLog]
  dsimp only
  rw [Nat.pow_eq]
  simp only [hBelow, sub_add_cancel]
  congr 1
  split_ifs <;> ring

/-- The exponent is the one by which a fraction has 53 binary digits before its point, or the least
where it has fewer. -/
theorem exponentFor_eq (hNum : 0 < num) (hDen : 0 < den) (hLeast : leastExponent ≤ e)
    (hLow : e = leastExponent ∨ 2 ^ 52 ≤ (num / den / 2 ^ e : ℚ))
    (hHigh : (num / den / 2 ^ e : ℚ) < 2 ^ 53) : exponentFor num den = e := by
  have hPositive : (0 : ℚ) < num / den := by positivity
  have hUnit : (0 : ℚ) < 2 ^ e := by positivity
  have hPower (k : Nat) : (2 : ℚ) ^ k * 2 ^ e = 2 ^ (e + (k : Int)) := by
    rw [zpow_add₀ two_ne_zero, zpow_natCast, mul_comm]
  rw [div_lt_iff₀ hUnit, hPower, ← Nat.cast_two, Int.lt_zpow_iff_log_lt one_lt_two hPositive,
    Nat.cast_ofNat] at hHigh
  rw [le_div_iff₀ hUnit, hPower, ← Nat.cast_two, Int.zpow_le_iff_le_log one_lt_two hPositive,
    Nat.cast_ofNat] at hLow
  rw [exponentFor_eq_log hNum hDen]
  rcases hLow with rfl | hLow
  · exact max_eq_left (by omega)
  · rw [max_eq_right] <;> omega

/-! ## Rounding -/

/-- A fraction is rounded to a whole number nearest to it, if that is even or the only one. -/
theorem roundHalfEven_eq (hDen : 0 < den) (hLow : (m - 1 / 2 : ℚ) ≤ num / den)
    (hHigh : (num / den : ℚ) ≤ m + 1 / 2)
    (hOdd : m % 2 = 1 → (m - 1 / 2 : ℚ) < num / den ∧ (num / den : ℚ) < m + 1 / 2) :
    roundHalfEven num den = m := by
  have hDen' : (0 : ℚ) < den := by exact_mod_cast hDen
  rw [le_div_iff₀ hDen'] at hLow
  rw [div_le_iff₀ hDen'] at hHigh
  rw [lt_div_iff₀ hDen', div_lt_iff₀ hDen'] at hOdd
  have hLow' : 2 * (den * m) ≤ 2 * num + den := by
    have hTwice : 2 * (den * m : ℚ) ≤ 2 * num + den := by linarith
    exact_mod_cast hTwice
  have hHigh' : 2 * num ≤ 2 * (den * m) + den := by
    have hTwice : 2 * (num : ℚ) ≤ 2 * (den * m) + den := by linarith
    exact_mod_cast hTwice
  have hOdd' : m % 2 = 1 → 2 * (den * m) < 2 * num + den ∧ 2 * num < 2 * (den * m) + den := by
    intro h
    have hTwice : 2 * (den * m : ℚ) < 2 * num + den ∧ 2 * (num : ℚ) < 2 * (den * m) + den :=
      ⟨by linarith [hOdd h], by linarith [hOdd h]⟩
    exact_mod_cast hTwice
  have hNum := Nat.div_add_mod num den
  have hRest := Nat.mod_lt num hDen
  rw [roundHalfEven]
  generalize num / den = quotient at *
  generalize num % den = remainder at *
  -- The number is the quotient or the next one.
  have hMost : quotient ≤ m := by
    by_contra hLarge
    have hNext : den * (m + 1) ≤ den * quotient := Nat.mul_le_mul_left den (by omega)
    rw [Nat.mul_succ] at hNext
    omega
  have hLeast : m ≤ quotient + 1 := by
    by_contra hLarge
    have hNext : den * (quotient + 2) ≤ den * m := Nat.mul_le_mul_left den (by omega)
    rw [Nat.mul_add] at hNext
    omega
  simp only [gt_iff_lt, Bool.or_eq_true, decide_eq_true_eq, Bool.and_eq_true, beq_iff_eq]
  obtain rfl | rfl : m = quotient ∨ m = quotient + 1 := by omega
  · exact if_neg (by omega)
  · rw [Nat.mul_succ] at *
    exact if_pos (by omega)

/-- How far below `m * 2 ^ e` a fraction may lie that is read as it, in units of `2 ^ e`: half way
to the next double, which is nearer where `m` is the least number of 53 binary digits. -/
def gapBelow (m : Nat) (e : Int) : ℚ := if m = 2 ^ 52 ∧ leastExponent < e then 1 / 4 else 1 / 2

/-- A fraction between the middles of the gaps beside `m * 2 ^ e`. The middles count for an even
`m`. -/
structure RoundsTo (q : ℚ) (m : Nat) (e : Int) : Prop where
  low : (m - gapBelow m e) * 2 ^ e ≤ q
  high : q ≤ (m + 1 / 2) * 2 ^ e
  odd : m % 2 = 1 → (m - gapBelow m e) * 2 ^ e < q ∧ q < (m + 1 / 2) * 2 ^ e

theorem gapBelow_le (m : Nat) (e : Int) : gapBelow m e ≤ 1 / 2 := by
  rw [gapBelow]
  split_ifs <;> norm_num

/-- A fraction that rounds to a double, in units of its power of two. -/
theorem RoundsTo.units (h : RoundsTo q m e) : m - gapBelow m e ≤ q / 2 ^ e ∧ q / 2 ^ e ≤ m + 1 / 2 ∧
    (m % 2 = 1 → m - gapBelow m e < q / 2 ^ e ∧ q / 2 ^ e < m + 1 / 2) := by
  have hUnit : (0 : ℚ) < 2 ^ e := by positivity
  rw [le_div_iff₀ hUnit, div_le_iff₀ hUnit, lt_div_iff₀ hUnit, div_lt_iff₀ hUnit]
  exact ⟨h.low, h.high, h.odd⟩

theorem RoundsTo.pos (h : RoundsTo q m e) (hm : m ≠ 0) : 0 < q := by
  have hOne : (1 : ℚ) ≤ m := by exact_mod_cast Nat.one_le_iff_ne_zero.mpr hm
  have hGap := gapBelow_le m e
  refine lt_of_lt_of_le (mul_pos ?_ (by positivity)) h.low
  linarith

/-- A fraction rounds to a double above its own power of two only from right below the least number
of 53 digits. -/
theorem RoundsTo.border (h : RoundsTo q m e) (hDouble : IsDouble m e) (hAbove : e ≠ leastExponent)
    (hBelow : q / 2 ^ e < 2 ^ 52) : m = 2 ^ 52 ∧ 2 ^ 52 - 1 / 4 ≤ q / 2 ^ e := by
  have hLeast := hDouble.least
  obtain ⟨hLow, -, -⟩ := h.units
  have hBorder : m = 2 ^ 52 := by
    have hNormal : 2 ^ 52 ≤ m := by
      by_contra hSmall
      exact hAbove (hDouble.normal (not_le.mp hSmall))
    by_contra hOther
    have hNext : (2 : ℚ) ^ 52 + 1 ≤ m := by exact_mod_cast (show 2 ^ 52 + 1 ≤ m by omega)
    linarith [gapBelow_le m e]
  have hGap : gapBelow m e = 1 / 4 := if_pos ⟨hBorder, by omega⟩
  rw [hGap, hBorder, Nat.cast_pow, Nat.cast_ofNat] at hLow
  exact ⟨hBorder, hLow⟩

/-- The double that a fraction rounds to is found as the nearest. -/
theorem nearest_eq (hDouble : IsDouble m e) (hm : m ≠ 0) (hDen : 0 < den)
    (h : RoundsTo (num / den : ℚ) m e) : nearest negative num den = some (encode negative m e) := by
  have hNum : num ≠ 0 := by
    rintro rfl
    have hPositive := h.pos hm
    simp at hPositive
  have hPositive := Nat.pos_of_ne_zero hNum
  have hUnit : (0 : ℚ) < 2 ^ e := by positivity
  have hSmall : (m : ℚ) + 1 ≤ 2 ^ 53 := by exact_mod_cast hDouble.small
  obtain ⟨hLow, hHigh, hOdd⟩ := h.units
  rw [nearest, beq_eq_false_iff_ne.mpr hNum, if_neg Bool.false_ne_true]
  dsimp only
  by_cases hPlace : e = leastExponent ∨ (2 : ℚ) ^ 52 ≤ num / den / 2 ^ e
  · have hExponent : exponentFor num den = e :=
      exponentFor_eq hPositive hDen hDouble.least hPlace (by linarith)
    have hRound : roundHalfEven (scale num den e).1 (scale num den e).2 = m := by
      apply roundHalfEven_eq (scale_pos hDen num e)
      all_goals rw [scale_div]
      · linarith [gapBelow_le m e]
      · exact hHigh
      · intro hm
        exact ⟨by linarith [hOdd hm, gapBelow_le m e], (hOdd hm).2⟩
    have hCarry : (m == Nat.pow 2 53) = false := beq_eq_false_iff_ne.mpr hDouble.small.ne
    rw [hExponent, hRound, hCarry]
    exact if_neg (not_lt.mpr hDouble.greatest)
  · -- The fraction lies below the least number of 53 digits and is rounded up to it.
    push Not at hPlace
    obtain ⟨hAbove, hBelow⟩ := hPlace
    have hLeast := hDouble.least
    obtain ⟨hBorder, hAlmost⟩ := h.border hDouble hAbove hBelow
    have hHalf : (num / den : ℚ) / 2 ^ (e - 1) = 2 * (num / den / 2 ^ e) := by
      rw [zpow_sub_one₀ two_ne_zero]
      field_simp
    have hExponent : exponentFor num den = e - 1 := by
      apply exponentFor_eq hPositive hDen (by omega)
      all_goals rw [hHalf]
      · right
        linarith
      · linarith
    have hRound : roundHalfEven (scale num den (e - 1)).1 (scale num den (e - 1)).2 = 2 ^ 53 := by
      apply roundHalfEven_eq (scale_pos hDen num (e - 1))
      all_goals rw [scale_div, hHalf, Nat.cast_pow, Nat.cast_ofNat]
      · linarith
      · linarith
      · exact fun hOdd => absurd hOdd (by decide)
    rw [hExponent, hRound, hBorder, Nat.pow_eq, Nat.pow_eq, beq_self_eq_true, if_pos rfl,
      sub_add_cancel]
    exact if_neg (not_lt.mpr hDouble.greatest)

/-! ## Decimal text -/

/-- The doubles span fewer powers of ten than are worked out. -/
theorem two_pow_lt_ten_pow : (2 : ℚ) ^ (1075 : Int) < 10 ^ (401 : Int) := by
  have hNat : 2 ^ 1075 < 10 ^ 401 := by decide +kernel
  exact_mod_cast hNat

theorem RoundsTo.bounds (hDouble : IsDouble m e) (hm : m ≠ 0) (h : RoundsTo q m e) :
    (2 : ℚ) ^ (-1075 : Int) ≤ q ∧ q < (2 : ℚ) ^ (1024 : Int) := by
  have hOne : (1 : ℚ) ≤ m := by exact_mod_cast Nat.one_le_iff_ne_zero.mpr hm
  have hSmall : (m : ℚ) + 1 ≤ 2 ^ 53 := by exact_mod_cast hDouble.small
  have hGap := gapBelow_le m e
  have hLeast : (2 : ℚ) ^ (-1074 : Int) ≤ 2 ^ e := zpow_le_zpow_right₀ one_le_two hDouble.least
  have hGreatest : (2 : ℚ) ^ e ≤ 2 ^ (971 : Int) := zpow_le_zpow_right₀ one_le_two hDouble.greatest
  have hUnit : (0 : ℚ) < 2 ^ e := by positivity
  constructor
  · calc (2 : ℚ) ^ (-1075 : Int)
      _ = 1 / 2 * 2 ^ (-1074 : Int) := by
        rw [show (-1075 : Int) = -1074 - 1 from rfl, zpow_sub_one₀ two_ne_zero, mul_comm, one_div]
      _ ≤ 1 / 2 * 2 ^ e := mul_le_mul_of_nonneg_left hLeast (by norm_num)
      _ ≤ (m - gapBelow m e) * 2 ^ e := mul_le_mul_of_nonneg_right (by linarith) hUnit.le
      _ ≤ q := h.low
  · calc q
      _ ≤ (m + 1 / 2) * 2 ^ e := h.high
      _ < 2 ^ (53 : Int) * 2 ^ e := mul_lt_mul_of_pos_right (by norm_num; linarith) hUnit
      _ ≤ 2 ^ (53 : Int) * 2 ^ (971 : Int) := mul_le_mul_of_nonneg_left hGreatest (by norm_num)
      _ = 2 ^ (1024 : Int) := (zpow_add₀ two_ne_zero 53 971).symm

theorem lt_ten_pow (n : Nat) : n < 10 ^ (Nat.log2 n / 3 + 1) :=
  calc n
    _ < 2 ^ (Nat.log2 n + 1) := Nat.lt_log2_self
    _ ≤ 2 ^ (3 * (Nat.log2 n / 3 + 1)) := Nat.pow_le_pow_right two_pos (by omega)
    _ = 8 ^ (Nat.log2 n / 3 + 1) := pow_mul 2 3 _
    _ ≤ 10 ^ (Nat.log2 n / 3 + 1) := Nat.pow_le_pow_left (by decide) _

variable {mantissa : Nat} {exponent : Int}

theorem RoundsTo.mantissa_ne_zero (hm : m ≠ 0) (h : RoundsTo (mantissa * 10 ^ exponent) m e) :
    mantissa ≠ 0 := by
  rintro rfl
  have hPositive := h.pos hm
  rw [Nat.cast_zero, zero_mul] at hPositive
  exact hPositive.false

/-- Digits that round to a double are not so far out that they are not worked out. -/
theorem RoundsTo.worked_out (hDouble : IsDouble m e) (hm : m ≠ 0)
    (h : RoundsTo (mantissa * 10 ^ exponent) m e) :
    -400 ≤ exponent + ((Nat.log2 mantissa : Int) / 3 + 1) ∧ exponent ≤ 400 := by
  obtain ⟨hLow, hHigh⟩ := h.bounds hDouble hm
  have hOne : (1 : ℚ) ≤ mantissa := by
    exact_mod_cast Nat.one_le_iff_ne_zero.mpr (h.mantissa_ne_zero hm)
  constructor
  · by_contra hTiny
    have hDigits : (mantissa : ℚ) ≤ 10 ^ ((Nat.log2 mantissa : Int) / 3 + 1) := by
      exact_mod_cast (lt_ten_pow mantissa).le
    have hAbsurd : (2 : ℚ) ^ (-1075 : Int) ≤ 10 ^ (-401 : Int) :=
      calc (2 : ℚ) ^ (-1075 : Int)
        _ ≤ mantissa * 10 ^ exponent := hLow
        _ ≤ 10 ^ ((Nat.log2 mantissa : Int) / 3 + 1) * 10 ^ exponent := by gcongr
        _ = 10 ^ (exponent + ((Nat.log2 mantissa : Int) / 3 + 1)) := by
          rw [mul_comm, ← zpow_add₀ (by norm_num)]
        _ ≤ 10 ^ (-401 : Int) := zpow_le_zpow_right₀ (by norm_num) (by omega)
    rw [zpow_neg, zpow_neg, inv_le_inv₀ (by positivity) (by positivity)] at hAbsurd
    exact absurd two_pow_lt_ten_pow (not_lt.mpr hAbsurd)
  · by_contra hHuge
    have hAbsurd : (10 : ℚ) ^ (401 : Int) < 2 ^ (1075 : Int) :=
      calc (10 : ℚ) ^ (401 : Int)
        _ ≤ 10 ^ exponent := zpow_le_zpow_right₀ (by norm_num) (by omega)
        _ ≤ mantissa * 10 ^ exponent := le_mul_of_one_le_left (by positivity) hOne
        _ < 2 ^ (1024 : Int) := hHigh
        _ ≤ 2 ^ (1075 : Int) := zpow_le_zpow_right₀ one_le_two (by decide)
    exact absurd two_pow_lt_ten_pow hAbsurd.not_gt

/-- Digits are read as the double that the number they spell rounds to. -/
theorem ofDecimal_eq (hDouble : IsDouble m e) (hm : m ≠ 0)
    (h : RoundsTo (mantissa * 10 ^ exponent) m e) :
    ofDecimal negative mantissa exponent = encode negative m e := by
  obtain ⟨hSize, hPlain⟩ := h.worked_out hDouble hm
  have hZero : (mantissa == 0) = false := beq_eq_false_iff_ne.mpr (h.mantissa_ne_zero hm)
  rw [ofDecimal]
  dsimp only
  rw [hZero, Bool.false_or, if_neg (by simpa using hSize), if_neg (not_lt.mpr hPlain), Nat.pow_eq,
    Nat.pow_eq]
  split_ifs with hNegative
  · have hQuotient : (mantissa : ℚ) / (10 ^ (-exponent).toNat : Nat) =
        mantissa * 10 ^ exponent := by
      rw [cast_pow_toNat 10 (by omega), Nat.cast_ofNat, zpow_neg, div_inv_eq_mul]
    rw [nearest_eq hDouble hm (by positivity) (by rwa [hQuotient])]
    rfl
  · have hQuotient : ((mantissa * 10 ^ exponent.toNat : Nat) : ℚ) / (1 : Nat) =
        mantissa * 10 ^ exponent := by
      rw [Nat.cast_mul, cast_pow_toNat 10 (by omega), Nat.cast_ofNat, Nat.cast_one, div_one]
    rw [nearest_eq hDouble hm one_pos (by rwa [hQuotient])]
    rfl

end Spreadsheet.Binary64
