import Mathlib
import Spreadsheet.Number.Arithmetic

/-!
# Whole numbers rounded to multiples

A whole number that is rounded to a multiple of a unit becomes the nearest one, the even one of two
that are equally near. There is just one such multiple, so that rounding keeps order and sign and
leaves multiples as they are follows from what the nearest multiple is.
-/

set_option autoImplicit false

namespace Spreadsheet

/-- The whole number nearest to `n / unit`, the even one of two that are equally near. -/
structure IsNearestEven (n unit q : Int) : Prop where
  near : 2 * |n - q * unit| ≤ unit
  even : 2 * |n - q * unit| = unit → Even q

namespace IsNearestEven

variable {n m unit q p : Int}

theorem neg (h : IsNearestEven n unit q) : IsNearestEven (-n) unit (-q) := by
  have hDistance : |-n - -q * unit| = |n - q * unit| := by
    rw [← abs_neg, neg_mul, neg_sub_neg, neg_sub]
  constructor
  · rw [hDistance]
    exact h.near
  · rw [hDistance]
    intro hHalf
    exact (h.even hHalf).neg

theorem of_near (h : 2 * |n - q * unit| < unit) : IsNearestEven n unit q := by
  constructor
  · exact h.le
  · intro hHalf
    exact absurd hHalf h.ne

theorem mul_self (hUnit : 0 < unit) : IsNearestEven (q * unit) unit q := by
  apply of_near
  rwa [sub_self, abs_zero, mul_zero]

theorem zero_of_small (h : 2 * |n| < unit) : IsNearestEven n unit 0 := by
  apply of_near
  rwa [zero_mul, sub_zero]

theorem le (hUnit : 0 < unit) (h : IsNearestEven n unit q) (h' : IsNearestEven m unit p)
    (hle : n ≤ m) : q ≤ p := by
  by_contra hLess
  have hBelow : -|n - q * unit| ≤ n - q * unit := neg_abs_le _
  have hAbove : m - p * unit ≤ |m - p * unit| := le_abs_self _
  have hNear := h.near
  have hNear' := h'.near
  have hNext : q = p + 1 := by
    have hSteps : (q - p) * unit < 2 * unit := by
      rw [sub_mul]
      omega
    have hOne := lt_of_mul_lt_mul_right hSteps hUnit.le
    omega
  subst hNext
  -- Both numbers lie half way between the two multiples, which cannot both be even.
  have hStep : (p + 1) * unit = p * unit + unit := by rw [add_mul, one_mul]
  have hEven : Even (p + 1) := h.even (by omega)
  have hEven' : Even p := h'.even (by omega)
  exact Int.even_add_one.mp hEven hEven'

theorem eq (hUnit : 0 < unit) (h : IsNearestEven n unit q) (h' : IsNearestEven n unit p) :
    q = p :=
  le_antisymm (h.le hUnit h' le_rfl) (h'.le hUnit h le_rfl)

end IsNearestEven

theorem Binary64.isNearestEven_roundHalfEven (num : Nat) {den : Nat} (hDen : 0 < den) :
    IsNearestEven num den (roundHalfEven num den) := by
  have hNum : (den : Int) * (num / den : Nat) + (num % den : Nat) = num := by
    exact_mod_cast Nat.div_add_mod num den
  have hRest := Nat.mod_lt num hDen
  rw [roundHalfEven]
  generalize num / den = quotient at *
  generalize num % den = remainder at *
  simp only [gt_iff_lt, Bool.or_eq_true, decide_eq_true_eq, Bool.and_eq_true, beq_iff_eq]
  split_ifs with hUp
  · have hAbove : (num : Int) - (quotient + 1 : Nat) * den = -(den - remainder : Int) := by
      rw [← hNum, Nat.cast_succ]
      ring
    have hDistance : |(num : Int) - (quotient + 1 : Nat) * den| = den - remainder := by
      rw [hAbove, abs_neg, abs_of_nonneg (by omega)]
    constructor
    · omega
    · intro hHalf
      rw [Int.even_coe_nat, Nat.even_iff]
      omega
  · have hBelow : (num : Int) - quotient * den = remainder := by
      rw [← hNum]
      ring
    have hDistance : |(num : Int) - quotient * den| = remainder := by
      rw [hBelow, Nat.abs_cast]
    constructor
    · omega
    · intro hHalf
      rw [Int.even_coe_nat, Nat.even_iff]
      omega

namespace Number

variable {n places : Int}

/-- The multiples that numbers are rounded to. -/
def unitOf (places : Int) : Int := 10 ^ (-places).toNat

theorem unitOf_pos (places : Int) : 0 < unitOf places := by
  rw [unitOf]
  positivity

theorem roundInt_of_nonneg (h : 0 ≤ places) (n : Int) : roundInt n places = n := if_pos h

theorem small_of_length_digits (hPlaces : places < 0)
    (h : (Decimal.digits n.natAbs).length < places.natAbs) : 2 * |n| < unitOf places := by
  obtain ⟨k, hk⟩ : ∃ k, (-places).toNat = k + 1 := ⟨(-places).toNat - 1, by omega⟩
  have hDigits : (Nat.toDigits 10 n.natAbs).length ≤ k := by
    rw [Decimal.digits] at h
    omega
  have hSome : 0 < k := lt_of_lt_of_le Nat.length_toDigits_pos hDigits
  have hLess : n.natAbs < 10 ^ k := (Nat.length_toDigits_le_iff (by decide) hSome).mp hDigits
  have hLess' : |n| < 10 ^ k := by
    rw [Int.abs_eq_natAbs]
    exact_mod_cast hLess
  rw [unitOf, hk, pow_succ]
  linarith [abs_nonneg n]

/-- Rounding to places after the point is rounding to multiples of one. -/
theorem roundInt_spec (n places : Int) :
    ∃ q, roundInt n places = q * unitOf places ∧ IsNearestEven n (unitOf places) q := by
  rcases le_or_gt 0 places with hWhole | hPlaces
  · have hUnit : unitOf places = 1 := by
      rw [unitOf, Int.toNat_of_nonpos (by omega), pow_zero]
    have hNear : IsNearestEven (n * 1) 1 n := .mul_self one_pos
    rw [mul_one] at hNear
    rw [roundInt_of_nonneg hWhole, hUnit]
    exact ⟨n, (mul_one n).symm, hNear⟩
  · have hUnit : ((Nat.pow 10 places.natAbs : Nat) : Int) = unitOf places := by
      rw [unitOf, Nat.pow_eq, Nat.cast_pow, show (-places).toNat = places.natAbs by omega]
      rfl
    have hNear := Binary64.isNearestEven_roundHalfEven n.natAbs
      (show 0 < Nat.pow 10 places.natAbs from Nat.pow_pos (by decide))
    rw [hUnit] at hNear
    rw [roundInt, if_neg (not_le.mpr hPlaces)]
    dsimp only
    generalize Binary64.roundHalfEven n.natAbs (Nat.pow 10 places.natAbs) = q at *
    rw [Nat.cast_mul, hUnit]
    split_ifs with hShort hNegative
    · exact ⟨0, (zero_mul _).symm, .zero_of_small (small_of_length_digits hPlaces hShort)⟩
    · have hSame : (n.natAbs : Int) = -n := by omega
      rw [hSame] at hNear
      refine ⟨-q, (neg_mul _ _).symm, ?_⟩
      rw [← neg_neg n]
      exact hNear.neg
    · have hSame : (n.natAbs : Int) = n := by omega
      rw [hSame] at hNear
      exact ⟨q, rfl, hNear⟩

variable (n places)

theorem roundInt_neg : roundInt (-n) places = -roundInt n places := by
  obtain ⟨q, hq, hNear⟩ := roundInt_spec n places
  obtain ⟨p, hp, hNear'⟩ := roundInt_spec (-n) places
  rw [hp, hq, hNear'.eq (unitOf_pos places) hNear.neg, neg_mul]

theorem roundInt_monotone : Monotone (roundInt · places) := by
  intro n m hle
  obtain ⟨q, hq, hNear⟩ := roundInt_spec n places
  obtain ⟨p, hp, hNear'⟩ := roundInt_spec m places
  dsimp only
  rw [hq, hp]
  exact mul_le_mul_of_nonneg_right (hNear.le (unitOf_pos places) hNear' hle) (unitOf_pos places).le

theorem roundInt_roundInt : roundInt (roundInt n places) places = roundInt n places := by
  obtain ⟨q, hq, -⟩ := roundInt_spec n places
  obtain ⟨p, hp, hNear⟩ := roundInt_spec (q * unitOf places) places
  rw [hq, hp, hNear.eq (unitOf_pos places) (.mul_self (unitOf_pos places))]

end Number
end Spreadsheet
