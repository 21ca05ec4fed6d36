import Spreadsheet.Proofs.Address.Spelling
import Spreadsheet.Proofs.Text.Plain

/-!
# Addresses that are written and read back

The letters of a column read back as the column, and the digits of a row as the row. So the address
of a coordinate of the grid is read as the coordinate, as long as its row has few enough digits, and
no two coordinates of the grid share an address, however long their rows are.
-/

set_option autoImplicit false

namespace Spreadsheet

open Lexer

namespace Decimal

theorem ofDigits_digits (n : Nat) : ofDigits (digits n) = n := by
  have hRead : Nat.ofDigitChars 10 (Nat.toDigits 10 n) 0 = n := Nat.ofDigitChars_ten_toDigits
  rw [Nat.ofDigitChars_eq_foldl] at hRead
  simpa only [ofDigits, digits, Nat.mul_comm] using hRead

theorem areDigits_digits (n : Nat) : AreDigits (digits n) := by
  intro c hc
  have hDigit : c.isDigit = true := Nat.isDigit_of_mem_toDigits (by decide) (by decide) hc
  simp only [Char.isDigit, Bool.and_eq_true, decide_eq_true_eq, ge_iff_le,
    UInt32.le_iff_toNat_le] at hDigit
  exact (isDigit_toNat c).mpr hDigit

theorem digits_ne_nil (n : Nat) : digits n ≠ [] := Nat.toDigits_ne_nil

end Decimal

namespace Coordinate

/-! ## Columns -/

theorem toNat_letter {k : Nat} (h : k < 26) : (Char.ofNat (65 + k)).toNat = 65 + k := by
  apply Text.toNat_ofNat
  left
  omega

theorem isLetter_letter {k : Nat} (h : k < 26) : isLetter (Char.ofNat (65 + k)) = true := by
  rw [isLetter_iff, toNat_letter h]
  omega

theorem letters_zero : letters 0 = [] := by rw [letters, dif_pos rfl]

theorem letters_succ (n : Nat) :
    letters (n + 1) = letters (n / 26) ++ [Char.ofNat (65 + n % 26)] := by
  rw [letters, dif_neg n.succ_ne_zero, Nat.add_sub_cancel]

theorem letters_ne_nil {n : Nat} (h : 0 < n) : letters n ≠ [] := by
  obtain ⟨m, rfl⟩ := Nat.exists_eq_succ_of_ne_zero h.ne'
  simp [letters_succ]

theorem areLetters_letters (n : Nat) : AreLetters (letters n) := by
  induction n using Nat.strong_induction_on with
  | _ n ih =>
    cases n with
    | zero =>
      rw [letters_zero]
      exact List.forall_mem_nil _
    | succ n =>
      intro c hc
      rw [letters_succ, List.mem_append, List.mem_singleton] at hc
      rcases hc with hc | rfl
      · exact ih (n / 26) (by omega) c hc
      · exact isLetter_letter (Nat.mod_lt n (by decide))

theorem toUpper_letter {k : Nat} (h : k < 26) :
    (Char.ofNat (65 + k)).toUpper = Char.ofNat (65 + k) := by
  apply Char.toUpper_eq_of_not_isLower
  simp only [Char.isLower, Bool.and_eq_true, decide_eq_true_eq, ge_iff_le, UInt32.le_iff_toNat_le,
    not_and]
  intro hLow
  have hSmall : 97 ≤ (Char.ofNat (65 + k)).toNat := hLow
  rw [toNat_letter h] at hSmall
  omega

theorem map_toUpper_letters (n : Nat) : (letters n).map Char.toUpper = letters n := by
  induction n using Nat.strong_induction_on with
  | _ n ih =>
    cases n with
    | zero => rw [letters_zero, List.map_nil]
    | succ n =>
      rw [letters_succ, List.map_append, ih (n / 26) (by omega), List.map_singleton,
        toUpper_letter (Nat.mod_lt n (by decide))]

/-- The letters of the `n`-th column, counted from one, name that column. -/
theorem columnIndex_letters (n : Nat) : columnIndex (letters n) = n - 1 := by
  have hValue : (letters n).foldl (fun (i : Int) c => i * 26 + (c.toNat - 64 : Int)) 0 = n := by
    induction n using Nat.strong_induction_on with
    | _ n ih =>
      cases n with
      | zero =>
        rw [letters_zero]
        rfl
      | succ n =>
        rw [letters_succ, List.foldl_append, ih (n / 26) (by omega), List.foldl_cons,
          List.foldl_nil, toNat_letter (Nat.mod_lt n (by decide))]
        omega
  rw [columnIndex, flatMap_upperChar (areLetters_letters n), map_toUpper_letters, hValue]

/-! ## Addresses -/

variable {c d : Coordinate}

theorem isInGrid_iff : c.isInGrid = true ↔ 0 ≤ c.row ∧ 0 ≤ c.column := by simp [isInGrid]

theorem toList_address (h : c.isInGrid = true) :
    c.address.toList = letters (c.column.toNat + 1) ++ Decimal.digits (c.row.toNat + 1) := by
  obtain ⟨hRow, hColumn⟩ := isInGrid_iff.mp h
  have hNumber : ¬ c.row + 1 < 0 := by omega
  have hAbs : (c.row + 1).natAbs = c.row.toNat + 1 := by omega
  have hNat : (c.column + 1).toNat = c.column.toNat + 1 := by omega
  rw [address, columnLetters, Decimal.intText, if_neg hNumber, Decimal.natText, hAbs, hNat,
    String.toList_append, String.toList_ofList, String.toList_ofList]

theorem splitAddress_address (h : c.isInGrid = true) :
    splitAddress c.address.toList =
      some (letters (c.column.toNat + 1), Decimal.digits (c.row.toNat + 1)) := by
  rw [toList_address h]
  exact splitAddress_of_letters (letters_ne_nil (Nat.succ_pos _)) (areLetters_letters _)
    (Decimal.digits_ne_nil _) (Decimal.areDigits_digits _)

theorem spells_address (h : c.isInGrid = true) : Spells .cell c.address.toList :=
  ⟨_, _, letters_ne_nil (Nat.succ_pos _), Decimal.digits_ne_nil _, areLetters_letters _,
    Decimal.areDigits_digits _, toList_address h⟩

theorem upper_address (h : c.isInGrid = true) : Text.upper c.address = c.address := by
  apply String.toList_injective
  rw [toList_upper (areLetters_letters _) (Decimal.areDigits_digits _) (toList_address h),
    map_toUpper_letters, toList_address h]

theorem IsAddressable.isInGrid (h : c.IsAddressable) : c.isInGrid = true :=
  isInGrid_iff.mpr ⟨h.1, h.2.1⟩

theorem ofAddress_address (h : c.IsAddressable) : ofAddress c.address = .ok c := by
  obtain ⟨hRow, hColumn, hLimit⟩ := h
  have hLength : (Decimal.digits (c.row.toNat + 1)).length ≤ Decimal.digitLimit := by
    apply Decimal.digits_length_le (by decide)
    have hBound : ((c.row.toNat + 1 : Nat) : Int) < (10 ^ Decimal.digitLimit : Nat) := by
      push_cast
      rwa [Int.toNat_of_nonneg hRow]
    exact_mod_cast hBound
  rw [ofAddress, splitAddress_address (isInGrid_iff.mpr ⟨hRow, hColumn⟩)]
  simp only [Decimal.read, if_pos hLength, Decimal.ofDigits_digits, columnIndex_letters]
  congr
  · exact Int.toNat_of_nonneg hRow
  · push_cast
    rw [Int.toNat_of_nonneg hColumn, Int.add_sub_cancel]

/-- Coordinates of the grid with one address are the same. -/
theorem address_inj (hc : c.isInGrid = true) (hd : d.isInGrid = true)
    (h : c.address = d.address) : c = d := by
  have hSplit := splitAddress_address hc
  rw [h, splitAddress_address hd, Option.some.injEq, Prod.mk.injEq] at hSplit
  obtain ⟨hLetters, hDigits⟩ := hSplit
  have hColumn := congrArg columnIndex hLetters
  have hRow := congrArg Decimal.ofDigits hDigits
  rw [columnIndex_letters, columnIndex_letters] at hColumn
  rw [Decimal.ofDigits_digits, Decimal.ofDigits_digits] at hRow
  obtain ⟨hcRow, hcColumn⟩ := isInGrid_iff.mp hc
  obtain ⟨hdRow, hdColumn⟩ := isInGrid_iff.mp hd
  have hSameRow : c.row = d.row := by omega
  have hSameColumn : c.column = d.column := by omega
  cases c
  cases d
  rw [Coordinate.mk.injEq]
  exact ⟨hSameRow, hSameColumn⟩

end Coordinate
end Spreadsheet
