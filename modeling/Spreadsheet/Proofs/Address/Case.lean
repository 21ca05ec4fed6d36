import Spreadsheet.Proofs.Formula.Classes

/-!
# The letter case of addresses

Letters stay letters in upper case, and digits stay as they are. So an address in upper case is an
address, and to change its case once more changes nothing.
-/

set_option autoImplicit false

namespace Spreadsheet

open Lexer

variable {c : Char} {cs letters digits : List Char} {address : String}

theorem isLetter_eq_isAlpha (c : Char) : isLetter c = c.isAlpha := by
  rw [Bool.eq_iff_iff, Coordinate.isLetter_iff]
  simp only [Char.isAlpha, Char.isUpper, Char.isLower, Bool.or_eq_true, Bool.and_eq_true,
    decide_eq_true_eq, ge_iff_le, UInt32.le_iff_toNat_le]
  rfl

theorem isLetter_toUpper (c : Char) : isLetter c.toUpper = isLetter c := by
  simp [isLetter_eq_isAlpha]

theorem toUpper_of_isDigit (h : Decimal.isDigit c = true) : c.toUpper = c := by
  apply Char.toUpper_eq_of_not_isLower
  rw [isDigit_toNat] at h
  simp only [Char.isLower, Bool.and_eq_true, decide_eq_true_eq, ge_iff_le, UInt32.le_iff_toNat_le,
    not_and]
  intro hLow
  have hSmall : 97 ≤ c.toNat := hLow
  omega

theorem areLetters_map_toUpper (h : AreLetters cs) : AreLetters (cs.map Char.toUpper) := by
  intro c hc
  obtain ⟨d, hd, rfl⟩ := List.mem_map.mp hc
  rw [isLetter_toUpper, h d hd]

theorem map_toUpper_of_areDigits (h : AreDigits cs) : cs.map Char.toUpper = cs := by
  rw [List.map_congr_left fun c hc => toUpper_of_isDigit (h c hc), List.map_id']

/-! ## Addresses -/

theorem upperChar_of_isDigit (h : Decimal.isDigit c = true) : Text.upperChar c = [c.toUpper] := by
  have hSmall : c.toNat < 0x80 := by
    rw [isDigit_toNat] at h
    omega
  rw [Text.upperChar, if_pos hSmall]

theorem toList_upper (hLetters : AreLetters letters) (hDigits : AreDigits digits)
    (hAddress : address.toList = letters ++ digits) :
    (Text.upper address).toList = letters.map Char.toUpper ++ digits := by
  have hChar : ∀ c ∈ letters ++ digits, Text.upperChar c = [c.toUpper] := by
    intro c hc
    rcases List.mem_append.mp hc with hc | hc
    · exact Coordinate.upperChar_of_isLetter (hLetters c hc)
    · exact upperChar_of_isDigit (hDigits c hc)
  rw [Text.upper, String.toList_ofList, hAddress, List.flatMap_congr hChar, ← List.map_eq_flatMap,
    List.map_append, map_toUpper_of_areDigits hDigits]

theorem spells_upper (h : Spells .cell address.toList) :
    Spells .cell (Text.upper address).toList := by
  obtain ⟨letters, digits, hNonempty, hDigitsNonempty, hLetters, hDigits, hAddress⟩ := h
  rw [toList_upper hLetters hDigits hAddress]
  exact ⟨_, digits, by simpa using hNonempty, hDigitsNonempty,
    areLetters_map_toUpper hLetters, hDigits, rfl⟩

theorem upper_upper (h : Spells .cell address.toList) :
    Text.upper (Text.upper address) = Text.upper address := by
  obtain ⟨letters, digits, -, -, hLetters, hDigits, hAddress⟩ := h
  have hUpper := toList_upper hLetters hDigits hAddress
  apply String.toList_injective
  rw [toList_upper (areLetters_map_toUpper hLetters) hDigits hUpper, hUpper, List.map_map]
  congr 2
  funext c
  exact Char.toUpper_toUpper_eq_toUpper c

end Spreadsheet
