import Spreadsheet.Address
import Mathlib

/-!
# Addresses that are read, and coordinates that have one

An address whose row has few enough digits is read, or refused as malformed. A coordinate that an
address names has an address itself, and so has every member of a rectangle between two of them.
-/

set_option autoImplicit false

namespace Spreadsheet

namespace Decimal

theorem ofDigits_append_singleton (cs : List Char) (c : Char) :
    ofDigits (cs ++ [c]) = ofDigits cs * 10 + (c.toNat - '0'.toNat) := by
  simp [ofDigits]

theorem ofDigits_lt {cs : List Char} (h : cs.all isDigit = true) :
    ofDigits cs < 10 ^ cs.length := by
  induction cs using List.reverseRecOn with
  | nil => simp [ofDigits]
  | append_singleton cs c ih =>
    simp only [List.all_append, List.all_cons, List.all_nil, Bool.and_true, Bool.and_eq_true] at h
    have hRest := ih h.1
    have hDigit : c.toNat - '0'.toNat < 10 := by
      have hLast := h.2
      simp only [isDigit, Bool.and_eq_true, decide_eq_true_eq, Char.le_def] at hLast
      have hNine : c.toNat ≤ '9'.toNat := hLast.2
      have : '9'.toNat = 57 := rfl
      have : '0'.toNat = 48 := rfl
      omega
    rw [ofDigits_append_singleton, List.length_append, List.length_singleton, pow_succ]
    omega

theorem digits_length_le {n k : Nat} (hk : 0 < k) (h : n < 10 ^ k) : (digits n).length ≤ k :=
  (Nat.length_toDigits_le_iff (by decide) hk).mpr h

theorem isWritable_of_lt {n : Nat} (h : n < 10 ^ digitLimit) : isWritable (n : Int) = true := by
  simp only [isWritable, Int.natAbs_natCast, decide_eq_true_eq]
  exact digits_length_le (by decide) h

end Decimal

namespace Coordinate

/-- The row of an address has few enough digits to be read. -/
def RowIsReadable (address : String) : Prop :=
  ∀ column row, splitAddress address.toList = some (column, row) →
    row.length ≤ Decimal.digitLimit

/-- A row has at most as many digits as its address has characters. -/
theorem rowIsReadable_of_length_le {address : String}
    (h : address.toList.length ≤ Decimal.digitLimit) : RowIsReadable address := by
  intro column row hSplit
  simp only [splitAddress] at hSplit
  split at hSplit
  · cases hSplit
  · cases hSplit
    exact (List.dropWhile_sublist _).length_le.trans h

theorem rowIsReadable_of_ofAddress {address : String} {c : Coordinate}
    (h : ofAddress address = .ok c) : RowIsReadable address := by
  intro column row hSplit
  unfold ofAddress at h
  simp only [hSplit, Decimal.read] at h
  by_contra hLong
  simp only [if_neg hLong] at h
  cases h

theorem ofAddress_error_of_readable {address : String} {e : Failure} (h : RowIsReadable address)
    (he : ofAddress address = .error e) : ∃ fault, e = .formula fault := by
  unfold ofAddress at he
  split at he
  · cases he
    exact ⟨_, rfl⟩
  · rename_i column row hSplit
    simp only [Decimal.read, if_pos (h column row hSplit)] at he
    split at he
    · rename_i hRead
      cases hRead
    · cases he
      exact ⟨_, rfl⟩
    · cases he

/-- A coordinate lies in the grid at a row that can be written. -/
def IsAddressable (c : Coordinate) : Prop :=
  0 ≤ c.row ∧ 0 ≤ c.column ∧ c.row + 1 < 10 ^ Decimal.digitLimit

theorem IsAddressable.toAddress_eq {c : Coordinate} (h : c.IsAddressable) :
    c.toAddress = .ok c.address := by
  obtain ⟨hRow, hColumn, hLimit⟩ := h
  have hGrid : c.isInGrid = true := by simp [isInGrid, hRow, hColumn]
  have hWritable : Decimal.isWritable (c.row + 1) = true := by
    obtain ⟨n, hn⟩ := Int.eq_ofNat_of_zero_le (by omega : 0 ≤ c.row + 1)
    rw [hn] at hLimit ⊢
    exact Decimal.isWritable_of_lt (by exact_mod_cast hLimit)
  simp [toAddress, hGrid, hWritable]

theorem eq_address_of_toAddress {c : Coordinate} {address : String}
    (h : c.toAddress = .ok address) : address = c.address := by
  unfold toAddress at h
  split at h <;> split at h <;> cases h
  rfl

theorem toAddress_error {c : Coordinate} {e : Failure} (h : c.toAddress = .error e) :
    (∃ fault, e = .numeric fault) ∨ c.isInGrid = false ∧ e = .formula (.outsideGrid c) := by
  unfold toAddress at h
  cases hGrid : c.isInGrid with
  | true =>
    simp only [hGrid, if_true] at h
    split at h <;> cases h
    exact .inl ⟨_, rfl⟩
  | false =>
    simp only [hGrid, Bool.false_eq_true, if_false] at h
    split at h <;> cases h
    · exact .inr ⟨rfl, rfl⟩
    · exact .inl ⟨_, rfl⟩

theorem isLetter_iff (c : Char) :
    isLetter c = true ↔ 65 ≤ c.toNat ∧ c.toNat ≤ 90 ∨ 97 ≤ c.toNat ∧ c.toNat ≤ 122 := by
  simp only [isLetter, Bool.or_eq_true, Bool.and_eq_true, decide_eq_true_eq, Char.le_def]
  rfl

theorem toNat_toUpper_of_isLetter {c : Char} (h : isLetter c = true) : 65 ≤ c.toUpper.toNat := by
  rw [isLetter_iff] at h
  unfold Char.toUpper
  split
  · rename_i hLower
    have hLow : 97 ≤ c.toNat := hLower.1
    have hHigh : c.toNat ≤ 122 := hLower.2
    change 65 ≤ (c.val + ('A'.val - 'a'.val)).toNat
    rw [UInt32.toNat_add]
    have hShift : ('A'.val - 'a'.val).toNat = 2 ^ 32 - 32 := rfl
    have hValue : c.val.toNat = c.toNat := rfl
    omega
  · omega

theorem upperChar_of_isLetter {c : Char} (h : isLetter c = true) :
    Text.upperChar c = [c.toUpper] := by
  have hSmall : c.toNat < 0x80 := by
    rw [isLetter_iff] at h
    omega
  simp [Text.upperChar, hSmall]

theorem columnIndex_nonneg {cs : List Char} (hNonempty : cs ≠ [])
    (h : ∀ c ∈ cs, isLetter c = true) : 0 ≤ columnIndex cs := by
  have hPositive : 0 < (cs.flatMap Text.upperChar).foldl
      (fun (n : Int) c => n * 26 + (c.toNat - 64 : Int)) 0 := by
    induction cs using List.reverseRecOn with
    | nil => exact absurd rfl hNonempty
    | append_singleton cs c ih =>
      have hLetter : isLetter c = true := h c (by simp)
      have hValue := toNat_toUpper_of_isLetter hLetter
      simp only [List.flatMap_append, List.flatMap_cons, List.flatMap_nil, List.append_nil,
        upperChar_of_isLetter hLetter, List.foldl_append, List.foldl_cons, List.foldl_nil]
      by_cases hEmpty : cs = []
      · subst hEmpty
        simp only [List.flatMap_nil, List.foldl_nil]
        omega
      · have hRest := ih hEmpty fun d hd => h d (List.mem_append_left _ hd)
        omega
  unfold columnIndex
  omega

theorem splitAddress_eq_some {cs column row : List Char}
    (h : splitAddress cs = some (column, row)) :
    column ≠ [] ∧ (∀ c ∈ column, isLetter c = true) ∧ row.all Decimal.isDigit = true := by
  simp only [splitAddress] at h
  split at h
  · cases h
  · rename_i hShape
    simp only [Option.some.injEq, Prod.mk.injEq] at h
    obtain ⟨rfl, rfl⟩ := h
    simp only [Bool.or_eq_true, List.isEmpty_iff, Bool.not_eq_true', not_or,
      Bool.not_eq_false] at hShape
    exact ⟨hShape.1.1, List.all_eq_true.mp List.all_takeWhile, hShape.2⟩

theorem isAddressable_of_ofAddress {address : String} {c : Coordinate}
    (h : ofAddress address = .ok c) : c.IsAddressable := by
  unfold ofAddress at h
  split at h
  · cases h
  · rename_i column row hSplit
    obtain ⟨hNonempty, hLetters, hDigits⟩ := splitAddress_eq_some hSplit
    have hColumn := columnIndex_nonneg hNonempty hLetters
    simp only [Decimal.read] at h
    split at h
    · cases h
    · cases h
    · rename_i n hRead
      cases h
      split at hRead
      · rename_i hLength
        have hValue : Decimal.ofDigits row = n + 1 := by simpa using hRead
        have hBound : n + 1 < 10 ^ Decimal.digitLimit := by
          rw [← hValue]
          exact (Decimal.ofDigits_lt hDigits).trans_le (Nat.pow_le_pow_right (by decide) hLength)
        refine ⟨by simp, hColumn, ?_⟩
        simp only
        exact_mod_cast hBound
      · cases hRead

theorem mem_span {a b r : Int} : r ∈ span a b ↔ a ≤ r ∧ r ≤ b := by
  simp only [span, List.mem_map, List.mem_range]
  constructor
  · rintro ⟨k, hk, rfl⟩
    omega
  · rintro ⟨ha, hb⟩
    exact ⟨(r - a).toNat, by omega, by omega⟩

theorem mem_rectangle {a b c : Coordinate} :
    c ∈ rectangle a b ↔ (min a.row b.row ≤ c.row ∧ c.row ≤ max a.row b.row) ∧
      (min a.column b.column ≤ c.column ∧ c.column ≤ max a.column b.column) := by
  simp only [rectangle, List.mem_flatMap, List.mem_map, mem_span]
  constructor
  · rintro ⟨r, hr, k, hk, rfl⟩
    exact ⟨hr, hk⟩
  · rintro ⟨hr, hk⟩
    exact ⟨c.row, hr, c.column, hk, rfl⟩

theorem IsAddressable.of_mem_rectangle {a b c : Coordinate} (ha : a.IsAddressable)
    (hb : b.IsAddressable) (h : c ∈ rectangle a b) : c.IsAddressable := by
  obtain ⟨⟨hLow, hHigh⟩, hLeft, -⟩ := mem_rectangle.mp h
  obtain ⟨haRow, haColumn, haLimit⟩ := ha
  obtain ⟨hbRow, hbColumn, hbLimit⟩ := hb
  refine ⟨by omega, by omega, ?_⟩
  rcases max_choice a.row b.row with hMax | hMax <;> omega

end Coordinate
end Spreadsheet
