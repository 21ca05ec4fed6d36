import Spreadsheet.Proofs.Address.RoundTrip

/-!
# Columns and their letters, addresses and their canonical spelling

Column letters are numerals without a zero: each non-empty word of capital letters numbers one
column, shorter words come first and words of one length in alphabetical order. With the digits of
the row behind them they make the canonical spelling of an address, which is the only one that is
written.
-/

set_option autoImplicit false

namespace Spreadsheet

open Lexer

namespace Decimal

/-! ## Digits of a row -/

variable {row : List Char} {c : Char}

theorem digitChar_of_isDigit (h : isDigit c = true) :
    Nat.digitChar (c.toNat - '0'.toNat) = c := by
  have hRange := (isDigit_toNat c).mp h
  have hZero : '0'.toNat = 48 := rfl
  obtain ⟨k, hk⟩ := Nat.exists_eq_add_of_le hRange.1
  have hSmall : k < 10 := by omega
  have hChar : c = Char.ofNat (48 + k) := by rw [← hk, Char.ofNat_toNat]
  rw [hk, hZero, Nat.add_sub_cancel_left, hChar]
  interval_cases k <;> rfl

/-- Digits with no zero to spare are those of the number that they spell. -/
theorem digits_ofDigits_of_head (h : AreDigits row) (hNonempty : row ≠ [])
    (hHead : row.head? ≠ some '0') : digits (ofDigits row) = row := by
  induction row using List.reverseRecOn with
  | nil => exact absurd rfl hNonempty
  | append_singleton row c ih =>
    have hLast := h c (List.mem_append_right _ List.mem_cons_self)
    have hValue : c.toNat - '0'.toNat < 10 := by
      have hRange := (isDigit_toNat c).mp hLast
      have hZero : '0'.toNat = 48 := rfl
      omega
    rw [ofDigits_append_singleton, digits, Nat.toDigits_eq_if (by decide)]
    by_cases hEmpty : row = []
    · subst hEmpty
      have hNone : ofDigits [] = 0 := rfl
      rw [hNone, Nat.zero_mul, Nat.zero_add, if_pos hValue, digitChar_of_isDigit hLast,
        List.nil_append]
    · rw [List.head?_append_of_ne_nil _ hEmpty] at hHead
      have hRest := ih (fun d hd => h d (List.mem_append_left _ hd)) hEmpty hHead
      have hPositive : 0 < ofDigits row := by
        refine Nat.pos_of_ne_zero fun hNone => hHead ?_
        rw [← hRest, hNone]
        rfl
      have hQuotient : (ofDigits row * 10 + (c.toNat - '0'.toNat)) / 10 = ofDigits row := by omega
      have hRemainder :
          (ofDigits row * 10 + (c.toNat - '0'.toNat)) % 10 = c.toNat - '0'.toNat := by omega
      rw [if_neg (by omega), hQuotient, hRemainder, digitChar_of_isDigit hLast]
      exact congrArg (· ++ [c]) hRest

theorem ofDigits_dropWhile_zero (row : List Char) :
    ofDigits (row.dropWhile (· == '0')) = ofDigits row := by
  induction row with
  | nil => rfl
  | cons c row ih =>
    rw [List.dropWhile_cons]
    split_ifs with hZero
    · obtain rfl := eq_of_beq hZero
      exact ih
    · rfl

/-- The digits of a number are any digits that spell it, without the zeros in front. -/
theorem digits_ofDigits (h : AreDigits row) (hPositive : ofDigits row ≠ 0) :
    digits (ofDigits row) = row.dropWhile (· == '0') := by
  have hSuffix := List.dropWhile_suffix (l := row) (· == '0')
  rw [← ofDigits_dropWhile_zero] at hPositive ⊢
  apply digits_ofDigits_of_head
  · exact fun c hc => h c (hSuffix.subset hc)
  · rintro hNone
    rw [hNone] at hPositive
    exact hPositive rfl
  · intro hHead
    have hNot := List.head?_dropWhile_not (· == '0') row
    rw [hHead] at hNot
    simp at hNot

end Decimal

namespace Coordinate

/-! ## Columns -/

/-- The words that name columns: capital letters, and at least one. -/
def IsColumnName (cs : List Char) : Prop := cs ≠ [] ∧ ∀ c ∈ cs, 'A' ≤ c ∧ c ≤ 'Z'

/-- The number of the column that letters name, counted from one. -/
def columnNumber (cs : List Char) : Nat := cs.foldl (fun n c => n * 26 + (c.toNat - 64)) 0

variable {cs ds : List Char} {c : Char}

theorem columnNumber_append_singleton (cs : List Char) (c : Char) :
    columnNumber (cs ++ [c]) = columnNumber cs * 26 + (c.toNat - 64) := by
  rw [columnNumber, List.foldl_append]
  rfl

theorem capital_iff : 'A' ≤ c ∧ c ≤ 'Z' ↔ 65 ≤ c.toNat ∧ c.toNat ≤ 90 := by
  simp only [Char.le_def]
  rfl

theorem areLetters_of_capitals (h : ∀ c ∈ cs, 'A' ≤ c ∧ c ≤ 'Z') : AreLetters cs := fun c hc =>
  (isLetter_iff c).mpr (.inl (capital_iff.mp (h c hc)))

theorem toUpper_capital (h : 'A' ≤ c ∧ c ≤ 'Z') : c.toUpper = c := by
  have hRange := capital_iff.mp h
  obtain ⟨k, hk⟩ := Nat.exists_eq_add_of_le hRange.1
  have hChar : c = Char.ofNat (65 + k) := by rw [← hk, Char.ofNat_toNat]
  rw [hChar]
  exact toUpper_letter (by omega)

theorem isCapital_toUpper (h : isLetter c = true) : 'A' ≤ c.toUpper ∧ c.toUpper ≤ 'Z' := by
  have hUpper : isLetter c.toUpper = true := by rw [isLetter_toUpper, h]
  have hRange := (isLetter_iff _).mp hUpper
  have hSame : c.toUpper.toUpper = c.toUpper := Char.toUpper_toUpper_eq_toUpper c
  rw [capital_iff]
  rcases hRange with hCapital | hSmall
  · exact hCapital
  · exfalso
    obtain ⟨k, hk⟩ := Nat.exists_eq_add_of_le hSmall.1
    have hChar : c.toUpper = Char.ofNat (97 + k) := by rw [← hk, Char.ofNat_toNat]
    have hBound : k < 26 := by omega
    rw [hChar] at hSame
    interval_cases k <;> revert hSame <;> decide

theorem columnIndex_eq (h : AreLetters cs) :
    columnIndex cs = (columnNumber (cs.map Char.toUpper) : Int) - 1 := by
  have hUpper : ∀ c ∈ cs.map Char.toUpper, 65 ≤ c.toNat := by
    intro c hc
    obtain ⟨d, hd, rfl⟩ := List.mem_map.mp hc
    exact toNat_toUpper_of_isLetter (h d hd)
  rw [columnIndex, flatMap_upperChar h]
  congr 1
  generalize cs.map Char.toUpper = ds at hUpper
  induction ds using List.reverseRecOn with
  | nil => rfl
  | append_singleton ds c ih =>
    have hLast := hUpper c (List.mem_append_right _ List.mem_cons_self)
    have hRest := ih fun d hd => hUpper d (List.mem_append_left _ hd)
    rw [List.foldl_append, hRest, columnNumber_append_singleton, List.foldl_cons, List.foldl_nil]
    push_cast
    omega

theorem columnIndex_of_capitals (h : ∀ c ∈ cs, 'A' ≤ c ∧ c ≤ 'Z') :
    columnIndex cs = (columnNumber cs : Int) - 1 := by
  rw [columnIndex_eq (areLetters_of_capitals h),
    List.map_congr_left fun c hc => toUpper_capital (h c hc), List.map_id']

/-- Words of capital letters are the letters of their own numbers: each step of writing takes off
the letter that the last step of reading put on. -/
theorem letters_columnNumber (h : ∀ c ∈ cs, 'A' ≤ c ∧ c ≤ 'Z') :
    letters (columnNumber cs) = cs := by
  induction cs using List.reverseRecOn with
  | nil => exact letters_zero
  | append_singleton cs c ih =>
    have hRange := capital_iff.mp (h c (List.mem_append_right _ List.mem_cons_self))
    have hRest := ih fun d hd => h d (List.mem_append_left _ hd)
    obtain ⟨k, hk⟩ := Nat.exists_eq_add_of_le hRange.1
    have hNumber : columnNumber cs * 26 + (65 + k - 64) = columnNumber cs * 26 + k + 1 := by omega
    have hQuotient : (columnNumber cs * 26 + k) / 26 = columnNumber cs := by omega
    have hRemainder : (columnNumber cs * 26 + k) % 26 = k := by omega
    rw [columnNumber_append_singleton, hk, hNumber, letters_succ, hQuotient, hRemainder, hRest,
      ← hk, Char.ofNat_toNat]

theorem capitals_letters (n : Nat) : ∀ c ∈ letters n, 'A' ≤ c ∧ c ≤ 'Z' := by
  intro c hc
  rw [← map_toUpper_letters] at hc
  obtain ⟨d, hd, rfl⟩ := List.mem_map.mp hc
  exact isCapital_toUpper (areLetters_letters n d hd)

theorem columnNumber_pos (h : IsColumnName cs) : 0 < columnNumber cs := by
  refine Nat.pos_of_ne_zero fun hNone => h.1 ?_
  rw [← letters_columnNumber h.2, hNone, letters_zero]

/-! ## The order of columns -/

/-- Shorter words come first, and words of one length in alphabetical order. -/
def ComesFirst (cs ds : List Char) : Prop :=
  cs.length < ds.length ∨ cs.length = ds.length ∧ cs < ds

theorem comesFirst_or (cs ds : List Char) : ComesFirst cs ds ∨ cs = ds ∨ ComesFirst ds cs := by
  rcases Nat.lt_trichotomy cs.length ds.length with hShorter | hSame | hLonger
  · exact .inl (.inl hShorter)
  · rcases lt_trichotomy cs ds with hBefore | hEq | hAfter
    · exact .inl (.inr ⟨hSame, hBefore⟩)
    · exact .inr (.inl hEq)
    · exact .inr (.inr (.inr ⟨hSame.symm, hAfter⟩))
  · exact .inr (.inr (.inl hLonger))

/-! Reading goes on from the number of the letters read so far. What counts of a longer beginning
is only that its number is larger, because the letters of one place are worth at most twenty-six. -/

theorem foldl_letter_lt {m n : Nat} (h : m < n) (hLength : cs.length = ds.length)
    (hcs : ∀ c ∈ cs, 'A' ≤ c ∧ c ≤ 'Z') (hds : ∀ d ∈ ds, 'A' ≤ d ∧ d ≤ 'Z') :
    cs.foldl (fun n c => n * 26 + (c.toNat - 64)) m <
      ds.foldl (fun n c => n * 26 + (c.toNat - 64)) n := by
  induction cs generalizing ds m n with
  | nil =>
    obtain rfl := List.length_eq_zero_iff.mp hLength.symm
    exact h
  | cons c cs ih =>
    obtain ⟨d, ds, rfl⟩ := List.exists_cons_of_length_eq_add_one hLength.symm
    obtain ⟨hc, hcs⟩ := List.forall_mem_cons.mp hcs
    obtain ⟨hd, hds⟩ := List.forall_mem_cons.mp hds
    have hHigh := (capital_iff.mp hc).2
    have hLow := (capital_iff.mp hd).1
    rw [List.foldl_cons, List.foldl_cons]
    exact ih (by omega) (Nat.succ.inj hLength) hcs hds

theorem foldl_letter_lt_of_shorter {m n : Nat} (h : m ≤ n) (hLength : cs.length < ds.length)
    (hcs : ∀ c ∈ cs, 'A' ≤ c ∧ c ≤ 'Z') (hds : ∀ d ∈ ds, 'A' ≤ d ∧ d ≤ 'Z') :
    cs.foldl (fun n c => n * 26 + (c.toNat - 64)) m <
      ds.foldl (fun n c => n * 26 + (c.toNat - 64)) n := by
  induction ds generalizing n with
  | nil => cases hLength
  | cons d ds ih =>
    obtain ⟨hd, hds⟩ := List.forall_mem_cons.mp hds
    have hLow := (capital_iff.mp hd).1
    have hMore : m < n * 26 + (d.toNat - 64) := by omega
    rw [List.foldl_cons]
    rcases Nat.lt_succ_iff_lt_or_eq.mp hLength with hShorter | hSame
    · exact ih hMore.le hShorter hds
    · exact foldl_letter_lt hMore hSame hcs hds

theorem foldl_letter_lt_of_before (n : Nat) (hLength : cs.length = ds.length) (h : cs < ds)
    (hcs : ∀ c ∈ cs, 'A' ≤ c ∧ c ≤ 'Z') (hds : ∀ d ∈ ds, 'A' ≤ d ∧ d ≤ 'Z') :
    cs.foldl (fun n c => n * 26 + (c.toNat - 64)) n <
      ds.foldl (fun n c => n * 26 + (c.toNat - 64)) n := by
  induction cs generalizing ds n with
  | nil =>
    obtain rfl := List.length_eq_zero_iff.mp hLength.symm
    exact absurd h (lt_irrefl _)
  | cons c cs ih =>
    obtain ⟨d, ds, rfl⟩ := List.exists_cons_of_length_eq_add_one hLength.symm
    obtain ⟨hc, hRest⟩ := List.forall_mem_cons.mp hcs
    obtain ⟨-, hRest'⟩ := List.forall_mem_cons.mp hds
    have hSame := Nat.succ.inj hLength
    rw [List.foldl_cons, List.foldl_cons]
    rcases List.cons_lt_cons_iff.mp h with hLess | ⟨rfl, hBefore⟩
    · have hLow := (capital_iff.mp hc).1
      have hLess : c.toNat < d.toNat := hLess
      exact foldl_letter_lt (by omega) hSame hRest hRest'
    · exact ih _ hSame hBefore hRest hRest'

theorem columnNumber_lt (hcs : ∀ c ∈ cs, 'A' ≤ c ∧ c ≤ 'Z') (hds : ∀ c ∈ ds, 'A' ≤ c ∧ c ≤ 'Z')
    (h : ComesFirst cs ds) : columnNumber cs < columnNumber ds := by
  rcases h with hShorter | ⟨hSame, hBefore⟩
  · exact foldl_letter_lt_of_shorter (Nat.le_refl 0) hShorter hcs hds
  · exact foldl_letter_lt_of_before 0 hSame hBefore hcs hds

theorem columnNumber_lt_iff (hcs : ∀ c ∈ cs, 'A' ≤ c ∧ c ≤ 'Z')
    (hds : ∀ c ∈ ds, 'A' ≤ c ∧ c ≤ 'Z') :
    columnNumber cs < columnNumber ds ↔ ComesFirst cs ds := by
  refine ⟨fun hLess => ?_, columnNumber_lt hcs hds⟩
  rcases comesFirst_or cs ds with hFirst | rfl | hLast
  · exact hFirst
  · exact absurd hLess (Nat.lt_irrefl _)
  · exact absurd (columnNumber_lt hds hcs hLast) (Nat.lt_asymm hLess)

/-! ## Canonical addresses -/

/-- The spelling of an address with its letters in upper case and no zeros in front of its row. -/
def canonical (address : String) : String :=
  String.ofList ((address.toList.takeWhile isLetter).map Char.toUpper ++
    (address.toList.dropWhile isLetter).dropWhile (· == '0'))

/-- What an address is read as is written canonically. -/
theorem address_of_ofAddress {address : String} {c : Coordinate} (h : ofAddress address = .ok c) :
    c.address = canonical address := by
  have hGrid := (isAddressable_of_ofAddress h).isInGrid
  obtain ⟨letters', row, hNonempty, hRow, hLetters, hDigits, hAddress⟩ := spells_of_ofAddress h
  have hSplit := splitAddress_of_letters hNonempty hLetters hRow hDigits
  have hHead : ∀ c ∈ row.head?, isLetter c = false := fun c hc =>
    isLetter_of_isDigit (hDigits c (List.mem_of_mem_head? hc))
  have hCapitals : ∀ c ∈ letters'.map Char.toUpper, 'A' ≤ c ∧ c ≤ 'Z' := by
    intro c hc
    obtain ⟨d, hd, rfl⟩ := List.mem_map.mp hc
    exact isCapital_toUpper (hLetters d hd)
  have hName : IsColumnName (letters'.map Char.toUpper) := ⟨by simpa using hNonempty, hCapitals⟩
  have hPositive := columnNumber_pos hName
  rw [ofAddress, hAddress, hSplit] at h
  simp only [Decimal.read] at h
  split_ifs at h with hLimit
  cases hNumber : Decimal.ofDigits row with
  | zero =>
    rw [hNumber] at h
    cases h
  | succ n =>
    rw [hNumber] at h
    cases h
    apply String.toList_injective
    rw [toList_address hGrid, canonical, String.toList_ofList, hAddress,
      takeWhile_run hLetters hHead, dropWhile_run hLetters hHead]
    have hColumn : (columnIndex letters').toNat + 1 = columnNumber (letters'.map Char.toUpper) := by
      rw [columnIndex_eq hLetters]
      omega
    have hNonzero : Decimal.ofDigits row ≠ 0 := by
      rw [hNumber]
      exact n.succ_ne_zero
    simp only [hColumn, letters_columnNumber hCapitals, Int.toNat_natCast, ← hNumber,
      Decimal.digits_ofDigits hDigits hNonzero]

theorem toAddress_of_ofAddress {address : String} {c : Coordinate} (h : ofAddress address = .ok c) :
    c.toAddress = .ok (canonical address) := by
  rw [(isAddressable_of_ofAddress h).toAddress_eq, address_of_ofAddress h]

/-! ## Inverses -/

theorem toList_columnLetters (n : Int) : (columnLetters n).toList = letters (n + 1).toNat :=
  String.toList_ofList

theorem isColumnName_columnLetters {n : Int} (h : 0 ≤ n) :
    IsColumnName (columnLetters n).toList := by
  rw [toList_columnLetters]
  exact ⟨letters_ne_nil (by omega), capitals_letters _⟩

theorem columnIndex_columnLetters {n : Int} (h : 0 ≤ n) :
    columnIndex (columnLetters n).toList = n := by
  rw [toList_columnLetters, columnIndex_letters]
  omega

theorem columnLetters_columnIndex {word : String} (h : IsColumnName word.toList) :
    0 ≤ columnIndex word.toList ∧ columnLetters (columnIndex word.toList) = word := by
  have hPositive := columnNumber_pos h
  have hIndex := columnIndex_of_capitals h.2
  refine ⟨by omega, String.toList_injective ?_⟩
  have hNumber : (columnIndex word.toList + 1).toNat = columnNumber word.toList := by omega
  rw [toList_columnLetters, hNumber, letters_columnNumber h.2]

theorem columnIndex_lt_iff {word word' : String} (h : IsColumnName word.toList)
    (h' : IsColumnName word'.toList) :
    columnIndex word.toList < columnIndex word'.toList ↔
      word.length < word'.length ∨ word.length = word'.length ∧ word < word' := by
  have hOrder := columnNumber_lt_iff h.2 h'.2
  have hIndex := columnIndex_of_capitals h.2
  have hIndex' := columnIndex_of_capitals h'.2
  rw [ComesFirst, String.length_toList, String.length_toList] at hOrder
  rw [String.lt_iff_toList_lt, ← hOrder]
  omega

/-- Addresses and coordinates are inverse to one another, up to the spelling of an address, and so
are the words that name columns and the numbers of these, in the order of the numbers. -/
theorem address_coordinate_inverse :
    (∀ c : Coordinate, c.IsAddressable →
      ∃ address, c.toAddress = .ok address ∧ ofAddress address = .ok c) ∧
    (∀ (address : String) (c : Coordinate), ofAddress address = .ok c →
      c.IsAddressable ∧ c.toAddress = .ok (canonical address)) ∧
    (∀ n : Int, 0 ≤ n →
      IsColumnName (columnLetters n).toList ∧ columnIndex (columnLetters n).toList = n) ∧
    (∀ word : String, IsColumnName word.toList →
      0 ≤ columnIndex word.toList ∧ columnLetters (columnIndex word.toList) = word) ∧
    (∀ word word' : String, IsColumnName word.toList → IsColumnName word'.toList →
      (columnIndex word.toList < columnIndex word'.toList ↔
        word.length < word'.length ∨ word.length = word'.length ∧ word < word')) :=
  ⟨fun c h => ⟨c.address, h.toAddress_eq, ofAddress_address h⟩,
    fun _ _ h => ⟨isAddressable_of_ofAddress h, toAddress_of_ofAddress h⟩,
    fun _ h => ⟨isColumnName_columnLetters h, columnIndex_columnLetters h⟩,
    fun _ h => columnLetters_columnIndex h,
    fun _ _ h h' => columnIndex_lt_iff h h'⟩

/-- The column after `ZZ` is the first with three letters. -/
theorem address_coordinate_inverse_carry :
    (∃ address, toAddress ⟨6, 702⟩ = .ok address ∧ ofAddress address = .ok ⟨6, 702⟩) ∧
    toAddress ⟨6, 702⟩ = .ok (canonical "aAa007") ∧ canonical "aAa007" = "AAA7" ∧
    columnIndex (columnLetters 701).toList = 701 ∧ columnLetters (columnIndex "ZZ".toList) = "ZZ" ∧
    columnIndex "ZZ".toList < columnIndex "AAA".toList := by
  obtain ⟨hWritten, hRead, hIndex, hName, hOrder⟩ := address_coordinate_inverse
  have hAddress : ofAddress "aAa007" = .ok ⟨6, 702⟩ := by rfl
  obtain ⟨hAddressable, hCanonical⟩ := hRead _ _ hAddress
  have hZZ : IsColumnName "ZZ".toList := by simp [IsColumnName]
  have hAAA : IsColumnName "AAA".toList := by simp [IsColumnName]
  exact ⟨hWritten _ hAddressable, hCanonical, by decide, (hIndex 701 (by decide)).2,
    (hName "ZZ" hZZ).2, (hOrder "ZZ" "AAA" hZZ hAAA).mpr (.inl (by decide))⟩

end Coordinate
end Spreadsheet
