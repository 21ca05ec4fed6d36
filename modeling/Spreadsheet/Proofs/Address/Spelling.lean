import Spreadsheet.Function
import Spreadsheet.Proofs.Address.Case

/-!
# Spellings of one address, and of one name

An address may be written with its letters in either case and with zeros in front of its row; a name
may be written in either case. All spellings of an address are read as one coordinate, and all
spellings of a name have one lower case. Zeros may make a row too long to be read, so an address
takes them only up to the limit.
-/

set_option autoImplicit false

namespace Spreadsheet

open Lexer

/-- The second text spells the address with its letters in any case and more zeros in its row. -/
inductive SameAddress : List Char → List Char → Prop
  | intro {letters letters' row : List Char} (zeros : Nat) (hNonempty : letters ≠ [])
      (hLetters : AreLetters letters)
      (hCase : letters'.map Char.toUpper = letters.map Char.toUpper) (hRow : row ≠ [])
      (hDigits : AreDigits row) (hLimit : zeros = 0 ∨ zeros + row.length ≤ Decimal.digitLimit) :
      SameAddress (letters ++ row) (letters' ++ (List.replicate zeros '0' ++ row))

/-- The second text spells the name with its letters in any case. -/
structure SameName (name name' : List Char) : Prop where
  nonempty : name ≠ []
  letters : AreLetters name
  case : name'.map Char.toUpper = name.map Char.toUpper

variable {cs cs' row : List Char} {address address' name name' : String} {k : Nat}

/-! ## Letters in either case -/

theorem areLetters_of_case (h : AreLetters cs)
    (hCase : cs'.map Char.toUpper = cs.map Char.toUpper) : AreLetters cs' := by
  intro c hc
  have hMem : c.toUpper ∈ cs.map Char.toUpper := hCase ▸ List.mem_map_of_mem hc
  obtain ⟨d, hd, hSame⟩ := List.mem_map.mp hMem
  rw [← isLetter_toUpper, ← hSame, isLetter_toUpper, h d hd]

theorem ne_nil_of_case (hNonempty : cs ≠ [])
    (hCase : cs'.map Char.toUpper = cs.map Char.toUpper) : cs' ≠ [] := by
  rintro rfl
  exact hNonempty (List.map_eq_nil_iff.mp hCase.symm)

theorem flatMap_upperChar (h : AreLetters cs) :
    cs.flatMap Text.upperChar = cs.map Char.toUpper := by
  rw [List.flatMap_congr fun c hc => Coordinate.upperChar_of_isLetter (h c hc),
    ← List.map_eq_flatMap]

theorem columnIndex_of_case (h : AreLetters cs)
    (hCase : cs'.map Char.toUpper = cs.map Char.toUpper) :
    Coordinate.columnIndex cs' = Coordinate.columnIndex cs := by
  unfold Coordinate.columnIndex
  rw [flatMap_upperChar h, flatMap_upperChar (areLetters_of_case h hCase), hCase]

theorem lowerFrom_of_areLetters (before : List Char) (h : AreLetters cs) :
    Text.lowerFrom before cs = cs.map Char.toLower := by
  induction cs generalizing before with
  | nil => rfl
  | cons c cs ih =>
    have hRange := (Coordinate.isLetter_iff c).mp (h c List.mem_cons_self)
    have hSmall : c.toNat < 0x80 := by omega
    have hSigma : c ≠ 'Σ' := by
      rintro rfl
      revert hSmall
      decide
    rw [Text.lowerFrom, if_neg (fun h => hSigma h.1), Text.lowerChar, if_pos hSmall,
      ih (c :: before) fun d hd => h d (List.mem_cons_of_mem c hd)]
    rfl

theorem SameName.lower (h : SameName name.toList name'.toList) :
    Text.lower name' = Text.lower name := by
  have hLetters' := areLetters_of_case h.letters h.case
  rw [Text.lower, Text.lower, lowerFrom_of_areLetters [] h.letters,
    lowerFrom_of_areLetters [] hLetters']
  have hUpper : ∀ cs : List Char, cs.map Char.toLower = (cs.map Char.toUpper).map Char.toLower := by
    intro cs
    simp
  rw [hUpper, h.case, ← hUpper]

theorem SameName.byName? (h : SameName name.toList name'.toList) (r : Registry) :
    r.byName? name' = r.byName? name := by
  rw [Registry.byName?, Registry.byName?, h.lower]

/-! ## Zeros in front of a row -/

theorem ofDigits_zeros (k : Nat) (row : List Char) :
    Decimal.ofDigits (List.replicate k '0' ++ row) = Decimal.ofDigits row := by
  induction k with
  | zero => rfl
  | succ k ih =>
    rw [← ih]
    rfl

theorem read_zeros (h : k = 0 ∨ k + row.length ≤ Decimal.digitLimit) :
    Decimal.read (List.replicate k '0' ++ row) = Decimal.read row := by
  rcases h with rfl | hLimit
  · rfl
  · have hShort : row.length ≤ Decimal.digitLimit := by omega
    have hLonger : (List.replicate k '0' ++ row).length ≤ Decimal.digitLimit := by
      rwa [List.length_append, List.length_replicate]
    rw [Decimal.read, Decimal.read, if_pos hLonger, if_pos hShort, ofDigits_zeros]

theorem areDigits_zeros (h : AreDigits row) : AreDigits (List.replicate k '0' ++ row) := by
  intro c hc
  rcases List.mem_append.mp hc with hc | hc
  · rw [List.eq_of_mem_replicate hc]
    rfl
  · exact h c hc

/-! ## Addresses -/

theorem splitAddress_of_letters {letters row : List Char} (hNonempty : letters ≠ [])
    (hLetters : AreLetters letters) (hRow : row ≠ []) (hDigits : AreDigits row) :
    Coordinate.splitAddress (letters ++ row) = some (letters, row) := by
  have hHead : ∀ c ∈ row.head?, isLetter c = false := fun c hc =>
    isLetter_of_isDigit (hDigits c (List.mem_of_mem_head? hc))
  have hAll : row.all Decimal.isDigit = true := List.all_eq_true.mpr hDigits
  simp [Coordinate.splitAddress, takeWhile_run hLetters hHead, dropWhile_run hLetters hHead,
    hNonempty, hRow, hAll]

/-- All spellings of an address are read alike, but for the address in the fault of a row zero. -/
theorem SameAddress.ofAddress (h : SameAddress address.toList address'.toList) :
    Coordinate.ofAddress address' = Coordinate.ofAddress address ∨
      Coordinate.ofAddress address = .error (.formula (.rowZero address)) ∧
      Coordinate.ofAddress address' = .error (.formula (.rowZero address')) := by
  generalize hText : address.toList = text at h
  generalize hText' : address'.toList = text' at h
  cases h with
  | @intro letters letters' row zeros hNonempty hLetters hCase hRow hDigits hLimit =>
    have hSplit := splitAddress_of_letters hNonempty hLetters hRow hDigits
    have hSplit' := splitAddress_of_letters (ne_nil_of_case hNonempty hCase)
      (areLetters_of_case hLetters hCase) (List.append_ne_nil_of_right_ne_nil _ hRow)
      (areDigits_zeros (k := zeros) hDigits)
    unfold Coordinate.ofAddress
    simp only [hText, hText', hSplit, hSplit', read_zeros hLimit,
      columnIndex_of_case hLetters hCase]
    cases Decimal.read row with
    | error fault => exact .inl rfl
    | ok n =>
      cases n with
      | zero => exact .inr ⟨rfl, rfl⟩
      | succ n => exact .inl rfl

/-- A text is split into the letters and the digits that it is made of. -/
theorem splitAddress_eq_some_iff {letters row : List Char} :
    Coordinate.splitAddress cs = some (letters, row) ↔
      letters ≠ [] ∧ row ≠ [] ∧ AreLetters letters ∧ AreDigits row ∧ cs = letters ++ row := by
  constructor
  · intro hSplit
    simp only [Coordinate.splitAddress] at hSplit
    split at hSplit
    · cases hSplit
    · rename_i hShape
      simp only [Option.some.injEq, Prod.mk.injEq] at hSplit
      obtain ⟨rfl, rfl⟩ := hSplit
      simp only [Bool.or_eq_true, List.isEmpty_iff, Bool.not_eq_true', not_or,
        Bool.not_eq_false] at hShape
      obtain ⟨⟨hColumn, hRow⟩, hDigits⟩ := hShape
      exact ⟨hColumn, hRow, List.all_eq_true.mp List.all_takeWhile, List.all_eq_true.mp hDigits,
        List.takeWhile_append_dropWhile.symm⟩
  · rintro ⟨hNonempty, hRow, hLetters, hDigits, rfl⟩
    exact splitAddress_of_letters hNonempty hLetters hRow hDigits

/-- The texts that are split are those of the class of cells. -/
theorem spells_cell_iff :
    Spells .cell cs ↔ ∃ parts, Coordinate.splitAddress cs = some parts := by
  simp only [Prod.exists, splitAddress_eq_some_iff]
  rfl

/-- What is read as an address is one. -/
theorem spells_of_ofAddress {c : Coordinate} (h : Coordinate.ofAddress address = .ok c) :
    Spells .cell address.toList := by
  unfold Coordinate.ofAddress at h
  split at h
  · cases h
  · rename_i hSplit
    exact spells_cell_iff.mpr ⟨_, hSplit⟩

theorem sameAddress_upper (h : Spells .cell address.toList) :
    SameAddress address.toList (Text.upper address).toList := by
  obtain ⟨letters, row, hNonempty, hRow, hLetters, hDigits, hAddress⟩ := h
  have hCase : (letters.map Char.toUpper).map Char.toUpper = letters.map Char.toUpper := by
    rw [List.map_map]
    exact List.map_congr_left fun c _ => Char.toUpper_toUpper_eq_toUpper c
  rw [toList_upper hLetters hDigits hAddress, hAddress]
  exact SameAddress.intro 0 hNonempty hLetters hCase hRow hDigits (.inl rfl)

theorem ofAddress_upper_eq_ok {c : Coordinate} (h : Spells .cell address.toList) :
    Coordinate.ofAddress (Text.upper address) = .ok c ↔ Coordinate.ofAddress address = .ok c := by
  rcases (sameAddress_upper h).ofAddress with hEq | ⟨hZero, hZero'⟩
  · rw [hEq]
  · rw [hZero, hZero']
    exact ⟨nofun, nofun⟩

theorem ofAddress_upper {c : Coordinate} (h : Coordinate.ofAddress address = .ok c) :
    Coordinate.ofAddress (Text.upper address) = .ok c :=
  (ofAddress_upper_eq_ok (spells_of_ofAddress h)).mpr h

end Spreadsheet
