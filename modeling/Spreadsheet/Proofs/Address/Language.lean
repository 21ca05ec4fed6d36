import Spreadsheet.Proofs.Address.RoundTrip
import Spreadsheet.Proofs.Formula.Rendering

/-!
# The language of addresses

The lexer's class of cell tokens and the reader of addresses are two definitions of an address. A
text is a single cell token exactly when it is read as an address, or would be if rows were counted
from zero. So an address that stands in a formula is refused for the row zero alone; one with too
many digits is an address, but its row cannot be read.
-/

set_option autoImplicit false

namespace Spreadsheet

open Lexer

namespace Decimal

theorem areDigits_of_zeros {zeros : List Char} (h : ∀ c ∈ zeros, c = '0') : AreDigits zeros := by
  intro c hc
  rw [h c hc]
  rfl

/-- Digits spell zero only if all of them do. -/
theorem ofDigits_eq_zero_iff {row : List Char} (h : AreDigits row) :
    ofDigits row = 0 ↔ ∀ c ∈ row, c = '0' := by
  induction row using List.reverseRecOn with
  | nil => simp [ofDigits]
  | append_singleton row c ih =>
    have hLast := (isDigit_toNat c).mp (h c (List.mem_append_right _ List.mem_cons_self))
    have hRest := ih fun d hd => h d (List.mem_append_left _ hd)
    have hZero : '0'.toNat = 48 := rfl
    have hSame : c = '0' ↔ c.toNat = 48 := Char.toNat_inj.symm
    rw [ofDigits_append_singleton, List.forall_mem_append, List.forall_mem_singleton, ← hRest,
      hSame]
    omega

/-- How many digits a text has. -/
def digitCount (cs : List Char) : Nat := cs.countP isDigit

theorem digitCount_append_row {letters row : List Char} (hLetters : AreLetters letters)
    (hRow : AreDigits row) : digitCount (letters ++ row) = row.length := by
  have hNone : letters.countP isDigit = 0 := by
    rw [List.countP_eq_zero]
    intro c hc
    rw [isDigit_of_isLetter (hLetters c hc)]
    exact Bool.false_ne_true
  rw [digitCount, List.countP_append, hNone, Nat.zero_add, List.countP_eq_length.mpr hRow]

end Decimal

open Decimal (digitCount digitLimit)

/-! ## Texts of a single token -/

/-- A whole text is one token of a class if and only if it belongs to the class. -/
theorem tokenize_eq_singleton {kind : TokenKind} {source : String} :
    tokenize source = .ok [⟨kind, source, 0⟩] ↔ Spells kind source.toList := by
  constructor
  · intro h
    obtain ⟨q, hLexes⟩ := scan_eq_ok.mp h
    exact hLexes.segments.spells _ List.mem_cons_self
  · intro h
    have hLexes := Lexes.lexeme (p := 0) h endsBefore_nil .done
    rw [List.append_nil, String.ofList_toList] at hLexes
    exact scan_eq_ok.mpr ⟨_, hLexes⟩

namespace Coordinate

variable {address : String} {cs letters row : List Char} {e : Failure}

/-! ## Texts that are read as addresses -/

/-- Letters with zeros behind them and nothing else. -/
def NamesRowZero (cs : List Char) : Prop :=
  ∃ letters zeros, letters ≠ [] ∧ zeros ≠ [] ∧ AreLetters letters ∧ (∀ c ∈ zeros, c = '0') ∧
    cs = letters ++ zeros

theorem NamesRowZero.spells (h : NamesRowZero cs) : Spells .cell cs := by
  obtain ⟨letters, zeros, hNonempty, hZeros, hLetters, hAll, hText⟩ := h
  exact ⟨letters, zeros, hNonempty, hZeros, hLetters, Decimal.areDigits_of_zeros hAll, hText⟩

theorem namesRowZero_iff (hSplit : splitAddress cs = some (letters, row)) :
    NamesRowZero cs ↔ Decimal.ofDigits row = 0 := by
  obtain ⟨hNonempty, hRow, hLetters, hDigits, hText⟩ := splitAddress_eq_some_iff.mp hSplit
  rw [Decimal.ofDigits_eq_zero_iff hDigits]
  constructor
  · rintro ⟨letters', zeros, hNonempty', hZeros, hLetters', hAll, hText'⟩
    -- a text is split in one way only
    have hSame := splitAddress_of_letters hNonempty' hLetters' hZeros
      (Decimal.areDigits_of_zeros hAll)
    rw [← hText', hSplit] at hSame
    cases hSame
    exact hAll
  · intro hAll
    exact ⟨letters, row, hNonempty, hRow, hLetters, hAll, hText⟩

/-- How the reading of an address ends. -/
inductive ReadsAs (address : String) : Except Failure Coordinate → Prop
  | malformed (h : ¬ Spells .cell address.toList) :
      ReadsAs address (.error (.formula (.malformedAddress address)))
  | overlong (h : Spells .cell address.toList) (hCount : digitLimit < digitCount address.toList) :
      ReadsAs address (.error (.numeric (.tooManyDigits (digitCount address.toList))))
  | rowZero (h : NamesRowZero address.toList) (hCount : digitCount address.toList ≤ digitLimit) :
      ReadsAs address (.error (.formula (.rowZero address)))
  | coordinate {c : Coordinate} (h : Spells .cell address.toList)
      (hRow : ¬ NamesRowZero address.toList) (hCount : digitCount address.toList ≤ digitLimit) :
      ReadsAs address (.ok c)

theorem readsAs_ofAddress (address : String) : ReadsAs address (ofAddress address) := by
  rw [ofAddress]
  cases hSplit : splitAddress address.toList with
  | none =>
    apply ReadsAs.malformed
    rw [spells_cell_iff, hSplit]
    rintro ⟨parts, ⟨⟩⟩
  | some parts =>
    obtain ⟨letters, row⟩ := parts
    have hSpells := spells_cell_iff.mpr ⟨_, hSplit⟩
    have hZero := namesRowZero_iff hSplit
    obtain ⟨-, -, hLetters, hDigits, hText⟩ := splitAddress_eq_some_iff.mp hSplit
    have hCount : digitCount address.toList = row.length := by
      rw [hText, Decimal.digitCount_append_row hLetters hDigits]
    simp only [Decimal.read]
    by_cases hLimit : row.length ≤ digitLimit
    · rw [if_pos hLimit]
      rw [← hCount] at hLimit
      cases hRow : Decimal.ofDigits row with
      | zero => exact .rowZero (hZero.mpr hRow) hLimit
      | succ n =>
        refine .coordinate hSpells (fun hNone => ?_) hLimit
        rw [hZero, hRow] at hNone
        cases hNone
    · rw [if_neg hLimit, ← hCount]
      rw [← hCount, not_le] at hLimit
      exact .overlong hSpells hLimit

/-- What belongs to the class of cells is an address or names the row zero. -/
theorem spells_iff_of_digitCount_le (hCount : digitCount address.toList ≤ digitLimit) :
    Spells .cell address.toList ↔
      (∃ c, ofAddress address = .ok c) ∨ NamesRowZero address.toList := by
  constructor
  · intro hSpells
    have hEnding := readsAs_ofAddress address
    generalize ofAddress address = ending at hEnding
    cases hEnding with
    | malformed h => exact absurd hSpells h
    | overlong _ hLong => exact absurd hCount (not_le.mpr hLong)
    | rowZero h => exact .inr h
    | @coordinate c => exact .inl ⟨c, rfl⟩
  · rintro (⟨c, hRead⟩ | hZero)
    · exact spells_of_ofAddress hRead
    · exact hZero.spells

/-- A text of the class of cells is refused for the row zero, or not read for its many digits. -/
theorem ofAddress_eq_error_iff (h : Spells .cell address.toList) :
    ofAddress address = .error e ↔
      e = .formula (.rowZero address) ∧ NamesRowZero address.toList ∧
          digitCount address.toList ≤ digitLimit ∨
        e = .numeric (.tooManyDigits (digitCount address.toList)) ∧
          digitLimit < digitCount address.toList := by
  have hEnding := readsAs_ofAddress address
  generalize ofAddress address = ending at hEnding
  cases hEnding with
  | malformed hNot => exact absurd h hNot
  | overlong _ hCount => simp [eq_comm, hCount]
  | rowZero hZero hCount => simp [eq_comm, hZero, hCount]
  | coordinate _ hRow hCount => simp [hRow, hCount]

/-- The lexer and the reader of addresses agree on what an address is, but for the row zero: on all
texts, on the addresses that are written, and on those that stand in a formula. -/
theorem cell_tokens_are_addresses :
    (∀ text : String, digitCount text.toList ≤ digitLimit →
      (tokenize text = .ok [⟨.cell, text, 0⟩] ↔
        (∃ c, ofAddress text = .ok c) ∨ NamesRowZero text.toList)) ∧
    (∀ c : Coordinate, c.IsAddressable →
      ∃ address, c.toAddress = .ok address ∧ tokenize address = .ok [⟨.cell, address, 0⟩]) ∧
    ∀ (text : String) (f : Formula), Formula.parse text = .ok f → ∀ address ∈ f.addresses,
      ∀ e, ofAddress address = .error e ↔
        e = .formula (.rowZero address) ∧ NamesRowZero address.toList ∧
            digitCount address.toList ≤ digitLimit ∨
          e = .numeric (.tooManyDigits (digitCount address.toList)) ∧
            digitLimit < digitCount address.toList := by
  refine ⟨fun text hCount => ?_, fun c hc => ?_, fun text f hParse address hMem e => ?_⟩
  · rw [tokenize_eq_singleton, spells_iff_of_digitCount_le hCount]
  · exact ⟨c.address, hc.toAddress_eq, tokenize_eq_singleton.mpr (spells_address hc.isInGrid)⟩
  · exact ofAddress_eq_error_iff ((Formula.isSpelled_of_parse hParse).spells_of_mem_addresses hMem)

/-- Zeros may stand in front of a row but not in its place, and nothing may stand behind it. -/
theorem cell_tokens_are_addresses_zeros :
    tokenize "aB07" = .ok [⟨.cell, "aB07", 0⟩] ∧ tokenize "x00" = .ok [⟨.cell, "x00", 0⟩] ∧
    tokenize "A1 " ≠ .ok [⟨.cell, "A1 ", 0⟩] ∧
    (∃ address, toAddress ⟨0, 16383⟩ = .ok address ∧
      tokenize address = .ok [⟨.cell, address, 0⟩]) ∧
    ∃ f, Formula.parse "=SUM(A1:b00)" = .ok f ∧ "b00" ∈ f.addresses ∧
      ofAddress "b00" = .error (.formula (.rowZero "b00")) := by
  obtain ⟨hText, hWritten, hFormula⟩ := cell_tokens_are_addresses
  have hRead : ofAddress "aB07" = .ok ⟨6, 27⟩ := by rfl
  have hZero (letter : Char) (h : isLetter letter = true) : NamesRowZero [letter, '0', '0'] :=
    ⟨[letter], ['0', '0'], List.cons_ne_nil _ _, List.cons_ne_nil _ _,
      List.forall_mem_singleton.mpr h, by simp, rfl⟩
  have hOpen : ¬ ((∃ c, ofAddress "A1 " = .ok c) ∨ NamesRowZero "A1 ".toList) := by
    have hNone : ¬ Spells .cell "A1 ".toList := by
      rw [spells_cell_iff]
      rintro ⟨parts, ⟨⟩⟩
    rintro (⟨c, hOk⟩ | hRow)
    · exact hNone (spells_of_ofAddress hOk)
    · exact hNone hRow.spells
  have hParse : Formula.parse "=SUM(A1:b00)" = .ok (.call "SUM" [.range "A1" "b00"]) := by cbv
  have hMem : "b00" ∈ (Formula.call "SUM" [.range "A1" "b00"]).addresses := by decide
  refine ⟨?_, ?_, ?_, hWritten ⟨0, 16383⟩ ?_, _, hParse, hMem, ?_⟩
  · exact (hText "aB07" (by decide)).mpr (.inl ⟨_, hRead⟩)
  · exact (hText "x00" (by decide)).mpr (.inr (hZero 'x' rfl))
  · exact (hText "A1 " (by decide)).not.mpr hOpen
  · exact isAddressable_of_ofAddress (by rfl : ofAddress "XFD1" = .ok ⟨0, 16383⟩)
  · exact (hFormula _ _ hParse "b00" hMem _).mpr (.inl ⟨rfl, hZero 'b' rfl, by decide⟩)

end Coordinate
end Spreadsheet
