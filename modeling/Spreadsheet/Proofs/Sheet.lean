import Spreadsheet.Proofs.Address.Spelling
import Spreadsheet.Proofs.Number.FloatText
import Spreadsheet.Proofs.Settings
import Spreadsheet.Proofs.Yaml.Keys
import Spreadsheet.Sheet

/-!
# The checks of sheets

The document of a sheet file has to be a mapping, and so has what it says about the cells; what
counts as false is taken for an empty one in both places. A cell that is given by a mapping has to
have known keys only. Whatever text a key of another type has, it is no address, so no cell is lost
under the address of another one without a fault.
-/

set_option autoImplicit false

namespace Spreadsheet

open Lexer
open Key (AreOrdered)

/-! ## Keys as addresses -/

section Addresses

variable {k : Key} {address : String} {l : List Char}

theorem Lexer.Spells.ends_of_cell (h : Spells .cell l) :
    (∀ c ∈ l.head?, isLetter c = true) ∧ ∀ c ∈ l.getLast?, Decimal.isDigit c = true := by
  obtain ⟨letters, digits, hNonempty, hRow, hLetters, hDigits, rfl⟩ := h
  constructor
  · intro c hc
    rw [List.head?_append_of_ne_nil _ hNonempty] at hc
    exact hLetters c (List.mem_of_mem_head? hc)
  · intro c hc
    rw [List.getLast?_append_of_ne_nil _ hRow] at hc
    exact hDigits c (List.mem_of_getLast? hc)

theorem not_spells_cell {c : Char} (h : isLetter c = false) : ¬ Spells .cell (c :: l) := by
  intro hSpells
  rw [hSpells.ends_of_cell.1 c rfl] at h
  cases h

theorem not_spells_intText (n : Int) : ¬ Spells .cell (Decimal.intText n).toList := by
  rw [Decimal.intText, Decimal.natText]
  split_ifs
  · rw [String.toList_ofList]
    exact not_spells_cell rfl
  · obtain ⟨d, r, hDigits⟩ := List.exists_cons_of_ne_nil (Decimal.digits_ne_nil n.natAbs)
    have hDigit := Decimal.areDigits_digits n.natAbs d (hDigits ▸ List.mem_cons_self)
    rw [String.toList_ofList, hDigits]
    exact not_spells_cell (isLetter_of_isDigit hDigit)

theorem not_spells_floatText (x : Float) : ¬ Spells .cell (Decimal.floatText x).toList := by
  cases hDecode : Binary64.decode x with
  | nan =>
    rw [Decimal.floatText, hDecode]
    exact fun hSpells => absurd (hSpells.ends_of_cell.2 'n' rfl) (by decide)
  | infinite negative =>
    rw [Decimal.floatText, hDecode]
    intro hSpells
    cases negative <;> exact absurd (hSpells.ends_of_cell.2 'f' rfl) (by decide)
  | finite negative m e =>
    obtain ⟨l, hText, -⟩ := Decimal.exists_literal_floatText hDecode
    obtain ⟨d, r, hLiteral, hDigit⟩ := l.exists_text_eq_cons
    rw [hText, hLiteral]
    cases negative with
    | true => exact not_spells_cell rfl
    | false => exact not_spells_cell (isLetter_of_isDigit hDigit)

/-- No text of a key that is no text itself is an address. -/
theorem Key.eq_text_of_address {c : Coordinate} (hWrite : k.toValue.write = .ok address)
    (h : Coordinate.ofAddress address = .ok c) : k = .text address := by
  have hSpells := spells_of_ofAddress h
  rw [Value.write] at hWrite
  split_ifs at hWrite
  cases hWrite
  cases k with
  | text s => rfl
  | null => exact absurd (hSpells.ends_of_cell.2 'e' rfl) (by decide)
  | bool b => cases b <;> exact absurd (hSpells.ends_of_cell.2 'e' rfl) (by decide)
  | int n => exact absurd hSpells (not_spells_intText n)
  | float x => exact absurd hSpells (not_spells_floatText x)

end Addresses

/-! ## Cells -/

namespace Cell

variable {fields : List (Key × Value)} {raw : Value} {a b : Key}

def unknownKeys (fields : List (Key × Value)) : List Key := (fields.map (·.1)).filter (!isField ·)

theorem ofRaw_of_unknown (h : unknownKeys fields ≠ []) :
    ofRaw (.dict fields) = match Key.sort (unknownKeys fields) with
      | .ok keys => .error (if keys.all (·.isWritable) then .unknownKeys keys else .longKey)
      | .error (a, b) => .error (.unorderedKeys a b) := by
  unfold ofRaw
  dsimp only
  split
  · rename_i hNone
    exact absurd hNone h
  · rfl

theorem exists_error_of_unknown (h : unknownKeys fields ≠ []) :
    ∃ fault, ofRaw (.dict fields) = .error fault := by
  rw [ofRaw_of_unknown h]
  cases Key.sort (unknownKeys fields) with
  | ok keys => exact ⟨_, rfl⟩
  | error pair => exact ⟨_, rfl⟩

/-- Only unknown keys of one mapping are found to have no order. -/
theorem of_unorderedKeys (h : ofRaw raw = .error (.unorderedKeys a b)) :
    ∃ fields, raw = .dict fields ∧ a ∈ unknownKeys fields ∧ b ∈ unknownKeys fields ∧
      a.comparable b = false := by
  cases raw with
  | dict fields =>
    refine ⟨fields, rfl, ?_⟩
    by_cases hUnknown : unknownKeys fields = []
    · have hNone : (fields.map (·.1)).filter (!isField ·) = [] := hUnknown
      simp only [ofRaw, hNone, ofEntries] at h
      split at h <;> cases h
    · rw [ofRaw_of_unknown hUnknown] at h
      by_cases hOrdered : AreOrdered (unknownKeys fields)
      · obtain ⟨keys, hSort, -⟩ := Key.exists_sort hOrdered
        rw [hSort] at h
        simp only at h
        split_ifs at h <;> cases h
      · obtain ⟨a', ha, b', hb, hNone, hSort⟩ := Key.exists_sort_error hOrdered
        rw [hSort] at h
        cases h
        exact ⟨ha, hb, hNone⟩
  | text s =>
    rw [ofRaw] at h
    split_ifs at h
  | _ => cases h

end Cell

/-! ## Sheets -/

namespace Sheet

variable {path : Path} {document : Value} {entries : List (Key × Value)} {a address : String}
  {raw : Value} {cells pairs : List (String × Value)} {e : String × Value}

theorem of_mem_setRaw (h : e ∈ setRaw a raw cells) : e = (a, raw) ∨ e ∈ cells := by
  induction cells with
  | nil => exact .inl (List.mem_singleton.mp h)
  | cons e' cells ih =>
    obtain ⟨a', r'⟩ := e'
    rw [setRaw] at h
    split_ifs at h with hSame
    · rw [eq_of_beq hSame] at h
      exact (List.mem_cons.mp h).imp_right (List.mem_cons_of_mem _)
    · rcases List.mem_cons.mp h with rfl | h
      · exact .inr List.mem_cons_self
      · exact (ih h).imp_right (List.mem_cons_of_mem _)

theorem address_mem_setRaw (h : address = a ∨ address ∈ cells.map (·.1)) :
    address ∈ (setRaw a raw cells).map (·.1) := by
  induction cells with
  | nil => simpa [setRaw] using h
  | cons e' cells ih =>
    obtain ⟨a', r'⟩ := e'
    rw [setRaw]
    split_ifs with hSame
    · have hSame' := eq_of_beq hSame
      simpa [hSame'] using h
    · simp only [List.map_cons, List.mem_cons] at h ⊢
      tauto

theorem of_mem_foldl (h : e ∈ pairs.foldl (fun cells (a, raw) => setRaw a raw cells) cells) :
    e ∈ cells ∨ e ∈ pairs := by
  induction pairs generalizing cells with
  | nil => exact .inl h
  | cons pair pairs ih =>
    rcases ih h with h | h
    · exact (of_mem_setRaw h).symm.imp_right fun h => List.mem_cons.mpr (.inl h)
    · exact .inr (List.mem_cons_of_mem _ h)

theorem address_mem_foldl (h : address ∈ (cells ++ pairs).map (·.1)) :
    address ∈ (pairs.foldl (fun cells (a, raw) => setRaw a raw cells) cells).map (·.1) := by
  induction pairs generalizing cells with
  | nil => simpa using h
  | cons pair pairs ih =>
    apply ih
    rw [List.map_append, List.mem_append, List.map_cons, List.mem_cons] at h
    rw [List.map_append, List.mem_append]
    rcases h with h | h | h
    · exact .inl (address_mem_setRaw (.inr h))
    · exact .inl (address_mem_setRaw (.inl h))
    · exact .inr h

section MapM

variable {α β ε : Type} {f : α → Except ε β} {as : List α} {bs : List β} {fault : ε}

theorem map_of_mapM (h : as.mapM f = .ok bs) : as.map f = bs.map .ok := by
  induction as generalizing bs with
  | nil =>
    cases h
    rfl
  | cons a as ih =>
    rw [List.mapM_cons] at h
    cases hFirst : f a with
    | error fault =>
      rw [hFirst] at h
      cases h
    | ok b =>
      cases hRest : as.mapM f with
      | error fault =>
        rw [hFirst, hRest] at h
        cases h
      | ok bs' =>
        rw [hFirst, hRest] at h
        cases h
        rw [List.map_cons, List.map_cons, hFirst, ih hRest]

theorem exists_of_mapM_error (h : as.mapM f = .error fault) : ∃ a ∈ as, f a = .error fault := by
  induction as with
  | nil => cases h
  | cons a as ih =>
    rw [List.mapM_cons] at h
    cases hFirst : f a with
    | error fault' =>
      rw [hFirst] at h
      cases h
      exact ⟨a, List.mem_cons_self, hFirst⟩
    | ok b =>
      cases hRest : as.mapM f with
      | error fault' =>
        rw [hFirst, hRest] at h
        cases h
        obtain ⟨a', ha', hFault⟩ := ih hRest
        exact ⟨a', List.mem_cons_of_mem _ ha', hFault⟩
      | ok bs' =>
        rw [hFirst, hRest] at h
        cases h

end MapM

/-- An entry of the mapping of cells under the text of its key. -/
def addressed (entry : Key × Value) : Except SheetFault (String × Value) :=
  match entry.1.toValue.write with
  | .ok address => .ok (address, entry.2)
  | .error _ => .error .longAddress

theorem addressed_eq_ok {entry : Key × Value} :
    addressed entry = .ok e ↔ entry.1.toValue.write = .ok e.1 ∧ entry.2 = e.2 := by
  rw [addressed]
  cases entry.1.toValue.write <;> simp [Prod.ext_iff]

theorem rawCells_eq (entries : List (Key × Value)) :
    rawCells entries = entries.mapM addressed >>= fun pairs =>
      .ok (pairs.foldl (fun cells (a, raw) => setRaw a raw cells) []) := rfl

/-- The raw cells are those of the mapping, each under the text of its key. Each such text is kept,
but not what is said twice under it. -/
theorem of_rawCells (h : rawCells entries = .ok cells) :
    (∀ e ∈ cells, ∃ k, (k, e.2) ∈ entries ∧ k.toValue.write = .ok e.1) ∧
      ∀ k raw, (k, raw) ∈ entries → ∃ e ∈ cells, k.toValue.write = .ok e.1 := by
  rw [rawCells_eq] at h
  cases hPairs : entries.mapM addressed with
  | error fault =>
    rw [hPairs] at h
    cases h
  | ok pairs =>
    rw [hPairs] at h
    cases h
    have hAddressed := map_of_mapM hPairs
    constructor
    · intro e he
      have hPair := (of_mem_foldl he).resolve_left (List.not_mem_nil)
      have hMem : .ok e ∈ entries.map addressed := hAddressed ▸ List.mem_map_of_mem hPair
      obtain ⟨entry, hEntry, hFound⟩ := List.mem_map.mp hMem
      obtain ⟨hWrite, hRaw⟩ := addressed_eq_ok.mp hFound
      exact ⟨entry.1, hRaw ▸ hEntry, hWrite⟩
    · intro k raw hEntry
      have hMem : addressed (k, raw) ∈ pairs.map .ok := hAddressed ▸ List.mem_map_of_mem hEntry
      obtain ⟨pair, hPair, hFound⟩ := List.mem_map.mp hMem
      have hAddress : pair.1 ∈
          (pairs.foldl (fun cells (a, raw) => setRaw a raw cells) []).map (·.1) :=
        address_mem_foldl (List.mem_map_of_mem hPair)
      obtain ⟨e, he, hSame⟩ := List.mem_map.mp hAddress
      exact ⟨e, he, hSame ▸ (addressed_eq_ok.mp hFound.symm).1⟩

theorem longAddress_of_rawCells {fault : SheetFault} (h : rawCells entries = .error fault) :
    fault = .longAddress := by
  rw [rawCells_eq] at h
  cases hPairs : entries.mapM addressed with
  | error fault' =>
    rw [hPairs] at h
    cases h
    obtain ⟨entry, -, hFault⟩ := exists_of_mapM_error hPairs
    rw [addressed] at hFault
    split at hFault <;> cases hFault
    rfl
  | ok pairs =>
    rw [hPairs] at h
    cases h

end Sheet

namespace Grid

variable {g : Grid} {cells : List (String × Value)} {e : String × Value} {fault : GridFault}

theorem exists_error_of_mem (he : e ∈ cells)
    (h : ∀ c cell, Coordinate.ofAddress e.1 = .ok c → Cell.ofRaw e.2 ≠ .ok cell) :
    ∃ fault, g.addRaw cells = .error fault := by
  induction cells generalizing g with
  | nil => cases he
  | cons e' cells ih =>
    obtain ⟨a, raw⟩ := e'
    rw [addRaw]
    cases hAddress : Coordinate.ofAddress a with
    | error failure => exact ⟨_, rfl⟩
    | ok c =>
      cases hCell : Cell.ofRaw raw with
      | error fault => exact ⟨_, rfl⟩
      | ok cell =>
        rcases List.mem_cons.mp he with rfl | he
        · exact absurd hCell (h c cell hAddress)
        · exact ih he

theorem of_addRaw_error (h : g.addRaw cells = .error fault) :
    (∃ failure, fault = .address failure) ∨
      ∃ e ∈ cells, ∃ cellFault, Cell.ofRaw e.2 = .error cellFault ∧ fault = .cell cellFault := by
  induction cells generalizing g with
  | nil => cases h
  | cons e cells ih =>
    obtain ⟨a, raw⟩ := e
    rw [addRaw] at h
    cases hAddress : Coordinate.ofAddress a with
    | error failure =>
      rw [hAddress] at h
      cases h
      exact .inl ⟨failure, rfl⟩
    | ok c =>
      cases hCell : Cell.ofRaw raw with
      | error cellFault =>
        rw [hAddress] at h
        simp only [hCell] at h
        cases h
        exact .inr ⟨_, List.mem_cons_self, cellFault, hCell, rfl⟩
      | ok cell =>
        rw [hAddress] at h
        simp only [hCell] at h
        refine (ih h).imp_right ?_
        rintro ⟨e, he, hFault⟩
        exact ⟨e, List.mem_cons_of_mem _ he, hFault⟩

end Grid

namespace Sheet

variable {path : Path} {document : Value} {entries : List (Key × Value)} {fault : SheetFault}

/-- What a document says about the cells. -/
def cellsOf (document : Value) : Value := (lookupText "cells" document.entries).getD .null

/-- How reading the grid of a document ends. -/
structure Checks (path : Path) (document : Value) (ending : Except SheetFault Grid) : Prop where
  notMapping : document.isTruthy = true → ¬ document.IsMapping → ending = .error (.notMapping path)
  cellsNotMapping : (cellsOf document).isTruthy = true → ¬ (cellsOf document).IsMapping →
    ending = .error (.cellsNotMapping path)
  empty : document.isTruthy = false ∨ document.IsMapping → (cellsOf document).isTruthy = false →
    ending = .ok .empty
  /-- A mapping with an unknown key makes no cell. -/
  refused : ∀ k fields, (k, .dict fields) ∈ (cellsOf document).entries →
    Cell.unknownKeys fields ≠ [] → ∃ fault, ending = .error fault
  /-- The fault is explained to the user, or lies in unknown keys of one cell without an order. -/
  explained : ∀ fault, ending = .error fault → fault.isExplained = true ∨
    ∃ k fields, (k, .dict fields) ∈ (cellsOf document).entries ∧
      ∃ a ∈ Cell.unknownKeys fields, ∃ b ∈ Cell.unknownKeys fields, a.comparable b = false ∧
        fault = .grid (.cell (.unorderedKeys a b))

theorem gridOf_dict (path : Path) (entries : List (Key × Value)) :
    gridOf path (.dict entries) =
      if !(cellsOf (.dict entries)).isTruthy then .ok .empty
      else match cellsOf (.dict entries) with
        | .dict cells => rawCells cells >>= fun raw => (Grid.ofRaw raw).mapError .grid
        | _ => .error (.cellsNotMapping path) := by
  cases entries <;> rfl

theorem gridOf_of_not_isMapping (hTrue : document.isTruthy = true)
    (hMapping : ¬ document.IsMapping) : gridOf path document = .error (.notMapping path) := by
  unfold gridOf
  rw [hTrue]
  cases document with
  | dict es => exact absurd ⟨es, rfl⟩ hMapping
  | _ => rfl

theorem isMapping_of_cellsOf (h : (cellsOf document).isTruthy = true) : document.IsMapping := by
  refine (Value.entries_ne_nil.mp fun hNone => ?_).1
  rw [cellsOf, hNone] at h
  cases h

theorem gridOf_of_not_cells (hTrue : (cellsOf document).isTruthy = true)
    (hMapping : ¬ (cellsOf document).IsMapping) :
    gridOf path document = .error (.cellsNotMapping path) := by
  obtain ⟨es, rfl⟩ := isMapping_of_cellsOf hTrue
  rw [gridOf_dict, hTrue]
  generalize cellsOf (.dict es) = cells at hMapping
  cases cells with
  | dict cells => exact absurd ⟨cells, rfl⟩ hMapping
  | _ => rfl

theorem gridOf_of_no_cells (h : document.isTruthy = false ∨ document.IsMapping)
    (hCells : (cellsOf document).isTruthy = false) : gridOf path document = .ok .empty := by
  rcases h with h | ⟨es, rfl⟩
  · unfold gridOf
    rw [h]
    rfl
  · rw [gridOf_dict, hCells]
    rfl

theorem gridOf_of_cells (h : (cellsOf document).entries ≠ []) :
    gridOf path document =
      rawCells (cellsOf document).entries >>= fun raw => (Grid.ofRaw raw).mapError .grid := by
  obtain ⟨⟨cells, hCells⟩, hTrue⟩ := Value.entries_ne_nil.mp h
  obtain ⟨es, rfl⟩ := isMapping_of_cellsOf hTrue
  rw [gridOf_dict, hTrue, hCells]
  rfl

/-- In the mapping of the cells no two keys are the same. -/
theorem areDistinct_cellsOf (h : document.HasDistinctKeys) :
    Key.AreDistinct ((cellsOf document).entries.map (·.1)) := by
  rw [cellsOf, lookupText]
  cases hFound : document.entries.find? fun e => e.1.same (.text "cells") with
  | none => exact .nil
  | some e =>
    have he := List.mem_of_find?_eq_some hFound
    obtain ⟨⟨es, rfl⟩, -⟩ := Value.entries_ne_nil.mp (List.ne_nil_of_mem he)
    have hCells : e.2.HasDistinctKeys := h.of_mem he
    change Key.AreDistinct (e.2.entries.map (·.1))
    cases hValue : e.2 with
    | dict cells => exact (hValue ▸ hCells).keys
    | _ => exact .nil

theorem eq_of_text {s : String} {v w : Value} (h : Key.AreDistinct (entries.map (·.1)))
    (hv : (.text s, v) ∈ entries) (hw : (.text s, w) ∈ entries) : v = w := by
  have hTexts : entries.Pairwise fun e e' => ¬ (e.1 = .text s ∧ e'.1 = .text s) := by
    refine (List.pairwise_map.mp h).imp ?_
    rintro ⟨k, v⟩ ⟨k', v'⟩ hDistinct ⟨rfl, rfl⟩
    simp [Key.same] at hDistinct
  by_contra hNot
  have hSymmetric : Std.Symm fun e e' : Key × Value => ¬ (e.1 = .text s ∧ e'.1 = .text s) :=
    ⟨fun _ _ h h' => h h'.symm⟩
  exact hTexts.forall hv hw (fun hSame => hNot (congrArg Prod.snd hSame)) ⟨rfl, rfl⟩

theorem gridOf_refuses {k : Key} {fields : List (Key × Value)} (hKeys : document.HasDistinctKeys)
    (h : (k, .dict fields) ∈ (cellsOf document).entries) (hUnknown : Cell.unknownKeys fields ≠ []) :
    ∃ fault, gridOf path document = .error fault := by
  rw [gridOf_of_cells (List.ne_nil_of_mem h)]
  cases hRaw : rawCells (cellsOf document).entries with
  | error fault => exact ⟨fault, rfl⟩
  | ok cells =>
    obtain ⟨hFrom, hKept⟩ := of_rawCells hRaw
    obtain ⟨e, he, hWrite⟩ := hKept k _ h
    have hNone : ∀ c cell, Coordinate.ofAddress e.1 = .ok c → Cell.ofRaw e.2 ≠ .ok cell := by
      intro c cell hAddress hCell
      obtain ⟨k', hEntry, hWrite'⟩ := hFrom e he
      -- where the text is an address, only one entry has it
      obtain rfl := Key.eq_text_of_address hWrite hAddress
      obtain rfl := Key.eq_text_of_address hWrite' hAddress
      rw [eq_of_text (areDistinct_cellsOf hKeys) hEntry h] at hCell
      obtain ⟨fault, hFault⟩ := Cell.exists_error_of_unknown hUnknown
      cases hFault.symm.trans hCell
    obtain ⟨fault, hFault⟩ := Grid.exists_error_of_mem (g := .empty) he hNone
    refine ⟨.grid fault, ?_⟩
    change (Grid.ofRaw cells).mapError SheetFault.grid = _
    rw [Grid.ofRaw, hFault]
    rfl

/-- Where nothing is said about any cell, the fault lies in a value that is no mapping. -/
theorem gridOf_explains_values (hCells : (cellsOf document).entries = [])
    (h : gridOf path document = .error fault) : fault.isExplained = true := by
  by_cases hMapping : document.isTruthy = false ∨ document.IsMapping
  · cases hTrue : (cellsOf document).isTruthy with
    | false => cases (gridOf_of_no_cells hMapping hTrue).symm.trans h
    | true =>
      have hOther : ¬ (cellsOf document).IsMapping := fun hCells' =>
        Value.entries_ne_nil.mpr ⟨hCells', hTrue⟩ hCells
      cases (gridOf_of_not_cells hTrue hOther).symm.trans h
      rfl
  · obtain ⟨hTrue, hOther⟩ := not_or.mp hMapping
    cases (gridOf_of_not_isMapping (Bool.of_not_eq_false hTrue) hOther).symm.trans h
    rfl

theorem gridOf_explains (h : gridOf path document = .error fault) : fault.isExplained = true ∨
    ∃ k fields, (k, .dict fields) ∈ (cellsOf document).entries ∧
      ∃ a ∈ Cell.unknownKeys fields, ∃ b ∈ Cell.unknownKeys fields, a.comparable b = false ∧
        fault = .grid (.cell (.unorderedKeys a b)) := by
  by_cases hCells : (cellsOf document).entries = []
  · exact .inl (gridOf_explains_values hCells h)
  · rw [gridOf_of_cells hCells] at h
    cases hRaw : rawCells (cellsOf document).entries with
    | error fault' =>
      rw [hRaw] at h
      cases h
      rw [longAddress_of_rawCells hRaw]
      exact .inl rfl
    | ok cells =>
      rw [hRaw] at h
      change (Grid.ofRaw cells).mapError SheetFault.grid = _ at h
      cases hGrid : Grid.ofRaw cells with
      | ok g =>
        rw [hGrid] at h
        cases h
      | error gridFault =>
        rw [hGrid] at h
        cases h
        rcases Grid.of_addRaw_error hGrid with ⟨failure, rfl⟩ | ⟨e, he, cellFault, hCell, rfl⟩
        · exact .inl rfl
        · cases cellFault with
          | unorderedKeys a b =>
            obtain ⟨fields, hDict, ha, hb, hNone⟩ := Cell.of_unorderedKeys hCell
            obtain ⟨k, hEntry, -⟩ := (of_rawCells hRaw).1 e he
            exact .inr ⟨k, fields, hDict ▸ hEntry, a, ha, b, hb, hNone, rfl⟩
          | _ => exact .inl rfl

variable {reader : Yaml.Reader} {files : Files} {bytes : List UInt8}

theorem load_eq_gridOf (hBytes : files.read path = .ok bytes)
    (hRead : reader (Text.decodeUtf8 bytes) = .ok document) :
    load reader files path = gridOf path document := by
  rw [load, hBytes]
  change (reader (Text.decodeUtf8 bytes)).mapError SheetFault.document >>= gridOf path = _
  rw [hRead]
  rfl

theorem load_checks (hBytes : files.read path = .ok bytes)
    (hRead : reader (Text.decodeUtf8 bytes) = .ok document) (hKeys : document.HasDistinctKeys) :
    Checks path document (load reader files path) := by
  rw [load_eq_gridOf hBytes hRead]
  exact {
    notMapping := gridOf_of_not_isMapping
    cellsNotMapping := gridOf_of_not_cells
    empty := gridOf_of_no_cells
    refused := fun k fields => gridOf_refuses hKeys
    explained := fun fault => gridOf_explains }

end Sheet

/-- Settings and sheets are checked as `Settings.Settles` and `Sheet.Checks` say, whatever document
the reader gives. Settings end in a fault that is explained just where they count as true and are no
mapping or have unknown keys that can be put in order. The keys of a mapping are distinct. -/
theorem load_checks_documents (reader : Yaml.Reader) (files : Files) :
    (∀ (directory : Option Path) (document : Value),
      let place := directory.getD (Settings.workingPath files)
      Settings.readDocument reader files (place.child Settings.fileName) = .ok document →
      Settings.NamesLog document →
        Settings.Settles place document (Settings.load reader files directory) ∧
        ((∃ fault, Settings.load reader files directory = .error fault ∧
            fault.isExplained = true) ↔
          document.isTruthy = true ∧ ¬ document.IsMapping ∨
            Settings.unknownKeys document ≠ [] ∧ AreOrdered (Settings.unknownKeys document))) ∧
    ∀ (path : Path) (bytes : List UInt8) (document : Value), files.read path = .ok bytes →
      reader (Text.decodeUtf8 bytes) = .ok document → document.HasDistinctKeys →
        Sheet.Checks path document (Sheet.load reader files path) :=
  ⟨fun directory _ hRead hLog =>
    have hSettles := Settings.load_settles directory hRead hLog
    ⟨hSettles, hSettles.explained_iff⟩,
    fun _ _ _ hBytes hRead hKeys => Sheet.load_checks hBytes hRead hKeys⟩

/-- A working directory with one file. -/
def oneFile (name text : String) : Files where
  contents := [([name], Text.encodeUtf8 text)]

theorem readDocument_oneFile {text : String} {document : Value}
    (h : Yaml.read (Text.decodeUtf8 (Text.encodeUtf8 text)) = .ok document) :
    Settings.readDocument Yaml.read (oneFile "quicksheets.yaml" text) ⟨"/", ["quicksheets.yaml"]⟩ =
      .ok document := by
  have hExists : (oneFile "quicksheets.yaml" text).exists? ⟨"/", ["quicksheets.yaml"]⟩ =
      .ok true := by rfl
  have hBytes : (oneFile "quicksheets.yaml" text).read ⟨"/", ["quicksheets.yaml"]⟩ =
      .ok (Text.encodeUtf8 text) := by rfl
  simp [Settings.readDocument, hExists, hBytes, h, Except.mapError, bind, Except.bind]

theorem read_oneFile (text : String) :
    (oneFile "sheet.yaml" text).read (Path.ofText "sheet.yaml") = .ok (Text.encodeUtf8 text) := by
  rfl

/-- Two settings are set in a file, and a cell has a key that no cell has. -/
theorem load_checks_documents_block :
    (∃ s, Settings.load Yaml.read
      (oneFile "quicksheets.yaml" "memoize: no\nlog_dir: logs\n") none = .ok s ∧
      s.fields = [("log_dir", .text "/logs"), ("logging_fsync", .bool false),
        ("logging_tail_bytes", .int 2097152), ("max_range_cells", .int 100000),
        ("memoize", .bool false)]) ∧
    ∃ fault, Sheet.load Yaml.read (oneFile "sheet.yaml" "cells:\n  A1:\n    b: c\n")
      (Path.ofText "sheet.yaml") = .error fault := by
  constructor
  · have hDocument : Yaml.read (Text.decodeUtf8 (Text.encodeUtf8 "memoize: no\nlog_dir: logs\n")) =
        .ok (.dict [(.text "memoize", .bool false), (.text "log_dir", .text "logs")]) := by cbv
    obtain ⟨hSettles, -⟩ := (load_checks_documents Yaml.read
      (oneFile "quicksheets.yaml" "memoize: no\nlog_dir: logs\n")).1 none _
      (readDocument_oneFile hDocument) (by rintro _ ⟨⟩; exact .inr ⟨_, rfl⟩)
    obtain ⟨s, hLoad, hFields⟩ := hSettles.made (.inr ⟨⟨_, rfl⟩, by decide⟩)
    exact ⟨s, hLoad, hFields⟩
  · have hDocument : Yaml.read (Text.decodeUtf8 (Text.encodeUtf8 "cells:\n  A1:\n    b: c\n")) =
        .ok (.dict [(.text "cells", .dict [(.text "A1", .dict [(.text "b", .text "c")])])]) := by cbv
    have hChecks := (load_checks_documents Yaml.read
      (oneFile "sheet.yaml" "cells:\n  A1:\n    b: c\n")).2 (Path.ofText "sheet.yaml") _ _
      (read_oneFile _) hDocument (Yaml.hasDistinctKeys_read hDocument)
    exact hChecks.refused (.text "A1") [(.text "b", .text "c")] List.mem_cons_self (by decide)

/-- An empty list is taken for an empty document, and the null key has no order with a text, so
neither is explained to the user. -/
theorem load_unexplained :
    (∃ s, Settings.load Yaml.read (oneFile "quicksheets.yaml" "[]\n") none = .ok s) ∧
    (∃ a b, Settings.load Yaml.read (oneFile "quicksheets.yaml" "~: a\nb: c\n") none =
      .error (.unorderedKeys a b)) ∧
    Sheet.load Yaml.read (oneFile "sheet.yaml" "[]\n") (Path.ofText "sheet.yaml") = .ok .empty ∧
    ∃ a b, Sheet.load Yaml.read (oneFile "sheet.yaml" "cells:\n  A1:\n    ~: a\n    b: c\n")
      (Path.ofText "sheet.yaml") = .error (.grid (.cell (.unorderedKeys a b))) := by
  refine ⟨?_, ?_, ?_, ?_⟩
  · have hDocument : Yaml.read (Text.decodeUtf8 (Text.encodeUtf8 "[]\n")) = .ok (.list []) := by cbv
    have hSettles := Settings.load_settles none (readDocument_oneFile hDocument)
      (Settings.namesLog_of_none rfl)
    obtain ⟨s, hLoad, -⟩ := hSettles.made (.inl rfl)
    exact ⟨s, hLoad⟩
  · have hDocument : Yaml.read (Text.decodeUtf8 (Text.encodeUtf8 "~: a\nb: c\n")) =
        .ok (.dict [(.null, .text "a"), (.text "b", .text "c")]) := by cbv
    have hSettles := Settings.load_settles none (readDocument_oneFile hDocument)
      (Settings.namesLog_of_none rfl)
    obtain ⟨a, -, b, -, -, hFault⟩ := hSettles.unordered (by decide)
    exact ⟨a, b, hFault⟩
  · have hDocument : Yaml.read (Text.decodeUtf8 (Text.encodeUtf8 "[]\n")) = .ok (.list []) := by cbv
    have hChecks := Sheet.load_checks (read_oneFile _) hDocument
      (Yaml.hasDistinctKeys_read hDocument)
    exact hChecks.empty (.inl rfl) rfl
  · have hDocument : Yaml.read (Text.decodeUtf8 (Text.encodeUtf8
        "cells:\n  A1:\n    ~: a\n    b: c\n")) = .ok (.dict [(.text "cells",
          .dict [(.text "A1", .dict [(.null, .text "a"), (.text "b", .text "c")])])]) := by cbv
    rw [Sheet.load_eq_gridOf (read_oneFile _) hDocument]
    exact ⟨_, _, rfl⟩

end Spreadsheet
