import Spreadsheet.Proofs.KeyOrder
import Spreadsheet.Settings

/-!
# The checks of settings

The document of a settings file has to be a mapping with known keys. What counts as false is taken
for the empty document before anything is checked, be it a mapping or not. Unknown keys are listed
in order, so where some of them have no order the fault is another one than it should be.
-/

set_option autoImplicit false

namespace Spreadsheet

open Key (AreOrdered)

def Value.IsMapping (v : Value) : Prop := ∃ es, v = .dict es

/-- The entries of a mapping; what is no mapping has none. -/
def Value.entries : Value → List (Key × Value)
  | .dict es => es
  | _ => []

theorem Value.entries_of_not_isTruthy {v : Value} (h : v.isTruthy = false) : v.entries = [] := by
  cases v with
  | dict es =>
    rw [isTruthy, Bool.not_eq_false'] at h
    exact List.isEmpty_iff.mp h
  | _ => rfl

theorem Value.entries_ne_nil {v : Value} : v.entries ≠ [] ↔ v.IsMapping ∧ v.isTruthy = true := by
  constructor
  · intro h
    cases v with
    | dict es => exact ⟨⟨es, rfl⟩, by simpa [isTruthy, entries] using h⟩
    | _ => exact absurd rfl h
  · rintro ⟨⟨es, rfl⟩, h⟩
    simpa [isTruthy, entries] using h

namespace Settings

variable {path directory : Path} {document : Value} {entries : List (Key × Value)}
  {ending : Except SettingsFault Settings}

def unknownKeys (document : Value) : List Key := (document.entries.map (·.1)).filter (!isKnown ·)

/-- The directory of the event log is given by a text, or not at all. -/
def NamesLog (document : Value) : Prop :=
  ∀ v ∈ lookupText "log_dir" document.entries, v = .null ∨ ∃ log, v = .text log

theorem namesLog_of_none (h : lookupText "log_dir" document.entries = none) :
    NamesLog document := by
  intro v hv
  rw [h] at hv
  cases hv

/-- A setting as it is loaded from a directory: the one of the event log is seen from there. -/
def located (directory : Path) (name : String) (v : Value) : Value :=
  match name, v with
  | "log_dir", .text log => .text (directory.join (Path.ofText log)).text
  | _, v => v

/-- How loading the settings in a document ends. -/
structure Settles (directory : Path) (document : Value) (ending : Except SettingsFault Settings) :
    Prop where
  /-- From what counts as false and from mappings with known keys settings are made: the initial
  ones, with what the document sets in their place. -/
  made : document.isTruthy = false ∨ document.IsMapping ∧ unknownKeys document = [] →
    ∃ s, ending = .ok s ∧ s.fields = ({} : Settings).fields.map fun (name, v) =>
      (name, located directory name ((lookupText name document.entries).getD v))
  notMapping : document.isTruthy = true → ¬ document.IsMapping →
    ending = .error (.notMapping (directory.child fileName))
  unknown : unknownKeys document ≠ [] → AreOrdered (unknownKeys document) →
    ∃ keys fault, keys.Perm (unknownKeys document) ∧ ending = .error fault ∧
      (fault = .unknownKeys (directory.child fileName) keys ∨ fault = .longKey)
  unordered : ¬ AreOrdered (unknownKeys document) → ∃ a ∈ unknownKeys document,
    ∃ b ∈ unknownKeys document, a.comparable b = false ∧ ending = .error (.unorderedKeys a b)

/-- The fault is explained to the user unless the unknown keys have no order. -/
theorem Settles.explained_iff (h : Settles directory document ending) :
    (∃ fault, ending = .error fault ∧ fault.isExplained = true) ↔
      document.isTruthy = true ∧ ¬ document.IsMapping ∨
        unknownKeys document ≠ [] ∧ AreOrdered (unknownKeys document) := by
  constructor
  · rintro ⟨fault, hEnding, hExplained⟩
    by_cases hOrdered : AreOrdered (unknownKeys document)
    · by_contra hNot
      obtain ⟨hMapping, hKnown⟩ := not_or.mp hNot
      have hMade : document.isTruthy = false ∨ document.IsMapping ∧ unknownKeys document = [] := by
        by_cases hTrue : document.isTruthy = true
        · exact .inr ⟨not_not.mp fun h => hMapping ⟨hTrue, h⟩,
            not_not.mp fun h => hKnown ⟨h, hOrdered⟩⟩
        · exact .inl (Bool.eq_false_iff.mpr hTrue)
      obtain ⟨s, hOk, -⟩ := h.made hMade
      cases hOk.symm.trans hEnding
    · obtain ⟨a, -, b, -, -, hFault⟩ := h.unordered hOrdered
      cases hFault.symm.trans hEnding
      cases hExplained
  · rintro (⟨hTrue, hMapping⟩ | ⟨hUnknown, hOrdered⟩)
    · exact ⟨_, h.notMapping hTrue hMapping, rfl⟩
    · obtain ⟨keys, fault, -, hEnding, rfl | rfl⟩ := h.unknown hUnknown hOrdered
      · exact ⟨_, hEnding, rfl⟩
      · exact ⟨_, hEnding, rfl⟩

theorem ofDocument_of_known
    (h : document.isTruthy = false ∨ document.IsMapping ∧ unknownKeys document = []) :
    ofDocument path document = .ok (ofEntries document.entries) := by
  unfold ofDocument
  cases hTrue : document.isTruthy with
  | false =>
    rw [Value.entries_of_not_isTruthy hTrue]
    rfl
  | true =>
    obtain ⟨⟨es, rfl⟩, hKnown⟩ := h.resolve_left (by simp [hTrue])
    have hNone : (es.map (·.1)).filter (!isKnown ·) = [] := hKnown
    simp only [hNone]
    rfl

theorem ofDocument_of_not_isMapping (hTrue : document.isTruthy = true)
    (hMapping : ¬ document.IsMapping) : ofDocument path document = .error (.notMapping path) := by
  unfold ofDocument
  rw [hTrue]
  cases document with
  | dict es => exact absurd ⟨es, rfl⟩ hMapping
  | _ => rfl

theorem ofDocument_of_unknown (h : unknownKeys document ≠ []) :
    ofDocument path document = match Key.sort (unknownKeys document) with
      | .ok keys => .error (if keys.all (·.isWritable) then .unknownKeys path keys else .longKey)
      | .error (a, b) => .error (.unorderedKeys a b) := by
  have hEntries : document.entries ≠ [] := by
    intro hNone
    rw [unknownKeys, hNone] at h
    exact h rfl
  obtain ⟨⟨es, rfl⟩, hTrue⟩ := Value.entries_ne_nil.mp hEntries
  unfold ofDocument
  rw [hTrue]
  dsimp only
  split
  · cases ‹(!true) = true›
  · split
    · rename_i hNone
      exact absurd hNone h
    · rfl

theorem exists_placed (directory : Path)
    (h : ∀ v ∈ lookupText "log_dir" entries, v = .null ∨ ∃ log, v = .text log) :
    ∃ s, (ofEntries entries).placed directory = .ok s ∧
      s.fields = ({} : Settings).fields.map fun (name, v) =>
        (name, located directory name ((lookupText name entries).getD v)) := by
  cases hLog : lookupText "log_dir" entries with
  | none =>
    refine ⟨ofEntries entries, ?_, ?_⟩
    · simp [placed, ofEntries, hLog]
    · simp [fields, ofEntries, located, hLog]
  | some v =>
    obtain rfl | ⟨log, rfl⟩ := h v hLog
    · refine ⟨ofEntries entries, ?_, ?_⟩
      · simp [placed, ofEntries, hLog]
      · simp [fields, ofEntries, located, hLog]
    · refine ⟨{ ofEntries entries with
        logDirectory := .text (directory.join (Path.ofText log)).text }, ?_, ?_⟩
      · simp [placed, ofEntries, hLog]
      · simp [fields, ofEntries, located, hLog]

theorem load_settles {reader : Yaml.Reader} {files : Files} (directory : Option Path)
    (hRead : readDocument reader files ((directory.getD (workingPath files)).child fileName) =
      .ok document) (hLog : NamesLog document) :
    Settles (directory.getD (workingPath files)) document (load reader files directory) := by
  set place := directory.getD (workingPath files)
  have hLoad : load reader files directory =
      ofDocument (place.child fileName) document >>= fun s => s.placed place := by
    rw [load, hRead]
    rfl
  rw [hLoad]
  refine ⟨fun hKnown => ?_, fun hTrue hMapping => ?_, fun hUnknown hOrdered => ?_,
    fun hUnordered => ?_⟩
  · obtain ⟨s, hPlaced, hFields⟩ := exists_placed place hLog
    rw [ofDocument_of_known hKnown]
    exact ⟨s, hPlaced, hFields⟩
  · rw [ofDocument_of_not_isMapping hTrue hMapping]
    rfl
  · obtain ⟨keys, hSort, hPerm⟩ := Key.exists_sort hOrdered
    rw [ofDocument_of_unknown hUnknown, hSort]
    refine ⟨keys, _, hPerm, rfl, ?_⟩
    split_ifs
    · exact .inl rfl
    · exact .inr rfl
  · obtain ⟨a, ha, b, hb, hNone, hSort⟩ := Key.exists_sort_error hUnordered
    have hUnknown : unknownKeys document ≠ [] := List.ne_nil_of_mem ha
    rw [ofDocument_of_unknown hUnknown, hSort]
    exact ⟨a, ha, b, hb, hNone, rfl⟩

end Settings
end Spreadsheet
