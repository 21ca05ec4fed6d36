import Spreadsheet.Proofs.EventLog.Lines

/-!
# Emitting events

An event that is emitted to a log whose file can be written adds its line, its texts cut. An event
has a line whenever each value of its context has a text, which holds of all values but those with a
whole number that is too long or with keys that have no order.
-/

set_option autoImplicit false

namespace Spreadsheet

namespace Json

/-- A value that can be written on one line. -/
def HasText (v : Value) : Prop := ∀ d, ∃ cs, write .line d v = .ok cs

variable {v : Value}

theorem hasText_of_isPlain (h : v.IsPlain) : HasText v := by
  intro d
  obtain ⟨cs, hWrite, -⟩ := readsBack_of_isPlain h d
  exact ⟨cs, hWrite⟩

theorem hasText_float (x : Float) : HasText (.float x) := fun _ => ⟨_, rfl⟩

theorem hasText_dictionary {fields : List (String × Value)}
    (h : ∀ field ∈ fields, HasText field.2) : HasText (Event.dictionary fields) := by
  intro d
  have hEntries : ∀ entry ∈ (byName fields).map fun field =>
      (Key.text field.1, write .line (d + 1) field.2), ∃ cs, writeEntry entry = .ok cs := by
    intro entry hEntry
    obtain ⟨field, hField, rfl⟩ := List.mem_map.mp hEntry
    obtain ⟨cs, hWrite⟩ := h field ((perm_byName fields).mem_iff.mp hField) (d + 1)
    refine ⟨writeText field.1 ++ ':' :: ' ' :: cs, ?_⟩
    rw [hWrite]
    rfl
  obtain ⟨texts, hWrites⟩ := exists_mapM_ok_iff.mpr hEntries
  refine ⟨Style.line.enclose d '\x7b' '\x7d' texts, ?_⟩
  rw [Event.dictionary, write, arrange_writeValues]
  simp only [bind, Except.bind, hWrites]
  rfl

end Json

namespace EventLog

variable {log : EventLog} {files : Files} {e : Event} {bytes : List UInt8}

theorem exists_line_of_hasText (hVersion : Decimal.isWritable e.schemaVersion = true)
    (h : ∀ field ∈ e.context, Json.HasText field.2) : ∃ cs, line e = .ok cs := by
  have hFields : ∀ field ∈ e.fields, Json.HasText field.2 := by
    simp only [Event.fields, List.forall_mem_cons]
    exact ⟨Json.hasText_of_isPlain (.int hVersion), Json.hasText_of_isPlain (.text _),
      Json.hasText_of_isPlain (.text _), Json.hasText_of_isPlain (.text _),
      Json.hasText_dictionary h, Json.hasText_of_isPlain (.text _),
      Json.hasText_of_isPlain (Event.textValue?_isPlain _), List.forall_mem_nil _⟩
  obtain ⟨cs, hWrite⟩ := Json.hasText_dictionary hFields 0
  refine ⟨cs ++ ['\n'], ?_⟩
  rw [line, Event.toValue_eq, hWrite]
  rfl

/-- An event without a line adds nothing. -/
theorem emit_holds (h : files.Holds log.path bytes) (e : Event) :
    (emit (some log) files e).Holds log.path (bytes ++ lineBytes e.cut) := by
  cases hLine : line e.cut with
  | error fault =>
    simp only [emit, write, lineBytes, hLine]
    rwa [List.append_nil]
  | ok cs =>
    obtain ⟨files', hWrite, hHolds⟩ := write_holds hLine h
    simp only [emit, hWrite]
    exact hHolds

theorem emitAll_holds (h : files.Holds log.path bytes) (es : List Event) :
    (emitAll (some log) files es).Holds log.path
      (bytes ++ (es.map Event.cut).flatMap lineBytes) := by
  induction es generalizing files bytes with
  | nil => rwa [List.map_nil, List.flatMap_nil, List.append_nil]
  | cons e es ih =>
    rw [List.map_cons, List.flatMap_cons, ← List.append_assoc]
    exact ih (emit_holds h e)

end EventLog
end Spreadsheet
