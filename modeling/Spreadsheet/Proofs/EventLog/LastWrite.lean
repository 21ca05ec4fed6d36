import Spreadsheet.Proofs.EventLog.Foreign
import Spreadsheet.Proofs.Json.Double
import Spreadsheet.Proofs.Json.Torn
import Spreadsheet.Proofs.Text.Parts
import Spreadsheet.Proofs.Text.Strip

/-!
# What was written last

An event that was written is read first when the log ended in a line break before, whatever its
lines hold, unless one of them is too long a number. Where the log ended in the middle of a line, the
event is written behind it on the same line, which is no JSON then, and both are lost.
-/

set_option autoImplicit false

namespace Spreadsheet

open Text

variable {cs ds l body : List Char}

/-! ## Blanks at the ends -/

theorem Json.isSpace_of_not_isBlank {c : Char} (h : isBlank c = false) : Json.isSpace c = false := by
  rw [Bool.eq_false_iff]
  intro hSpace
  simp only [Json.isSpace, Bool.or_eq_true, beq_iff_eq] at hSpace
  rcases hSpace with ((rfl | rfl) | rfl) | rfl <;> cases h

/-- A dictionary is written from the first of its names on. -/
theorem Json.exists_of_write_dictionary {fields more : List (String × Value)} {name : String}
    {v : Value} {d : Nat} (hFields : byName fields = (name, v) :: more)
    (h : write .line d (Event.dictionary fields) = .ok cs) :
    ∃ r, cs = '\x7b' :: (writeText name ++ r) := by
  rw [Event.dictionary, write, arrange_writeValues, hFields, List.map_cons] at h
  cases hValue : write .line (d + 1) v with
  | error fault =>
    rw [hValue] at h
    cases h
  | ok text =>
    cases hMore : (more.map fun field => (Key.text field.1, write .line (d + 1) field.2)).mapM
        writeEntry with
    | error fault =>
      simp only [bind, Except.bind, List.mapM_cons, writeEntry, writeKey, hValue, hMore, pure,
        Except.pure] at h
      cases h
    | ok texts =>
      simp only [bind, Except.bind, List.mapM_cons, writeEntry, writeKey, hValue, hMore, pure,
        Except.pure] at h
      cases h
      rw [enclose_line _ _ (List.cons_ne_nil _ _)]
      cases texts with
      | nil => exact ⟨_, by rw [List.intercalate_singleton, List.append_assoc]⟩
      | cons next texts =>
        exact ⟨_, by rw [List.intercalate_cons_cons, List.append_assoc, List.append_assoc,
          List.append_assoc]⟩

namespace EventLog

variable {log : EventLog} {files files' : Files} {e : Event} {old : List UInt8} {query : Query}

/-! ## Lines in parts -/

/-- The lines of a text that are not blank, without the blanks at their ends. -/
def linesOf (cs : List Char) : List (List Char) :=
  ((splitLines cs).map strip).filter (!·.isEmpty)

theorem linesOf_append (hEnded : IsEnded cs) (hNext : ds.head? ≠ some '\n') :
    linesOf (cs ++ ds) = linesOf cs ++ linesOf ds := by
  rw [linesOf, splitLines_append hEnded hNext, List.map_append, List.filter_append]
  rfl

theorem linesOf_ended (h : HasNoBreak l) (hStrip : strip l ≠ []) :
    linesOf (l ++ ['\n']) = [strip l] := by
  rw [linesOf, splitLines_ended h, List.map_singleton,
    List.filter_cons_of_pos (by simpa using hStrip), List.filter_nil]

theorem linesOf_blank (h : HasNoBreak l) (hStrip : strip l = []) : linesOf l = [] := by
  by_cases hEmpty : l = []
  · subst hEmpty
    rfl
  · rw [linesOf, splitLines_of_hasNoBreak h hEmpty, List.map_singleton, hStrip]
    rfl

/-- The text of a log breaks off within a line that is not blank. -/
def IsTorn (bytes : List UInt8) : Prop := strip (openLine (decodeUtf8 bytes)) ≠ []

/-- The lines of a log that are ended. -/
def endedLines (bytes : List UInt8) : List (List Char) := linesOf (endedPart (decodeUtf8 bytes))

theorem entryLines_of_not_isTorn (h : ¬ IsTorn old) : entryLines old = endedLines old := by
  have hBlank := linesOf_blank (hasNoBreak_openLine (decodeUtf8 old)) (not_not.mp h)
  have hNext : (openLine (decodeUtf8 old)).head? ≠ some '\n' := by
    intro hFeed
    cases hasNoBreak_openLine (decodeUtf8 old) '\n' (List.mem_of_head? hFeed)
  have hAll := linesOf_append (isEnded_endedPart (decodeUtf8 old)) hNext
  rwa [endedPart_append_openLine, hBlank, List.append_nil] at hAll

/-! ## The line of the event -/

/-- The text of an event that was written. -/
structure IsLineOf (e : Event) (body : List Char) : Prop where
  written : Json.write .line 0 e.toValue = .ok body
  text : Json.IsTextOf body e.recorded
  bytes : lineBytes e = (body ++ ['\n']).map byteOf
  alone : Json.StandsAlone body

theorem readsBack_toValue (hContext : (Event.dictionary e.context).IsJson)
    (hVersion : Decimal.isWritable e.schemaVersion = true) : Json.ReadsBack e.toValue := by
  have hNames : ["schema_version", "ts", "level", "event_type", "context", "message",
      "error_code"].Nodup := by decide
  rw [Event.toValue_eq]
  refine Json.readsBack_dictionary hNames ?_
  simp only [Event.fields, List.forall_mem_cons]
  exact ⟨Json.readsBack_int hVersion, Json.readsBack_text _, Json.readsBack_text _,
    Json.readsBack_text _, Json.readsBack_of_isJson hContext, Json.readsBack_text _,
    Json.readsBack_of_isPlain (Event.textValue?_isPlain _), List.forall_mem_nil _⟩

/-- The text of an event starts with the first of its names. -/
theorem exists_of_write_toValue (h : Json.write .line 0 e.toValue = .ok body) :
    ∃ r, body = '\x7b' :: '"' :: 'c' :: r := by
  obtain ⟨r, rfl⟩ := Json.exists_of_write_dictionary (Event.byName_fields e) h
  exact ⟨_, rfl⟩

theorem exists_isLineOf (hContext : (Event.dictionary e.context).IsJson)
    (hWrite : log.write files e = .ok files') : ∃ body, IsLineOf e body := by
  cases hLine : line e with
  | error fault =>
    rw [write, hLine] at hWrite
    cases hWrite
  | ok cs =>
    obtain ⟨body, hText, hIsText⟩ := readsBack_toValue hContext (isWritable_of_line hLine) 0
    rw [Event.toValue_inKeyOrder] at hIsText
    have hBody : line e = .ok (body ++ ['\n']) := by rw [line, hText]; rfl
    refine ⟨body, hText, hIsText, ?_, ?_, fun fuel rest hPasses => ?_⟩
    · rw [lineBytes, hBody]
      exact encodeUtf8_eq_map (toNat_lt_of_mem_line hIsText.plain)
    · obtain ⟨r, hStart⟩ := exists_of_write_toValue hText
      exact ⟨'c', r, hStart, by decide, by decide⟩
    · have hWhole := hIsText.reads body.length [] (Nat.le_refl _) (by rintro c ⟨⟩)
      rw [List.append_nil] at hWhole
      exact hPasses.unique ⟨_, hWhole⟩

/-- Behind what a log held, the event ends the line that was open. -/
theorem IsLineOf.entryLines_append (h : IsLineOf e body) (old : List UInt8) :
    entryLines (old ++ lineBytes e) =
      endedLines old ++ [(openLine (decodeUtf8 old)).dropWhile Text.isBlank ++ body] := by
  obtain ⟨c, r, hStart, -⟩ := h.alone.opens
  have hNonempty : body ≠ [] := by
    rw [hStart]
    exact List.cons_ne_nil _ _
  have hText : decodeUtf8 (old ++ lineBytes e) = decodeUtf8 old ++ (body ++ ['\n']) := by
    have hLine := decodeUtf8_map_byteOf (toNat_lt_of_mem_line h.text.plain)
    rw [h.bytes]
    rw [hStart, List.cons_append, List.map_cons] at hLine ⊢
    rw [decodeUtf8_append _ _ (by decide), hLine]
  set before := decodeUtf8 old
  have hNoBreak : HasNoBreak (openLine before ++ body) :=
    (hasNoBreak_openLine before).append h.text.plain.hasNoBreak
  have hNext : (openLine before ++ body ++ ['\n']).head? ≠ some '\n' := by
    rw [List.head?_append_of_ne_nil _ (List.append_ne_nil_of_right_ne_nil _ hNonempty)]
    intro hFeed
    cases hNoBreak '\n' (List.mem_of_head? hFeed)
  have hStrip := strip_append h.text.isBlank_head h.text.isBlank_getLast hNonempty (openLine before)
  have hFilled : strip (openLine before ++ body) ≠ [] := by
    rw [hStrip]
    exact List.append_ne_nil_of_right_ne_nil _ hNonempty
  have hSplit : before ++ (body ++ ['\n']) =
      endedPart before ++ (openLine before ++ body ++ ['\n']) := by
    rw [List.append_assoc, ← List.append_assoc (endedPart before), endedPart_append_openLine]
  calc entryLines (old ++ lineBytes e)
    _ = linesOf (endedPart before ++ (openLine before ++ body ++ ['\n'])) := by
      rw [← hSplit, ← hText]
      rfl
    _ = endedLines old ++ [strip (openLine before ++ body)] := by
      rw [linesOf_append (isEnded_endedPart before) hNext, linesOf_ended hNoBreak hFilled]
      rfl
    _ = endedLines old ++ [(openLine before).dropWhile Text.isBlank ++ body] := by rw [hStrip]

/-! ## Reading -/

/-- How a reading of a log ends after an event was written behind what it held. -/
structure ReadsAfterWrite (query : Query) (old : List UInt8) (e : Event)
    (ending : Except ReadFault (List Value)) : Prop where
  /-- Where the last line was ended or blank, the event comes first, and what there was before comes
  behind it. -/
  first : ¬ IsTorn old → (∀ l ∈ entryLines old, ¬ IsOverlong l) →
    ending = .ok (e.recorded ::
      ((entryLines old).filterMap valueOn?).reverse.take ((min query.limit 2000).toNat - 1))
  /-- Where the log broke off within a line, the event is lost with that line. -/
  lost : IsTorn old → (∀ l ∈ entryLines (old ++ lineBytes e), ¬ IsOverlong l) → ending =
    .ok (((endedLines old).filterMap valueOn?).reverse.take (min query.limit 2000).toNat)
  /-- Too long a number on a line is a fault of the whole reading. -/
  overlong : (∃ l ∈ entryLines (old ++ lineBytes e), IsOverlong l) →
    ∃ fault, ending = .error (.numeric fault)

theorem readsAfterWrite_of_readsLines {ending : Except ReadFault (List Value)}
    (hBody : IsLineOf e body) (hFilters : query.filters = false) (hLimit : 1 ≤ query.limit)
    (h : ReadsLines query (entryLines (old ++ lineBytes e)) ending) :
    ReadsAfterWrite query old e ending where
  first := by
    intro hWhole hReadable
    have hBlank : (openLine (decodeUtf8 old)).dropWhile Text.isBlank = [] :=
      (strip_eq_nil.mp (not_not.mp hWhole)).dropWhile
    have hLines : entryLines (old ++ lineBytes e) = entryLines old ++ [body] := by
      rw [hBody.entryLines_append, hBlank, List.nil_append, entryLines_of_not_isTorn hWhole]
    have hRead := Json.read_of_isTextOf hBody.text
    rw [hLines] at h
    have hAll : ∀ l ∈ entryLines old ++ [body], ¬ IsOverlong l :=
      List.forall_mem_append.mpr ⟨hReadable, List.forall_mem_singleton.mpr (not_isOverlong hRead)⟩
    obtain ⟨n, hCount⟩ : ∃ n, (min query.limit 2000).toNat = n + 1 :=
      Nat.exists_eq_succ_of_ne_zero (by omega)
    rw [h.unfiltered hAll hFilters, List.filterMap_append,
      List.filterMap_cons_some (valueOn?_of_read hRead), List.filterMap_nil, List.reverse_append,
      List.reverse_singleton, List.singleton_append, hCount, List.take_succ_cons,
      Nat.add_sub_cancel]
  lost := by
    intro hTorn hReadable
    set begun := (openLine (decodeUtf8 old)).dropWhile Text.isBlank with hBegun
    have hNonempty : begun ≠ [] := fun hBlank =>
      hTorn (strip_eq_nil.mpr (List.dropWhile_eq_nil_iff.mp hBlank))
    have hSpace : ∀ c ∈ begun.head?, Json.isSpace c = false := by
      intro c hc
      have hFirst := List.head?_dropWhile_not Text.isBlank (openLine (decodeUtf8 old))
      rw [← hBegun, Option.mem_def.mp hc] at hFirst
      exact Json.isSpace_of_not_isBlank hFirst
    have hNone : valueOn? (begun ++ body) = none := by
      rw [valueOn?]
      cases hRead : Json.read (begun ++ body) with
      | error fault => rfl
      | ok v => exact absurd hRead (hBody.alone.read_ne_ok hSpace hNonempty v)
    rw [h.unfiltered hReadable hFilters, hBody.entryLines_append, List.filterMap_append,
      List.filterMap_cons_none hNone, List.filterMap_nil, List.append_nil]
  overlong := by
    intro hLong
    obtain ⟨fault, -, hEnding⟩ := h.overlong hLong
    exact ⟨fault, hEnding⟩

theorem holds_of_write (hFile : files.Holds log.path old) (hWrite : log.write files e = .ok files') :
    files'.Holds log.path (old ++ lineBytes e) := by
  cases hLine : line e with
  | error fault =>
    rw [write, hLine] at hWrite
    cases hWrite
  | ok cs =>
    obtain ⟨files'', hWrite', hHolds⟩ := write_holds hLine hFile
    cases hWrite.symm.trans hWrite'
    exact hHolds

/-- Where the tail reaches, the lines of a log after an event was written are read. -/
theorem readsLines_of_write (hFile : files.Holds log.path old)
    (hWrite : log.write files e = .ok files')
    (hTail : (old ++ lineBytes e).length ≤ log.tailBytes) (hLimit : 0 ≤ query.limit) :
    ReadsLines query (entryLines (old ++ lineBytes e)) (log.read files' query) := by
  have hSelect := readsLines_select hLimit (old ++ lineBytes e)
  rwa [read_eq_select (holds_of_write hFile hWrite), tail, if_pos hTail]

/-- What is read of a log without a filter right after an event was written, as far as the tail
reaches: the event first, if the last line was ended before and no line holds too long a number. If
the log broke off within a line the event is lost. -/
theorem read_after_write (hFile : files.Holds log.path old)
    (hContext : (Event.dictionary e.context).IsJson) (hWrite : log.write files e = .ok files')
    (hTail : (old ++ lineBytes e).length ≤ log.tailBytes) (hFilters : query.filters = false)
    (hLimit : 1 ≤ query.limit) : ReadsAfterWrite query old e (log.read files' query) := by
  obtain ⟨body, hBody⟩ := exists_isLineOf hContext hWrite
  exact readsAfterWrite_of_readsLines hBody hFilters hLimit
    (readsLines_of_write hFile hWrite hTail (Int.le_trans (by decide) hLimit))

/-! ## Behind a line that breaks off -/

/-- An event with a double in its context. -/
def ratioEvent : Event where
  time := "2024-05-01T12:00:02.000000Z"
  level := .info
  type := .formulaEvaluated
  context := [("result", .float 0.1)]

/-- A log that is read whole after an event was written behind some bytes. -/
def wholeLog (old : List UInt8) (e : Event) : EventLog :=
  ⟨⟨"/", ["log"]⟩, (old ++ lineBytes e).length⟩

theorem ratioEvent_isJson : (Event.dictionary ratioEvent.context).IsJson :=
  .dictionary (by decide) (List.forall_mem_singleton.mpr (.float 0.1))

theorem exists_write_ratioEvent (old : List UInt8) :
    ∃ files', (wholeLog old ratioEvent).write (sampleFiles old) ratioEvent = .ok files' := by
  obtain ⟨body, hText, -⟩ := readsBack_toValue ratioEvent_isJson (by decide) 0
  have hLine : line ratioEvent = .ok (body ++ ['\n']) := by
    rw [line, hText]
    rfl
  have hFile : (sampleFiles old).Holds (wholeLog old ratioEvent).path old := sampleFiles_holds old
  obtain ⟨files', hWrite, -⟩ := write_holds hLine hFile
  exact ⟨files', hWrite⟩

theorem arePlain_tornLine : ArePlain tornLine := by decide

theorem not_isOverlong_of_malformed (h : Json.read l = .error .malformed) : ¬ IsOverlong l := by
  rintro ⟨fault, hFault⟩
  cases h.symm.trans hFault

theorem valueOn?_of_malformed (h : Json.read l = .error .malformed) : valueOn? l = none := by
  rw [valueOn?, h, Except.toOption]

/-- Behind a line that broke off but was ended, an event is read back, with its double. -/
theorem read_after_write_ended : ∃ files',
    (wholeLog (bytesOf [tornLine]) ratioEvent).write (sampleFiles (bytesOf [tornLine])) ratioEvent =
      .ok files' ∧
    (wholeLog (bytesOf [tornLine]) ratioEvent).read files' {} = .ok [ratioEvent.recorded] := by
  obtain ⟨files', hWrite⟩ := exists_write_ratioEvent (bytesOf [tornLine])
  have hRead : ReadsAfterWrite {} (bytesOf [tornLine]) ratioEvent
      ((wholeLog (bytesOf [tornLine]) ratioEvent).read files' {}) :=
    read_after_write (sampleFiles_holds (bytesOf [tornLine])) ratioEvent_isJson hWrite
      (Nat.le_refl _) rfl (by decide)
  have hText : decodeUtf8 (bytesOf [tornLine]) = tornLine ++ ['\n'] :=
    decodeUtf8_map_byteOf (toNat_lt_of_mem_line arePlain_tornLine)
  have hEnded : ¬ IsTorn (bytesOf [tornLine]) := by
    rw [IsTorn, hText]
    exact not_not.mpr (by rfl)
  have hLines : entryLines (bytesOf [tornLine]) = [tornLine] := by
    rw [entryLines, hText]
    rfl
  have hFirst := hRead.first hEnded
  rw [hLines, List.filterMap_cons_none (valueOn?_of_malformed read_tornLine)] at hFirst
  refine ⟨files', hWrite, hFirst ?_⟩
  exact List.forall_mem_singleton.mpr (not_isOverlong_of_malformed read_tornLine)

/-- Behind a line that broke off, an event is written but is not read. -/
theorem written_behind_torn_line_is_lost : ∃ files',
    (wholeLog (tornLine.map byteOf) ratioEvent).write (sampleFiles (tornLine.map byteOf))
      ratioEvent = .ok files' ∧
    (wholeLog (tornLine.map byteOf) ratioEvent).read files' {} = .ok [] := by
  set old := tornLine.map byteOf with hOld
  obtain ⟨files', hWrite⟩ := exists_write_ratioEvent old
  obtain ⟨body, hBody⟩ := exists_isLineOf ratioEvent_isJson hWrite
  have hRead : ReadsLines {} (entryLines (old ++ lineBytes ratioEvent))
      ((wholeLog old ratioEvent).read files' {}) :=
    readsLines_of_write (sampleFiles_holds old) hWrite (Nat.le_refl _) (by decide)
  have hLines : entryLines (old ++ lineBytes ratioEvent) = [tornLine ++ body] := by
    have hText : decodeUtf8 old = tornLine := decodeUtf8_map_byteOf fun c hc =>
      toNat_lt_of_mem_line arePlain_tornLine c (List.mem_append_left _ hc)
    rw [hBody.entryLines_append, endedLines, hText]
    rfl
  have hGlued : Json.read (tornLine ++ body) = .error .malformed := by
    obtain ⟨r, rfl⟩ := exists_of_write_toValue hBody.written
    rfl
  rw [hLines] at hRead
  refine ⟨files', hWrite, (hRead.unfiltered ?_ rfl).trans ?_⟩
  · exact List.forall_mem_singleton.mpr (not_isOverlong_of_malformed hGlued)
  · rw [List.filterMap_cons_none (valueOn?_of_malformed hGlued)]
    rfl

end EventLog
end Spreadsheet
