import Spreadsheet.Proofs.EventLog.Lines
import Spreadsheet.Proofs.EventLog.Tail

/-!
# Reading a log back

A log that started empty holds the lines of the events written to it. What is read of it are the
last of these events, as many as lie in the tail of the file, the newest first.
-/

set_option autoImplicit false

namespace Spreadsheet.EventLog

variable {log : EventLog} {files files' : Files} {e : Event} {es : List Event}

/-! ## What was written -/

/-- Only an event whose version can be written has a line. -/
theorem isWritable_of_line {cs : List Char} (h : line e = .ok cs) :
    Decimal.isWritable e.schemaVersion = true := by
  cases hWrite : Json.write .line 0 e.toValue with
  | error fault =>
    rw [line, hWrite] at h
    cases h
  | ok text =>
    rw [Event.toValue_eq, Event.dictionary, Json.write, Json.arrange_writeValues] at hWrite
    simp only [bind, Except.bind] at hWrite
    split at hWrite
    · cases hWrite
    · rename_i texts hTexts
      have hMem : ("schema_version", Value.int e.schemaVersion) ∈ byName e.fields :=
        (perm_byName e.fields).mem_iff.mpr List.mem_cons_self
      obtain ⟨entry, hEntry⟩ := Json.exists_mapM_ok_iff.mp ⟨_, hTexts⟩ _
        (List.mem_map_of_mem hMem)
      by_contra hLong
      have hInt : Json.write .line (0 + 1) (.int e.schemaVersion) = .error .tooLong := by
        rw [Json.write, Json.writeInt, if_neg hLong]
      rw [Json.writeEntry, hInt] at hEntry
      cases hEntry

theorem line_of_foldlM_write (h : es.foldlM log.write files = .ok files') :
    ∀ e ∈ es, ∃ cs, line e = .ok cs := by
  induction es generalizing files with
  | nil => exact List.forall_mem_nil _
  | cons e es ih =>
    rw [List.foldlM_cons] at h
    cases hLine : line e with
    | error fault =>
      rw [write, hLine] at h
      cases h
    | ok cs =>
      cases hWrite : log.write files e with
      | error fault =>
        rw [hWrite] at h
        cases h
      | ok files'' =>
        rw [hWrite] at h
        exact List.forall_mem_cons.mpr ⟨⟨cs, hLine⟩, ih h⟩

/-! ## What is asked for -/

/-- Whether a text passes a filter; one that asks for nothing, or for the empty text, lets all
texts pass. -/
def passes (asked : Option String) (name : String) : Bool :=
  asked.all fun s => s == "" || name == s

def Query.asksFor (query : Query) (e : Event) : Bool :=
  passes query.level e.level.name && passes query.type e.type.name

theorem filterM_map_ok {α β ε : Type} {g : α → β} {f : β → Except ε Bool} {p : α → Bool}
    {as : List α} (h : ∀ a ∈ as, f (g a) = .ok (p a)) :
    (as.map g).filterM f = .ok ((as.filter p).map g) := by
  -- What is kept is collected in reverse.
  have hLoop : ∀ kept, List.filterAuxM f (as.map g) kept =
      .ok (((as.filter p).map g).reverse ++ kept) := by
    induction as with
    | nil => exact fun kept => rfl
    | cons a as ih =>
      intro kept
      obtain ⟨hFirst, hRest⟩ := List.forall_mem_cons.mp h
      rw [List.map_cons, List.filterAuxM, hFirst]
      cases hp : p a with
      | true =>
        rw [List.filter_cons_of_pos hp, List.map_cons, List.reverse_cons, List.append_assoc]
        exact ih hRest (g a :: kept)
      | false =>
        rw [List.filter_cons_of_neg (by simp [hp])]
        exact ih hRest kept
  rw [List.filterM, hLoop, List.append_nil]
  exact congrArg Except.ok (List.reverse_reverse _)

theorem having_recorded {name : String} {nameOf : Event → String}
    (hField : ∀ e : Event, field name e.recorded = .ok (some (.text (nameOf e))))
    (asked : Option String) (es : List Event) :
    having name asked (es.map Event.recorded) =
      .ok ((es.filter fun e => passes asked (nameOf e)).map Event.recorded) := by
  unfold having
  split
  · have hAll : ∀ e, passes none (nameOf e) = true := fun _ => rfl
    rw [List.filter_eq_self.mpr fun e _ => hAll e]
  · have hAll : ∀ e, passes (some "") (nameOf e) = true := fun _ => rfl
    rw [List.filter_eq_self.mpr fun e _ => hAll e]
  · rename_i text hText
    refine filterM_map_ok fun e _ => ?_
    have hNonempty : (text == "") = false := beq_eq_false_iff_ne.mpr fun h => hText (h ▸ rfl)
    rw [hField]
    simp only [bind, Except.bind, pure, Except.pure, passes, Option.all_some, hNonempty,
      Bool.false_or]

theorem takeSigned_of_nonneg {α : Type} {n : Int} (h : 0 ≤ n) (as : List α) :
    takeSigned n as = as.take n.toNat := by
  rw [takeSigned, if_pos h]

theorem valuesOf_eq_ok {lines : List (List Char)} {vs : List Value}
    (h : List.Forall₂ Json.IsTextOf lines vs) : valuesOf lines = .ok vs := by
  induction h with
  | nil => rfl
  | cons hText _ ih =>
    rw [valuesOf, Json.read_of_isTextOf hText]
    simp only [ih]
    rfl

theorem select_flatMap (query : Query) (h : ∀ e ∈ es, e.IsPlain) (hLimit : 0 ≤ query.limit) :
    select query (es.flatMap lineBytes) =
      .ok (((es.filter query.asksFor).reverse.take (min query.limit greatestLimit).toNat).map
        Event.recorded) := by
  have hLevel : ∀ e : Event, field "level" e.recorded = .ok (some (.text e.level.name)) :=
    fun _ => rfl
  have hType : ∀ e : Event, field "event_type" e.recorded = .ok (some (.text e.type.name)) :=
    fun _ => rfl
  have hValues := valuesOf_eq_ok (entryLines_isTextOf h)
  have hNonneg : 0 ≤ min query.limit greatestLimit := le_min hLimit (by decide)
  rw [select, hValues]
  simp only [bind, Except.bind, having_recorded hLevel, having_recorded hType, pure, Except.pure]
  rw [List.filter_filter, takeSigned_of_nonneg hNonneg, ← List.map_reverse, ← List.map_take]
  have hBoth : query.asksFor =
      fun e => passes query.type e.type.name && passes query.level e.level.name :=
    funext fun e => Bool.and_comm _ _
  rw [hBoth]

/-! ## Reading back -/

theorem isLine_lineBytes (h : e.IsPlain) : IsLine (lineBytes e) := by
  obtain ⟨body, hText, hBytes⟩ := exists_lineBytes h
  refine ⟨body.map Text.byteOf, ?_, ?_⟩
  · rw [hBytes, List.map_append]
    rfl
  · intro hMem
    obtain ⟨c, hc, hByte⟩ := List.mem_map.mp hMem
    obtain ⟨hLow, hHigh⟩ := hText.plain c hc
    have hValue := Text.toNat_byteOf (Nat.lt_of_le_of_lt hHigh (by decide))
    rw [hByte] at hValue
    have hTen : (0x0a : UInt8).toNat = 10 := rfl
    omega

/-- The events of a log that are kept when its tail is read: the most events at the end whose lines
lie in the tail of the file. -/
structure Keeps (log : EventLog) (es kept : List Event) : Prop where
  suffix : kept <:+ es
  inTail : LieInTail log.tailBytes (es.flatMap lineBytes) (kept.flatMap lineBytes)
  most : ∀ others, others <:+ es →
    LieInTail log.tailBytes (es.flatMap lineBytes) (others.flatMap lineBytes) → others <:+ kept

theorem read_of_holds (hFile : files.Holds log.path (es.flatMap lineBytes))
    (hEvents : ∀ e ∈ es, e.IsPlain) :
    ∃ kept, log.Keeps es kept ∧ ∀ query : Query, 0 ≤ query.limit → log.read files query =
      .ok (((kept.filter query.asksFor).reverse.take (min query.limit 2000).toNat).map
        Event.recorded) := by
  obtain ⟨kept, hSuffix, hTail, hIn, hMost⟩ :=
    tail_flatMap (fun e he => isLine_lineBytes (hEvents e he)) log.tailBytes
  refine ⟨kept, ⟨hSuffix, hIn, hMost⟩, fun query hLimit => ?_⟩
  rw [read, bytes_of_holds hFile]
  simp only [Except.mapError, bind, Except.bind, hTail]
  exact select_flatMap query (fun e he => hEvents e (hSuffix.subset he)) hLimit

/-- Events that are written to an empty log are read back, the newest first: of the events whose
lines lie in the tail of the file those that are asked for, up to the limit. Nothing else is read,
and each event comes back as it was written. An event is written whenever its version can be. -/
theorem read_written (hLog : files.Holds log.path [])
    (hContexts : ∀ e ∈ es, (Event.dictionary e.context).IsPlain) :
    ((∀ e ∈ es, Decimal.isWritable e.schemaVersion = true) →
      ∃ files', es.foldlM log.write files = .ok files') ∧
    ∀ files', es.foldlM log.write files = .ok files' →
      ∃ kept, log.Keeps es kept ∧ ∀ query : Query, 0 ≤ query.limit → log.read files' query =
        .ok (((kept.filter query.asksFor).reverse.take (min query.limit 2000).toNat).map
          Event.recorded) := by
  have hPlain (hVersions : ∀ e ∈ es, Decimal.isWritable e.schemaVersion = true) :
      ∀ e ∈ es, e.IsPlain := fun e he => ⟨hContexts e he, hVersions e he⟩
  have hWrites (hVersions : ∀ e ∈ es, Decimal.isWritable e.schemaVersion = true) :
      ∃ files', es.foldlM log.write files = .ok files' ∧
        files'.Holds log.path (es.flatMap lineBytes) := by
    have hLines : ∀ e ∈ es, ∃ cs, line e = .ok cs := fun e he =>
      have ⟨_, hLine, _⟩ := exists_line (hPlain hVersions e he)
      ⟨_, hLine⟩
    exact foldlM_write_holds hLines hLog
  refine ⟨fun hVersions => ?_, fun files' hWritten => ?_⟩
  · obtain ⟨files', hWrite, -⟩ := hWrites hVersions
    exact ⟨files', hWrite⟩
  · have hVersions : ∀ e ∈ es, Decimal.isWritable e.schemaVersion = true := by
      intro e he
      obtain ⟨cs, hLine⟩ := line_of_foldlM_write hWritten e he
      exact isWritable_of_line hLine
    obtain ⟨files'', hWrite, hFile⟩ := hWrites hVersions
    cases hWritten.symm.trans hWrite
    exact read_of_holds hFile (hPlain hVersions)

/-- An event whose texts hold quotes, breaks and separators. -/
def brokenEvent : Event where
  time := "2024-05-01T12:00:00.000000Z"
  level := .warning
  type := .cellError
  context := [("formula", .text "=\"a\nb\\\"\u2028"), ("address", .text "A1")]
  message := "one\r\ntwo\u0085\u001cthree"

/-- An event with a list and a dictionary in its context. -/
def nestedEvent : Event where
  time := "2024-05-01T12:00:01.000000Z"
  level := .info
  type := .sheetEvaluated
  context := [("result", .list [.int (-3), .null, .bool true]),
    ("extra", Event.dictionary [("b", .int 0), ("a", .text "\u001f")])]
  errorCode := some ""

/-- A file that is just as long as the tail is read whole. -/
theorem read_written_whole : ∃ (log : EventLog) (files files' : Files),
    files.Holds log.path [] ∧
    [brokenEvent, nestedEvent].foldlM log.write files = .ok files' ∧
    log.read files' {} = .ok [nestedEvent.recorded, brokenEvent.recorded] ∧
    log.read files' { level := some "warning", limit := 1 } = .ok [brokenEvent.recorded] := by
  let es := [brokenEvent, nestedEvent]
  let log : EventLog := ⟨⟨"/", ["log"]⟩, (es.flatMap lineBytes).length⟩
  let files : Files := { directories := [["log"]] }
  have hPath : log.path = ⟨"/", ["log", "events.ndjson"]⟩ := rfl
  have hLog : files.Holds log.path [] := by
    rw [hPath]
    exact ⟨["log", "events.ndjson"], by rfl, by decide, rfl⟩
  have hContexts : ∀ e ∈ es, (Event.dictionary e.context).IsPlain := by
    simp only [es, List.forall_mem_cons]
    refine ⟨.dictionary (by decide) ?_, .dictionary (by decide) ?_, List.forall_mem_nil _⟩
    · simp only [brokenEvent, List.forall_mem_cons]
      exact ⟨.text _, .text _, List.forall_mem_nil _⟩
    · simp only [nestedEvent, List.forall_mem_cons]
      refine ⟨.list ?_, .dictionary (by decide) ?_, List.forall_mem_nil _⟩
      · simp only [List.forall_mem_cons]
        exact ⟨.int (by decide), .null, .bool true, List.forall_mem_nil _⟩
      · simp only [List.forall_mem_cons]
        exact ⟨.int (by decide), .text _, List.forall_mem_nil _⟩
  obtain ⟨hWritten, hRead⟩ := read_written hLog hContexts
  have hVersions : ∀ e ∈ es, Decimal.isWritable e.schemaVersion = true := by
    simp only [es, List.forall_mem_cons]
    exact ⟨by decide, by decide, List.forall_mem_nil _⟩
  obtain ⟨files', hFiles⟩ := hWritten hVersions
  obtain ⟨kept, hKeeps, hSelected⟩ := hRead files' hFiles
  have hSuffix := hKeeps.most es (List.suffix_refl es) (.inl (Nat.le_refl _))
  have hAll : kept = es := hKeeps.suffix.eq_of_length_le hSuffix.length_le
  subst hAll
  exact ⟨log, files, files', hLog, hFiles, hSelected {} (by decide),
    hSelected { level := some "warning", limit := 1 } (by decide)⟩

end Spreadsheet.EventLog
