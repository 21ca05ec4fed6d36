import Spreadsheet.Proofs.EventLog.ReadBack
import Spreadsheet.Proofs.Json.Halves

/-!
# Logs of foreign content

A log may hold any bytes. Lines that are no JSON are passed over, and of the other values those that
are dictionaries are selected, the newest first. Two kinds of lines are not passed over. A value that
is no dictionary is listed like an event, or ends the reading when it is asked for a field. A whole
number that is too long to be read ends the reading.

A text with half of a pair of units is no text here. Lines that spell such a half without the other
one are left out.
-/

set_option autoImplicit false

namespace Spreadsheet

def Value.isDict : Value → Bool
  | .dict _ => true
  | _ => false

namespace EventLog

variable {log : EventLog} {files : Files} {lines : List (List Char)} {vs before after : List Value}
  {v : Value} {name : String} {bytes : List UInt8} {query : Query}

/-! ## Values of lines -/

/-- The value on a line, if the line is JSON. -/
def valueOn? (l : List Char) : Option Value := (Json.read l).toOption

/-- The line has a whole number that is too long to be read. -/
def IsOverlong (l : List Char) : Prop := ∃ fault, Json.read l = .error (.numeric fault)

theorem valuesOf_of_readable (h : ∀ l ∈ lines, ¬ IsOverlong l) :
    valuesOf lines = .ok (lines.filterMap valueOn?) := by
  induction lines with
  | nil => rfl
  | cons l lines ih =>
    obtain ⟨hFirst, hRest⟩ := List.forall_mem_cons.mp h
    rw [valuesOf, ih hRest]
    cases hRead : Json.read l with
    | ok v =>
      have hValue : valueOn? l = some v := by rw [valueOn?, hRead, Except.toOption]
      rw [List.filterMap_cons_some hValue]
      rfl
    | error fault =>
      have hNone : valueOn? l = none := by rw [valueOn?, hRead, Except.toOption]
      rw [List.filterMap_cons_none hNone]
      cases fault with
      | malformed => rfl
      | numeric fault => exact absurd ⟨fault, hRead⟩ hFirst

theorem valuesOf_of_overlong (h : ∃ l ∈ lines, IsOverlong l) :
    ∃ fault, (∃ l ∈ lines, Json.read l = .error (.numeric fault)) ∧
      valuesOf lines = .error (.numeric fault) := by
  induction lines with
  | nil =>
    obtain ⟨l, hl, -⟩ := h
    cases hl
  | cons l lines ih =>
    by_cases hFirst : IsOverlong l
    · obtain ⟨fault, hRead⟩ := hFirst
      refine ⟨fault, ⟨l, List.mem_cons_self, hRead⟩, ?_⟩
      rw [valuesOf, hRead]
    · have hLater : ∃ l ∈ lines, IsOverlong l := by
        obtain ⟨l', hl', hLong⟩ := h
        rcases List.mem_cons.mp hl' with rfl | hl'
        · exact absurd hLong hFirst
        · exact ⟨l', hl', hLong⟩
      obtain ⟨fault, ⟨l', hl', hRead'⟩, hValues⟩ := ih hLater
      refine ⟨fault, ⟨l', List.mem_cons_of_mem l hl', hRead'⟩, ?_⟩
      rw [valuesOf, hValues]
      cases hRead : Json.read l with
      | ok v => rfl
      | error fault' =>
        cases fault' with
        | malformed => rfl
        | numeric fault' => exact absurd ⟨fault', hRead⟩ hFirst

theorem isOverlong_of_digits {ds : List Char} (h : Lexer.AreDigits ds)
    (hHead : ds.head? ≠ some '0') (hLong : Decimal.digitLimit < ds.length) : IsOverlong ds := by
  obtain ⟨d, r, rfl⟩ := List.exists_cons_of_length_pos (Nat.zero_lt_of_lt hLong)
  have hDigit := h d List.mem_cons_self
  have hMinus : d ≠ '-' := Decimal.ne_of_isDigit hDigit rfl
  have hSign : ((d :: r).head? == some '-') = false := by simpa using hMinus
  have hWhole := Json.wholeDigits_append h (List.cons_ne_nil d r) (.inr hHead)
    (show ∀ c ∈ ([] : List Char).head?, Decimal.isDigit c = false by rintro c ⟨⟩)
  rw [List.append_nil] at hWhole
  have hDrop : (d :: r).drop (d :: r).length = [] := List.drop_length
  have hFraction : Json.fractionPart [] = [] := rfl
  have hExponent : Json.exponentPart [] = [] := rfl
  have hNumber : Json.number (d :: r) =
      .error (.numeric (.tooManyDigits (d :: r).length)) := by
    simp only [Json.number, hSign, Bool.false_eq_true, if_false, List.length_nil, List.drop_zero,
      hWhole, hDrop, hFraction, hExponent, List.isEmpty_cons, List.isEmpty_nil, Bool.and_self,
      if_true, Decimal.read, if_neg (Nat.not_le.mpr hLong)]
  refine ⟨.tooManyDigits (d :: r).length, ?_⟩
  rw [Json.read, (Json.opens_of_isDigit hDigit r).skipSpaces_eq, Json.value_of_isDigit hDigit,
    hNumber]
  rfl

/-! ## Filters -/

/-- The value is a dictionary with a text under a name. -/
def holdsText (name text : String) : Value → Bool
  | .dict es =>
    match lookupText name es with
    | some (.text s) => s == text
    | _ => false
  | _ => false

/-- Whether a filter asks for anything. -/
def asks (asked : Option String) : Bool := asked.any (· != "")

/-- Whether a value passes a filter on a field; a filter that does not ask lets all values pass. -/
def passesOn (asked : Option String) (name : String) (v : Value) : Bool :=
  asked.all fun text => text == "" || holdsText name text v

def Query.matches (query : Query) (v : Value) : Bool :=
  passesOn query.level "level" v && passesOn query.type "event_type" v

def Query.filters (query : Query) : Bool := asks query.level || asks query.type

theorem having_of_not_asks {asked : Option String} (h : asks asked = false) (name : String)
    (vs : List Value) : having name asked vs = .ok vs := by
  cases asked with
  | none => rfl
  | some text =>
    obtain rfl : text = "" := by simpa [asks] using h
    rfl

/-- What a filter finds out about a value. -/
def test (name text : String) (v : Value) : Except ReadFault Bool := do
  match ← field name v with
  | some (.text s) => return s == text
  | _ => return false

theorem test_of_dict (h : v.isDict = true) (name text : String) :
    test name text v = .ok (holdsText name text v) := by
  cases v with
  | dict es =>
    simp only [test, field, bind, Except.bind, holdsText]
    split <;> rfl
  | _ => cases h

theorem test_of_other (h : v.isDict = false) (name text : String) :
    test name text v = .error (.noFields v.typeName) := by
  cases v <;> first | rfl | cases h

theorem having_of_asks {asked : Option String} (h : asks asked = true) (name : String)
    (vs : List Value) :
    ∃ text, asked = some text ∧ text ≠ "" ∧ having name asked vs = vs.filterM (test name text) := by
  obtain ⟨text, rfl, hText⟩ : ∃ text, asked = some text ∧ text ≠ "" := by
    simpa [asks, Option.any_eq_true] using h
  refine ⟨text, rfl, hText, ?_⟩
  unfold having
  split
  · contradiction
  · rename_i hEmpty
    exact absurd (Option.some.inj hEmpty) hText
  · rename_i hSame
    cases hSame
    rfl

theorem having_of_dicts (asked : Option String) (h : ∀ v ∈ vs, v.isDict = true) :
    having name asked vs = .ok (vs.filter (passesOn asked name)) := by
  by_cases hAsks : asks asked = true
  · obtain ⟨text, rfl, hText, hFilter⟩ := having_of_asks hAsks name vs
    have hEmpty : (text == "") = false := beq_eq_false_iff_ne.mpr hText
    have hTest : ∀ v ∈ vs, test name text (id v) = .ok (passesOn (some text) name v) := by
      intro v hv
      rw [passesOn, Option.all_some, hEmpty, Bool.false_or]
      exact test_of_dict (h v hv) name text
    have hKept := filterM_map_ok hTest
    rwa [List.map_id, List.map_id, ← hFilter] at hKept
  · have hPass : ∀ v ∈ vs, passesOn asked name v = true := by
      intro v _
      cases asked with
      | none => rfl
      | some text =>
        obtain rfl : text = "" := by simpa [asks] using hAsks
        rfl
    rw [having_of_not_asks (Bool.eq_false_iff.mpr hAsks), List.filter_eq_self.mpr hPass]

theorem filterM_of_error {α ε : Type} {f : α → Except ε Bool} {as bs : List α} {a : α} {e : ε}
    (hBefore : ∀ a ∈ as, ∃ b, f a = .ok b) (hError : f a = .error e) :
    (as ++ a :: bs).filterM f = .error e := by
  have hLoop : ∀ kept, List.filterAuxM f (as ++ a :: bs) kept = .error e := by
    induction as with
    | nil =>
      intro kept
      rw [List.nil_append, List.filterAuxM, hError]
      rfl
    | cons a' as ih =>
      intro kept
      obtain ⟨⟨b, hFirst⟩, hRest⟩ := List.forall_mem_cons.mp hBefore
      rw [List.cons_append, List.filterAuxM, hFirst]
      exact ih hRest _
  rw [List.filterM, hLoop]
  rfl

/-- A filter that asks ends at the first value without fields. -/
theorem having_of_other {asked : Option String} (hAsks : asks asked = true)
    (hBefore : ∀ w ∈ before, w.isDict = true) (hOther : v.isDict = false) :
    having name asked (before ++ v :: after) = .error (.noFields v.typeName) := by
  obtain ⟨text, -, -, hFilter⟩ := having_of_asks hAsks name (before ++ v :: after)
  rw [hFilter]
  exact filterM_of_error (fun w hw => ⟨_, test_of_dict (hBefore w hw) name text⟩)
    (test_of_other hOther name text)

/-! ## Selections -/

theorem select_of_dicts (query : Query) (hLimit : 0 ≤ query.limit)
    (hLines : valuesOf (entryLines bytes) = .ok vs) (h : ∀ v ∈ vs, v.isDict = true) :
    select query bytes =
      .ok ((vs.filter query.matches).reverse.take (min query.limit greatestLimit).toNat) := by
  have hNonneg : 0 ≤ min query.limit greatestLimit := le_min hLimit (by decide)
  have hKept : ∀ v ∈ vs.filter (passesOn query.level "level"), v.isDict = true := fun v hv =>
    h v (List.mem_of_mem_filter hv)
  have hBoth : query.matches =
      fun v => passesOn query.type "event_type" v && passesOn query.level "level" v :=
    funext fun v => Bool.and_comm _ _
  rw [select, hLines]
  simp only [bind, Except.bind, having_of_dicts query.level h, having_of_dicts query.type hKept,
    pure, Except.pure]
  rw [List.filter_filter, takeSigned_of_nonneg hNonneg, hBoth]

theorem select_of_not_filters (hLimit : 0 ≤ query.limit) (hFilters : query.filters = false)
    (hLines : valuesOf (entryLines bytes) = .ok vs) :
    select query bytes = .ok (vs.reverse.take (min query.limit greatestLimit).toNat) := by
  have hNonneg : 0 ≤ min query.limit greatestLimit := le_min hLimit (by decide)
  obtain ⟨hLevel, hType⟩ := Bool.or_eq_false_iff.mp hFilters
  rw [select, hLines]
  simp only [bind, Except.bind, having_of_not_asks hLevel, having_of_not_asks hType, pure,
    Except.pure]
  rw [takeSigned_of_nonneg hNonneg]

theorem select_of_other (hFilters : query.filters = true)
    (hLines : valuesOf (entryLines bytes) = .ok (before ++ v :: after))
    (hBefore : ∀ w ∈ before, w.isDict = true) (hOther : v.isDict = false) :
    select query bytes = .error (.noFields v.typeName) := by
  rw [select, hLines]
  by_cases hLevel : asks query.level = true
  · simp only [bind, Except.bind, having_of_other hLevel hBefore hOther]
  · have hType : asks query.type = true := by simpa [Query.filters, hLevel] using hFilters
    simp only [bind, Except.bind, having_of_not_asks (Bool.eq_false_iff.mpr hLevel),
      having_of_other hType hBefore hOther]

/-! ## Readings -/

/-- How a reading of some lines ends, by what is on them. -/
structure ReadsLines (query : Query) (lines : List (List Char))
    (ending : Except ReadFault (List Value)) : Prop where
  /-- Where all values are dictionaries, those that are asked for are listed, the newest first and
  up to the limit; the lines without a value are passed over. -/
  events : (∀ l ∈ lines, ¬ IsOverlong l) → (∀ v ∈ lines.filterMap valueOn?, v.isDict = true) →
    ending = .ok (((lines.filterMap valueOn?).filter query.matches).reverse.take
      (min query.limit 2000).toNat)
  /-- Without a filter all values are listed, whatever they are. -/
  unfiltered : (∀ l ∈ lines, ¬ IsOverlong l) → query.filters = false →
    ending = .ok ((lines.filterMap valueOn?).reverse.take (min query.limit 2000).toNat)
  /-- A filter asks the first value that is no dictionary for a field, which it does not have. -/
  other : (∀ l ∈ lines, ¬ IsOverlong l) → query.filters = true → ∀ before v after,
    lines.filterMap valueOn? = before ++ v :: after → (∀ w ∈ before, w.isDict = true) →
    v.isDict = false → ending = .error (.noFields v.typeName)
  /-- A whole number that is too long to be read is a fault of the whole reading. -/
  overlong : (∃ l ∈ lines, IsOverlong l) →
    ∃ fault, (∃ l ∈ lines, Json.read l = .error (.numeric fault)) ∧
      ending = .error (.numeric fault)

theorem readsLines_select (hLimit : 0 ≤ query.limit) (bytes : List UInt8) :
    ReadsLines query (entryLines bytes) (select query bytes) where
  events hReadable hDicts := select_of_dicts query hLimit (valuesOf_of_readable hReadable) hDicts
  unfiltered hReadable hFilters :=
    select_of_not_filters hLimit hFilters (valuesOf_of_readable hReadable)
  other := by
    intro hReadable hFilters before v after hValues hBefore hOther
    have hLines := valuesOf_of_readable hReadable
    rw [hValues] at hLines
    exact select_of_other hFilters hLines hBefore hOther
  overlong hLong := by
    obtain ⟨fault, hLine, hLines⟩ := valuesOf_of_overlong hLong
    refine ⟨fault, hLine, ?_⟩
    rw [select, hLines]
    rfl

theorem read_eq_select (hFile : files.Holds log.path bytes) (query : Query) :
    log.read files query = select query (tail log.tailBytes bytes) := by
  rw [read, bytes_of_holds hFile]
  rfl

/-- How a reading of lines ends on which nothing is taken for half of a pair. -/
structure ReadsForeign (query : Query) (lines : List (List Char))
    (ending : Except ReadFault (List Value)) : Prop extends ReadsLines query lines ending where
  /-- What is on a line does not depend on what would be taken for such a half. -/
  standIn : ∀ l ∈ lines, ∀ lone, Json.read l lone = Json.read l

/-- Of whatever bytes a log holds, the dictionaries on its lines are listed as they are asked for,
and lines without a value are passed over. Values that are no dictionaries are not passed over, nor
are numbers that are too long. Halves of pairs are spelled next to one another. -/
theorem read_foreign (hFile : files.Holds log.path bytes) (query : Query)
    (hLimit : 0 ≤ query.limit)
    (hPaired : ∀ l ∈ entryLines (tail log.tailBytes bytes), Json.arePaired false l = true) :
    ReadsForeign query (entryLines (tail log.tailBytes bytes)) (log.read files query) := by
  rw [read_eq_select hFile]
  exact ⟨readsLines_select hLimit _, fun l hl => Json.read_of_arePaired (hPaired l hl)⟩

/-! ## Logs with some lines -/

def sampleLog : EventLog := ⟨⟨"/", ["log"]⟩, 2097152⟩

def sampleFiles (bytes : List UInt8) : Files where
  directories := [["log"]]
  contents := [(["log", "events.ndjson"], bytes)]

theorem sampleFiles_holds (bytes : List UInt8) : (sampleFiles bytes).Holds sampleLog.path bytes :=
  ⟨["log", "events.ndjson"], by rfl, by rfl, by rfl⟩

/-- The bytes of a log with some lines. -/
def bytesOf (lines : List (List Char)) : List UInt8 :=
  (lines.flatMap (· ++ ['\n'])).map Text.byteOf

/-- Lines that are told apart when they are read back. -/
structure AreLines (lines : List (List Char)) : Prop where
  plain : ∀ l ∈ lines, Text.ArePlain l
  strip : ∀ l ∈ lines, Text.strip l = l
  nonempty : [] ∉ lines
  length : (bytesOf lines).length ≤ sampleLog.tailBytes

theorem AreLines.entryLines_tail (h : AreLines lines) :
    entryLines (tail sampleLog.tailBytes (bytesOf lines)) = lines := by
  rw [tail, if_pos h.length, bytesOf, entryLines_flatMap h.plain h.strip h.nonempty]

theorem AreLines.readsLines (h : AreLines lines) (query : Query) (hLimit : 0 ≤ query.limit) :
    ReadsLines query lines (sampleLog.read (sampleFiles (bytesOf lines)) query) := by
  have hSelect := readsLines_select hLimit (tail sampleLog.tailBytes (bytesOf lines))
  rwa [h.entryLines_tail, ← read_eq_select (sampleFiles_holds _)] at hSelect

/-- A line that breaks off inside a text. -/
def tornLine : List Char := "\x7b\"level".toList

def infoLine : List Char := "\x7b\"level\": \"info\"\x7d".toList

def infoValue : Value := .dict [(.text "level", .text "info")]

theorem read_tornLine : Json.read tornLine = .error .malformed := by cbv

theorem read_infoLine : Json.read infoLine = .ok infoValue := by cbv

theorem read_five : Json.read ['5'] = .ok (.int 5) := by rfl

theorem valueOn?_of_read {l : List Char} (h : Json.read l = .ok v) : valueOn? l = some v := by
  rw [valueOn?, h, Except.toOption]

theorem not_isOverlong {l : List Char} (h : Json.read l = .ok v) : ¬ IsOverlong l := by
  rintro ⟨fault, hFault⟩
  rw [h] at hFault
  cases hFault

/-- A line that breaks off is passed over. -/
theorem read_foreign_torn :
    (sampleFiles (bytesOf [tornLine, infoLine])).Holds sampleLog.path
      (bytesOf [tornLine, infoLine]) ∧
    sampleLog.read (sampleFiles (bytesOf [tornLine, infoLine])) { level := some "info" } =
      .ok [infoValue] := by
  have hLines : AreLines [tornLine, infoLine] :=
    ⟨by decide, by decide, by decide, by decide⟩
  have hTorn : ¬ IsOverlong tornLine := by
    rintro ⟨fault, hFault⟩
    rw [read_tornLine] at hFault
    cases hFault
  have hNone : valueOn? tornLine = none := by rw [valueOn?, read_tornLine, Except.toOption]
  have hReadable : ∀ l ∈ [tornLine, infoLine], ¬ IsOverlong l :=
    List.forall_mem_cons.mpr ⟨hTorn, List.forall_mem_singleton.mpr (not_isOverlong read_infoLine)⟩
  have hValues : [tornLine, infoLine].filterMap valueOn? = [infoValue] := by
    rw [List.filterMap_cons_none hNone, List.filterMap_cons_some (valueOn?_of_read read_infoLine),
      List.filterMap_nil]
  have hDicts : ∀ v ∈ [tornLine, infoLine].filterMap valueOn?, v.isDict = true := by
    rw [hValues]
    exact List.forall_mem_singleton.mpr rfl
  have hPaired : ∀ l ∈ entryLines (tail sampleLog.tailBytes (bytesOf [tornLine, infoLine])),
      Json.arePaired false l = true := by
    rw [hLines.entryLines_tail]
    decide
  have hRead := read_foreign (sampleFiles_holds (bytesOf [tornLine, infoLine]))
    { level := some "info" } (by decide) hPaired
  rw [hLines.entryLines_tail] at hRead
  refine ⟨sampleFiles_holds _, (hRead.events hReadable hDicts).trans ?_⟩
  rw [hValues]
  rfl

/-- A line of digits that are too many. -/
def overlongLine : List Char := List.replicate (Decimal.digitLimit + 1) '1'

theorem isOverlong_overlongLine : IsOverlong overlongLine := by
  have hDigits : Lexer.AreDigits overlongLine := by
    intro c hc
    rw [List.eq_of_mem_replicate hc]
    rfl
  have hLength : Decimal.digitLimit < overlongLine.length := by
    rw [overlongLine, List.length_replicate]
    exact Nat.lt_succ_self _
  have hHead : overlongLine.head? ≠ some '0' := by
    rw [overlongLine, List.replicate_succ, List.head?_cons]
    decide
  exact isOverlong_of_digits hDigits hHead hLength

theorem areLines_overlongLine : AreLines [overlongLine] where
  plain := by
    intro l hl c hc
    obtain rfl := List.mem_singleton.mp hl
    rw [List.eq_of_mem_replicate hc]
    decide
  strip := by
    intro l hl
    obtain rfl := List.mem_singleton.mp hl
    have hBlank : ∀ c ∈ overlongLine, Text.isBlank c = false := by
      intro c hc
      rw [List.eq_of_mem_replicate hc]
      decide
    exact Text.strip_of_edges (fun c hc => hBlank c (List.mem_of_mem_head? hc))
      fun c hc => hBlank c (List.mem_of_getLast? hc)
  nonempty := by
    rw [List.mem_singleton, overlongLine, List.replicate_succ]
    exact (List.cons_ne_nil _ _).symm
  length := by
    rw [bytesOf, List.flatMap_singleton, List.length_map, List.length_append, overlongLine,
      List.length_replicate]
    decide

/-- A number on a line is listed like an event, or ends the reading when there is a filter. A number
that is too long always ends it. -/
theorem foreign_lines_are_not_passed_over :
    sampleLog.read (sampleFiles (bytesOf [['5']])) {} = .ok [.int 5] ∧
    sampleLog.read (sampleFiles (bytesOf [['5'], infoLine])) { level := some "info" } =
      .error (.noFields "int") ∧
    ∃ fault, sampleLog.read (sampleFiles (bytesOf [overlongLine])) {} =
      .error (.numeric fault) := by
  have hFive := valueOn?_of_read read_five
  have hInfo := valueOn?_of_read read_infoLine
  refine ⟨?_, ?_, ?_⟩
  · have hLines : AreLines [['5']] := ⟨by decide, by decide, by decide, by decide⟩
    have hRead := hLines.readsLines {} (by decide)
    refine (hRead.unfiltered (List.forall_mem_singleton.mpr (not_isOverlong read_five)) rfl).trans ?_
    rw [List.filterMap_cons_some hFive, List.filterMap_nil]
    rfl
  · have hLines : AreLines [['5'], infoLine] := ⟨by decide, by decide, by decide, by decide⟩
    have hRead := hLines.readsLines { level := some "info" } (by decide)
    refine hRead.other ?_ rfl [] (.int 5) [infoValue] ?_ (List.forall_mem_nil _) rfl
    · exact List.forall_mem_cons.mpr ⟨not_isOverlong read_five,
        List.forall_mem_singleton.mpr (not_isOverlong read_infoLine)⟩
    · rw [List.filterMap_cons_some hFive, List.filterMap_cons_some hInfo, List.filterMap_nil]
      rfl
  · have hRead := areLines_overlongLine.readsLines {} (by decide)
    obtain ⟨fault, -, hEnding⟩ :=
      hRead.overlong ⟨overlongLine, List.mem_cons_self, isOverlong_overlongLine⟩
    exact ⟨fault, hEnding⟩

end EventLog
end Spreadsheet
