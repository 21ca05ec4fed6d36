import Spreadsheet.EventLog
import Spreadsheet.Proofs.Files.Append
import Spreadsheet.Proofs.Formula.Rendering
import Spreadsheet.Proofs.Json.RoundTrip

/-!
# The lines of a log

Each event that is written adds one line at the end of the log. The lines of plain events are told
apart again and read as what they were written from, with the fields in the order of their names.
-/

set_option autoImplicit false

namespace Spreadsheet

open Text

namespace Event

/-- An event whose context can be written and read back, and whose version can be written. -/
structure IsPlain (e : Event) : Prop where
  context : (dictionary e.context).IsPlain
  version : Decimal.isWritable e.schemaVersion = true

/-- An event as it is read back: each field holds what the event does, with the fields of the
context, and of every dictionary in it, in the order of their names. -/
def recorded (e : Event) : Value :=
  dictionary [
    ("context", (dictionary e.context).inKeyOrder),
    ("error_code", textValue? e.errorCode),
    ("event_type", .text e.type.name),
    ("level", .text e.level.name),
    ("message", .text e.message),
    ("schema_version", .int e.schemaVersion),
    ("ts", .text e.time)]

theorem textValue?_isPlain (s : Option String) : (textValue? s).IsPlain := by
  cases s with
  | none => exact .null
  | some s => exact .text s

theorem textValue?_inKeyOrder (s : Option String) : (textValue? s).inKeyOrder = textValue? s := by
  cases s <;> rfl

def fields (e : Event) : List (String × Value) := [
  ("schema_version", .int e.schemaVersion),
  ("ts", .text e.time),
  ("level", .text e.level.name),
  ("event_type", .text e.type.name),
  ("context", dictionary e.context),
  ("message", .text e.message),
  ("error_code", textValue? e.errorCode)]

theorem toValue_eq (e : Event) : e.toValue = dictionary e.fields := rfl

theorem byName_fields (e : Event) : byName e.fields = [
    ("context", dictionary e.context),
    ("error_code", textValue? e.errorCode),
    ("event_type", .text e.type.name),
    ("level", .text e.level.name),
    ("message", .text e.message),
    ("schema_version", .int e.schemaVersion),
    ("ts", .text e.time)] := by
  have hNames : ["context", "error_code", "event_type", "level", "message", "schema_version",
      "ts"].Pairwise (· < ·) := by decide
  refine byName_eq_of_perm ?_ hNames
  classical
  refine List.perm_iff_count.mpr fun field => ?_
  simp only [fields, List.count_cons, List.count_nil]
  omega

theorem IsPlain.toValue {e : Event} (h : e.IsPlain) : e.toValue.IsPlain := by
  have hNames : ["schema_version", "ts", "level", "event_type", "context", "message",
      "error_code"].Nodup := by decide
  rw [toValue_eq]
  refine .dictionary hNames ?_
  simp only [fields, List.forall_mem_cons]
  exact ⟨.int h.version, .text _, .text _, .text _, h.context, .text _, textValue?_isPlain _,
    List.forall_mem_nil _⟩

theorem toValue_inKeyOrder (e : Event) : e.toValue.inKeyOrder = e.recorded := by
  rw [toValue_eq, Value.inKeyOrder_dictionary, byName_fields]
  simp only [List.map_cons, List.map_nil, textValue?_inKeyOrder]
  rfl

end Event

theorem Text.isBlank_of_isPlain {c : Char} (h : IsPlain c) (hSpace : c ≠ ' ') :
    isBlank c = false := by
  have hNot : c.toNat ≠ 0x20 := fun hSame => hSpace (Char.toNat_inj.mp hSame)
  obtain ⟨hLow, hHigh⟩ := h
  simp only [isBlank, Bool.or_eq_false_iff, Bool.and_eq_false_iff, decide_eq_false_iff_not,
    beq_eq_false_iff_ne]
  omega

theorem Json.IsTextOf.isBlank_head {cs : List Char} {v : Value} (h : Json.IsTextOf cs v) :
    ∀ c ∈ cs.head?, isBlank c = false := by
  intro c hc
  refine isBlank_of_isPlain (h.plain c (List.mem_of_mem_head? hc)) ?_
  obtain ⟨d, r, rfl, hSpace, -⟩ := h.opens
  cases hc
  rintro rfl
  cases hSpace

theorem Json.IsTextOf.isBlank_getLast {cs : List Char} {v : Value} (h : Json.IsTextOf cs v) :
    ∀ c ∈ cs.getLast?, isBlank c = false := fun c hc =>
  isBlank_of_isPlain (h.plain c (List.mem_of_getLast? hc)) (h.ends c hc)

theorem Json.IsTextOf.strip_eq {cs : List Char} {v : Value} (h : Json.IsTextOf cs v) :
    strip cs = cs := strip_of_edges h.isBlank_head h.isBlank_getLast

namespace EventLog

variable {log : EventLog} {files : Files} {e : Event} {es : List Event} {bytes : List UInt8}
  {cs : List Char}

/-- The bytes that an event adds to a log; none if it has no line. -/
def lineBytes (e : Event) : List UInt8 :=
  match line e with
  | .ok cs => encodeUtf8 (String.ofList cs)
  | .error _ => []

/-! ## Writing -/

theorem write_holds (hLine : line e = .ok cs) (h : files.Holds log.path bytes) :
    ∃ files', log.write files e = .ok files' ∧ files'.Holds log.path (bytes ++ lineBytes e) := by
  obtain ⟨files', hAppend, hHolds⟩ := h.append (encodeUtf8 (String.ofList cs))
  refine ⟨files', ?_, ?_⟩
  · rw [write, hLine]
    simp only [Except.mapError, bind, Except.bind, hAppend]
  · rwa [lineBytes, hLine]

theorem foldlM_write_holds (hLines : ∀ e ∈ es, ∃ cs, line e = .ok cs)
    (h : files.Holds log.path bytes) :
    ∃ files', es.foldlM log.write files = .ok files' ∧
      files'.Holds log.path (bytes ++ es.flatMap lineBytes) := by
  induction es generalizing files bytes with
  | nil => exact ⟨files, rfl, by rwa [List.flatMap_nil, List.append_nil]⟩
  | cons e es ih =>
    obtain ⟨⟨cs, hLine⟩, hRest⟩ := List.forall_mem_cons.mp hLines
    obtain ⟨files', hWrite, hHolds⟩ := write_holds hLine h
    obtain ⟨files'', hWrites, hAll⟩ := ih hRest hHolds
    refine ⟨files'', ?_, ?_⟩
    · rw [List.foldlM_cons, hWrite]
      exact hWrites
    · rwa [List.flatMap_cons, ← List.append_assoc]

theorem bytes_of_holds (h : files.Holds log.path bytes) : log.bytes files = .ok bytes := by
  obtain ⟨place, hLocated, hDirectory, rfl⟩ := h
  rw [EventLog.bytes, Files.find, hLocated]
  simp only [bind, Except.bind, Files.entryAt?, hDirectory]
  cases files.bytesAt? place <;> rfl

/-! ## Reading -/

theorem exists_line (h : e.IsPlain) :
    ∃ body, line e = .ok (body ++ ['\n']) ∧ Json.IsTextOf body e.recorded := by
  obtain ⟨body, hWrite, hText⟩ := Json.readsBack_of_isPlain h.toValue 0
  rw [Event.toValue_inKeyOrder] at hText
  refine ⟨body, ?_, hText⟩
  rw [line, hWrite]
  rfl

theorem toNat_lt_of_mem_line {body : List Char} (h : ArePlain body) :
    ∀ c ∈ body ++ ['\n'], c.toNat < 0x80 := by
  intro c hc
  rcases List.mem_append.mp hc with hBody | hBreak
  · exact Nat.lt_of_le_of_lt (h c hBody).2 (by decide)
  · rw [List.mem_singleton.mp hBreak]
    decide

theorem exists_lineBytes (h : e.IsPlain) :
    ∃ body, Json.IsTextOf body e.recorded ∧ lineBytes e = (body ++ ['\n']).map byteOf := by
  obtain ⟨body, hLine, hText⟩ := exists_line h
  refine ⟨body, hText, ?_⟩
  rw [lineBytes, hLine]
  exact encodeUtf8_eq_map (toNat_lt_of_mem_line hText.plain)

theorem exists_bodies (h : ∀ e ∈ es, e.IsPlain) :
    ∃ bodies, List.Forall₂ Json.IsTextOf bodies (es.map Event.recorded) ∧
      es.flatMap lineBytes = (bodies.flatMap (· ++ ['\n'])).map byteOf := by
  induction es with
  | nil => exact ⟨[], .nil, rfl⟩
  | cons e es ih =>
    obtain ⟨hFirst, hRest⟩ := List.forall_mem_cons.mp h
    obtain ⟨body, hText, hBytes⟩ := exists_lineBytes hFirst
    obtain ⟨bodies, hTexts, hAll⟩ := ih hRest
    refine ⟨body :: bodies, .cons hText hTexts, ?_⟩
    rw [List.flatMap_cons, hBytes, hAll, List.flatMap_cons, ← List.map_append]

theorem splitLines_flatMap {bodies : List (List Char)} (h : ∀ body ∈ bodies, ArePlain body) :
    splitLines (bodies.flatMap (· ++ ['\n'])) = bodies := by
  induction bodies with
  | nil => rw [List.flatMap_nil, splitLines]
  | cons body bodies ih =>
    obtain ⟨hFirst, hRest⟩ := List.forall_mem_cons.mp h
    rw [List.flatMap_cons, List.append_assoc, List.singleton_append, splitLines_line hFirst,
      ih hRest]

/-- Plain lines with no blank at either end are told apart again. -/
theorem entryLines_flatMap {bodies : List (List Char)} (hPlain : ∀ body ∈ bodies, ArePlain body)
    (hStrip : ∀ body ∈ bodies, strip body = body) (hNonempty : [] ∉ bodies) :
    entryLines ((bodies.flatMap (· ++ ['\n'])).map byteOf) = bodies := by
  have hSmall : ∀ c ∈ bodies.flatMap (· ++ ['\n']), c.toNat < 0x80 := by
    intro c hc
    obtain ⟨body, hBody, hc⟩ := List.mem_flatMap.mp hc
    exact toNat_lt_of_mem_line (hPlain body hBody) c hc
  have hFilter : bodies.filter (!·.isEmpty) = bodies := by
    refine List.filter_eq_self.mpr fun body hBody => ?_
    cases body with
    | nil => exact absurd hBody hNonempty
    | cons c body => rfl
  rw [entryLines, decodeUtf8_map_byteOf hSmall, splitLines_flatMap hPlain,
    List.map_congr_left hStrip, List.map_id', hFilter]

theorem entryLines_isTextOf (h : ∀ e ∈ es, e.IsPlain) :
    List.Forall₂ Json.IsTextOf (entryLines (es.flatMap lineBytes)) (es.map Event.recorded) := by
  obtain ⟨bodies, hTexts, hBytes⟩ := exists_bodies h
  have hNonempty : [] ∉ bodies := fun hMem => by
    obtain ⟨c, r, hEmpty, -⟩ := Json.forall_of_forall₂ hTexts (fun _ _ hText => hText.opens) [] hMem
    cases hEmpty
  rw [hBytes, entryLines_flatMap (Json.forall_of_forall₂ hTexts fun _ _ hText => hText.plain)
    (Json.forall_of_forall₂ hTexts fun _ _ hText => hText.strip_eq) hNonempty]
  exact hTexts

end EventLog
end Spreadsheet
