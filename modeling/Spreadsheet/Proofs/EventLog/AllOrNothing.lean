import Spreadsheet.Emitter
import Spreadsheet.Proofs.EventLog.Lines
import Spreadsheet.Proofs.Files.Changes
import Spreadsheet.Proofs.Json.OneLine

/-!
# Emitting is all or nothing

An event that is emitted adds one whole line to the log, or nothing changes. It adds its line when
there is a log, the directory of the log offers a place for the file, and the event, its texts cut,
can be written. So each file holds the lines of the events that were added to it since it came to
be, in the order in which they were emitted. An event whose context has a key that is no text is
never made, and to emit it is refused.
-/

set_option autoImplicit false

namespace Spreadsheet

open Text

namespace Event

theorem isSome_textEntries? {entries : List (Key × Value)} :
    (textEntries? entries).isSome = true ↔ ∀ entry ∈ entries, ∃ name, entry.1 = .text name := by
  induction entries with
  | nil => exact ⟨fun _ => List.forall_mem_nil _, fun _ => rfl⟩
  | cons entry entries ih =>
    obtain ⟨k, v⟩ := entry
    rw [List.forall_mem_cons, ← ih, textEntries?, List.mapM_cons]
    cases k with
    | text name =>
      have hNext : ∀ rest : Option (List (String × Value)),
          (rest >>= fun fields => pure ((name, v) :: fields)).isSome = rest.isSome := by
        rintro (_ | fields) <;> rfl
      exact (Bool.eq_iff_iff.mp (hNext _)).trans (and_iff_right ⟨name, rfl⟩).symm
    | _ => exact iff_of_false (fun h => by cases h) fun h => by cases h.1.choose_spec

/-- The paths are those to the keys that are no texts. -/
theorem mem_contextPaths {entries : List (Key × Value)} {path : String} :
    path ∈ contextPaths (some (.dict entries)) ↔
      ∃ entry ∈ entries, (∀ name, entry.1 ≠ .text name) ∧ keyPath entry.1 = path := by
  simp only [contextPaths, List.mem_mergeSort, List.mem_map, List.mem_filter]
  constructor
  · rintro ⟨k, ⟨⟨entry, hEntry, rfl⟩, hOther⟩, hPath⟩
    refine ⟨entry, hEntry, fun name hName => ?_, hPath⟩
    rw [hName] at hOther
    cases hOther
  · rintro ⟨entry, hEntry, hOther, hPath⟩
    refine ⟨entry.1, ⟨⟨entry, hEntry, rfl⟩, ?_⟩, hPath⟩
    cases hKey : entry.1 with
    | text name => exact absurd hKey (hOther name)
    | null => rfl
    | bool b => rfl
    | int n => rfl
    | float x => rfl

theorem ofName?_level_name (level : EventLevel) : EventLevel.ofName? level.name = some level := by
  cases level <;> decide

theorem ofName?_type_name (type : EventType) : EventType.ofName? type.name = some type := by
  cases type <;> decide

end Event

namespace Emitter

variable {s t u : Emitter} {e : Event} {place l : Location}

/-! ## What is done about events -/

inductive Act where
  | sendTo (log : Option EventLog)
  | emit (e : Event)
  | info (now : String) (type : EventType) (message : String)
    (context : Option (List (Key × Value)))
  | warning (now : String) (type : EventType) (message : String)
    (context : Option (List (Key × Value))) (code : Option String)
  | remove (directory : Path)

namespace Act

/-- Whether the act is to emit an event. -/
def emits : Act → Bool
  | sendTo _ => false
  | remove _ => false
  | _ => true

/-- The context that an event is to be made with. -/
def context : Act → List (Key × Value)
  | info _ _ _ context => context.getD []
  | warning _ _ _ context _ => context.getD []
  | _ => []

def HasTextKeys (act : Act) : Prop := ∀ entry ∈ act.context, ∃ name, entry.1 = .text name

/-- The event that is emitted, if one can be made. -/
def event? : Act → Option Event
  | emit e => some e
  | info now type message context => (Event.textEntries? (context.getD [])).map fun fields =>
    { time := now, level := .info, type, context := fields, message }
  | warning now type message context code => (Event.textEntries? (context.getD [])).map fun fields =>
    { time := now, level := .warning, type, context := fields, message, errorCode := code }
  | _ => none

end Act

def contextValue (context : Option (List (Key × Value))) : Value :=
  (context.map Value.dict).getD .null

def perform (s : Emitter) : Act → Except EventFault Emitter
  | .sendTo log => .ok (s.sendTo log).1
  | .emit e => .ok (s.emit e)
  | .info now type message context =>
    s.info now (.text type.name) (.text message) (contextValue context)
  | .warning now type message context code =>
    s.warning now (.text type.name) (.text message) (contextValue context) (Event.textValue? code)
  | .remove directory => .ok (s.remove directory)

/-- A context that is missing stands for an empty one. -/
theorem context_of_isTruthy (context : Option (List (Key × Value))) :
    (if (contextValue context).isTruthy then contextValue context else .dict []) =
      Value.dict (context.getD []) := by
  rcases context with _ | _ | ⟨entry, entries⟩ <;> rfl

/-- The fields of an event of a level are those of an event unless a key of the context is no
text. -/
theorem ofFields_levelFields (now : String) (level : EventLevel) (type : EventType)
    (message : String) (context : Option (List (Key × Value))) (code : Option String) :
    Event.ofFields now (levelFields level (.text type.name) (.text message) (contextValue context)
      (Event.textValue? code)) =
      match Event.textEntries? (context.getD []) with
      | some fields =>
        .ok { time := now, level, type, context := fields, message, errorCode := code }
      | none => .error (.invalidFields (Event.contextPaths (some (.dict (context.getD []))))) := by
  rw [levelFields, context_of_isTruthy]
  set entries : List (Key × Value) := [(.text "level", .text level.name),
    (.text "event_type", .text type.name), (.text "message", .text message),
    (.text "context", .dict (context.getD [])), (.text "error_code", Event.textValue? code)]
  have hContext : lookupText "context" entries = some (.dict (context.getD [])) := rfl
  have hCode : Event.codeField? (lookupText "error_code" entries) = some code := by
    cases code <;> rfl
  have hType : (Event.textField? none (lookupText "event_type" entries)).bind EventType.ofName? =
      some type := Event.ofName?_type_name type
  have hLevel : (Event.textField? none (lookupText "level" entries)).bind EventLevel.ofName? =
      some level := Event.ofName?_level_name level
  have hMessage : Event.textField? (some "") (lookupText "message" entries) = some message := rfl
  have hVersion : Event.versionField? (lookupText "schema_version" entries) = some 1 := rfl
  have hTime : Event.textField? (some now) (lookupText "ts" entries) = some now := rfl
  simp only [Event.ofFields, hContext, Event.contextField?, hCode, hType, hLevel, hMessage,
    hVersion, hTime]
  cases Event.textEntries? (context.getD []) with
  | some fields => rfl
  | none => exact congrArg (Except.error ∘ EventFault.invalidFields) (List.append_nil _)

/-! ## One event -/

theorem isFileName_fileName : Files.IsFileName EventLog.fileName :=
  ⟨by decide, by decide, by decide, by decide⟩

theorem lineBytes_of_write {body : List Char} (h : Json.write .line 0 e.toValue = .ok body) :
    EventLog.lineBytes e = (body ++ ['\n']).map byteOf := by
  have hLine : EventLog.line e = .ok (body ++ ['\n']) := by rw [EventLog.line, h]; rfl
  have hBytes := encodeUtf8_eq_map (EventLog.toNat_lt_of_mem_line (Json.arePlain_write _ _ body h))
  rwa [EventLog.lineBytes, hLine]

/-- Writing an event adds its line, or fails when it has no line or there is no place for one. -/
theorem write_cases (log : EventLog) (files : Files) (e : Event) :
    (∃ body place files', Json.write .line 0 e.toValue = .ok body ∧ ArePlain body ∧
      files.Offers log.directory EventLog.fileName place ∧ log.write files e = .ok files' ∧
      files.Gains files' place ((body ++ ['\n']).map byteOf)) ∨
    (∃ fault, log.write files e = .error fault) ∧
      ((∃ fault, Json.write .line 0 e.toValue = .error fault) ∨
        ∀ place, ¬ files.Offers log.directory EventLog.fileName place) := by
  cases hText : Json.write .line 0 e.toValue with
  | error fault =>
    have hLine : EventLog.line e = .error fault := by rw [EventLog.line, hText]; rfl
    exact .inr ⟨⟨.json fault, by rw [EventLog.write, hLine]; rfl⟩, .inl ⟨fault, rfl⟩⟩
  | ok body =>
    have hLine : EventLog.line e = .ok (body ++ ['\n']) := by rw [EventLog.line, hText]; rfl
    have hPlain := Json.arePlain_write _ _ body hText
    have hBytes : encodeUtf8 (String.ofList (body ++ ['\n'])) = (body ++ ['\n']).map byteOf :=
      encodeUtf8_eq_map (EventLog.toNat_lt_of_mem_line hPlain)
    by_cases hPlace : ∃ place, files.locate log.path = .ok place ∧ files.isDirectory place = false
    · obtain ⟨place, hLocated, hVacant⟩ := hPlace
      obtain ⟨files', hAppend, hGains⟩ :=
        Files.gains_of_append hLocated hVacant ((body ++ ['\n']).map byteOf)
      have hOffers := (Files.offers_iff isFileName_fileName).mpr ⟨hLocated, hVacant⟩
      refine .inl ⟨body, place, files', rfl, hPlain, hOffers, ?_, hGains⟩
      simp only [EventLog.write, hLine, Except.mapError, bind, Except.bind, hBytes, hAppend]
    · obtain ⟨fault, hAppend⟩ := Files.append_fails hPlace ((body ++ ['\n']).map byteOf)
      refine .inr ⟨⟨.file fault, ?_⟩, .inr fun place hOffers => hPlace ?_⟩
      · simp only [EventLog.write, hLine, Except.mapError, bind, Except.bind, hBytes, hAppend]
      · exact ⟨place, (Files.offers_iff isFileName_fileName).mp hOffers⟩

/-- A place where the line of an event would be added. -/
structure Accepts (s : Emitter) (e : Event) (place : Location) : Prop where
  place : ∃ log, s.log = some log ∧ s.files.Offers log.directory EventLog.fileName place
  text : ∃ body, Json.write .line 0 e.cut.toValue = .ok body

/-- What emitting an event comes to: one whole line more at the end of a file, or nothing. -/
inductive Emits (s : Emitter) (e : Event) : Emitter → Prop
  | added {place : Location} {body : List Char} {files' : Files} (hAccepts : s.Accepts e place)
      (hText : Json.write .line 0 e.cut.toValue = .ok body) (hPlain : ArePlain body)
      (hGains : s.files.Gains files' place ((body ++ ['\n']).map byteOf)) :
      Emits s e { s with files := files' }
  | dropped (hRefused : ∀ place, ¬ s.Accepts e place) : Emits s e s

theorem emits_emit (s : Emitter) (e : Event) : s.Emits e (s.emit e) := by
  obtain ⟨files, log⟩ := s
  cases log with
  | none =>
    refine .dropped fun place hAccepts => ?_
    obtain ⟨log, hLog, -⟩ := hAccepts.place
    cases hLog
  | some log =>
    rcases write_cases log files e.cut with
      ⟨body, place, files', hText, hPlain, hOffers, hWrite, hGains⟩ | ⟨⟨fault, hWrite⟩, hRefused⟩
    · have hEmit : emit ⟨files, some log⟩ e = ⟨files', some log⟩ := by
        simp only [emit, EventLog.emit, hWrite]
      rw [hEmit]
      exact .added ⟨⟨log, rfl, hOffers⟩, body, hText⟩ hText hPlain hGains
    · have hEmit : emit ⟨files, some log⟩ e = ⟨files, some log⟩ := by
        simp only [emit, EventLog.emit, hWrite]
      rw [hEmit]
      refine .dropped fun place hAccepts => ?_
      obtain ⟨body, hText⟩ := hAccepts.text
      obtain ⟨log', hLog, hOffers⟩ := hAccepts.place
      cases hLog
      rcases hRefused with ⟨fault', hFault⟩ | hNowhere
      · rw [hText] at hFault
        cases hFault
      · exact hNowhere place hOffers

theorem Emits.eq_of_refused (h : s.Emits e t) (hRefused : ∀ place, ¬ s.Accepts e place) : t = s := by
  cases h with
  | added hAccepts _ _ _ => exact absurd hAccepts (hRefused _)
  | dropped _ => rfl

theorem Accepts.unique {m : Location} (h : s.Accepts e place) (h' : s.Accepts e m) : place = m := by
  obtain ⟨log, hLog, hOffers⟩ := h.place
  obtain ⟨log', hLog', hOffers'⟩ := h'.place
  cases hLog.symm.trans hLog'
  have hLocated := ((Files.offers_iff isFileName_fileName).mp hOffers).1
  exact Except.ok.inj (hLocated.symm.trans ((Files.offers_iff isFileName_fileName).mp hOffers').1)

/-- The bytes at a place after an event was emitted. -/
theorem Emits.bytesAt? (h : s.Emits e t) (l : Location) :
    (s.Accepts e l ∧
      t.files.bytesAt? l = some ((s.files.bytesAt? l).getD [] ++ EventLog.lineBytes e.cut)) ∨
    ¬ s.Accepts e l ∧ t.files.bytesAt? l = s.files.bytesAt? l := by
  cases h with
  | dropped hRefused => exact .inr ⟨hRefused l, rfl⟩
  | @added place body files' hAccepts hText hPlain hGains =>
    by_cases hHere : l = place
    · subst hHere
      refine .inl ⟨hAccepts, ?_⟩
      rw [hGains.here, lineBytes_of_write hText]
    · exact .inr ⟨fun h => hHere (h.unique hAccepts), hGains.elsewhere l hHere⟩

/-! ## One act -/

/-- An act to emit an event is refused only when the event cannot be made. -/
theorem perform_of_emits {act : Act} (hEmits : act.emits = true) (s : Emitter) :
    s.perform act =
      match act.event? with
      | some e => .ok (s.emit e)
      | none => .error (.invalidFields (Event.contextPaths (some (.dict act.context)))) := by
  cases act with
  | sendTo log => cases hEmits
  | remove directory => cases hEmits
  | emit e => rfl
  | info now type message context =>
    have hFields : Event.ofFields now (levelFields .info (.text type.name) (.text message)
        (contextValue context) .null) = _ :=
      ofFields_levelFields now .info type message context none
    rw [perform, info, emitFields, hFields, Act.event?]
    cases Event.textEntries? (context.getD []) <;> rfl
  | warning now type message context code =>
    rw [perform, warning, emitFields, ofFields_levelFields, Act.event?]
    cases Event.textEntries? (context.getD []) <;> rfl

theorem Act.isSome_event? {act : Act} (hEmits : act.emits = true) :
    act.event?.isSome = true ↔ act.HasTextKeys := by
  rw [HasTextKeys, ← Event.isSome_textEntries?]
  cases act with
  | sendTo log => cases hEmits
  | remove directory => cases hEmits
  | emit e => exact iff_of_true rfl rfl
  | info now type message context => rw [event?, Option.isSome_map, Act.context]
  | warning now type message context code => rw [event?, Option.isSome_map, Act.context]

/-- An act to emit an event is never refused when all keys of its context are texts. -/
theorem perform_of_hasTextKeys {act : Act} (hEmits : act.emits = true) (h : act.HasTextKeys) :
    ∃ e, act.event? = some e ∧ ∀ s : Emitter, s.perform act = .ok (s.emit e) := by
  obtain ⟨e, hEvent⟩ := Option.isSome_iff_exists.mp ((Act.isSome_event? hEmits).mpr h)
  exact ⟨e, hEvent, fun s => by rw [perform_of_emits hEmits, hEvent]⟩

theorem Act.emits_of_mem_context {act : Act} {entry : Key × Value} (h : entry ∈ act.context) :
    act.emits = true := by
  cases act <;> first | rfl | cases h

/-- An act whose context has other keys is refused, and each such key is named. -/
theorem perform_of_other_keys {act : Act} (h : ¬ act.HasTextKeys) (s : Emitter) :
    ∃ paths, s.perform act = .error (.invalidFields paths) ∧ ∀ path, path ∈ paths ↔
      ∃ entry ∈ act.context, (∀ name, entry.1 ≠ .text name) ∧ Event.keyPath entry.1 = path := by
  refine ⟨Event.contextPaths (some (.dict act.context)), ?_, fun path => Event.mem_contextPaths⟩
  obtain ⟨entry, hEntry, -⟩ : ∃ entry ∈ act.context, ¬ ∃ name, entry.1 = .text name := by
    simpa only [Act.HasTextKeys, not_forall, exists_prop] using h
  have hEmits := Act.emits_of_mem_context hEntry
  rw [← Act.isSome_event? hEmits, Option.not_isSome_iff_eq_none] at h
  rw [perform_of_emits hEmits, h]

theorem perform_of_not_emits {act : Act} (hEmits : act.emits = false) (s : Emitter) :
    act.event? = none ∧ ∃ t, s.perform act = .ok t ∧
      ∀ l, t.files.bytesAt? l = s.files.bytesAt? l ∨ t.files.bytesAt? l = none := by
  cases act with
  | sendTo log =>
    refine ⟨rfl, _, rfl, fun l => .inl ?_⟩
    cases log with
    | none => rfl
    | some log =>
      have hKept : (EventLog.opened s.files log).1.bytesAt? l = s.files.bytesAt? l :=
        Files.bytesAt?_makeDirectory
      rw [sendTo]
      split
      · rename_i files hOpened
        rwa [hOpened] at hKept
      · rename_i files fault hOpened
        rwa [hOpened] at hKept
  | remove directory => exact ⟨rfl, _, rfl, Files.bytesAt?_removeDirectory s.files directory⟩
  | emit e => cases hEmits
  | info now type message context => cases hEmits
  | warning now type message context code => cases hEmits

/-- Whether an act adds a line to a file. -/
def Adds (s : Emitter) (act : Act) (l : Location) (e : Event) : Prop :=
  act.event? = some e ∧ s.Accepts e l

/-- What an act leaves of a file: it has gained the line of an event, is as it was, or is gone. -/
theorem perform_at {act : Act} (h : act.HasTextKeys) (s : Emitter) :
    ∃ t, s.perform act = .ok t ∧ ∀ l,
      (∃ e, s.Adds act l e ∧
        t.files.bytesAt? l = some ((s.files.bytesAt? l).getD [] ++ EventLog.lineBytes e.cut)) ∨
      (∀ e, ¬ s.Adds act l e) ∧
        (t.files.bytesAt? l = s.files.bytesAt? l ∨ t.files.bytesAt? l = none) := by
  cases hEmits : act.emits with
  | true =>
    obtain ⟨e, hEvent, hPerform⟩ := perform_of_hasTextKeys hEmits h
    refine ⟨s.emit e, hPerform s, fun l => ?_⟩
    rcases (emits_emit s e).bytesAt? l with ⟨hAccepts, hBytes⟩ | ⟨hRefused, hBytes⟩
    · exact .inl ⟨e, ⟨hEvent, hAccepts⟩, hBytes⟩
    · refine .inr ⟨fun e' hAdds => hRefused ?_, .inl hBytes⟩
      cases hEvent.symm.trans hAdds.1
      exact hAdds.2
  | false =>
    obtain ⟨hNone, t, hPerform, hBytes⟩ := perform_of_not_emits hEmits s
    refine ⟨t, hPerform, fun l => .inr ⟨fun e hAdds => ?_, hBytes l⟩⟩
    cases hNone.symm.trans hAdds.1

/-! ## One act after the other -/

/-- Acts during which a file stays, once it is there, and the events that are added to it. -/
inductive Grows (l : Location) : Emitter → List Act → List Event → Emitter → Prop
  | done (s : Emitter) : Grows l s [] [] s
  | added {s t u : Emitter} {act : Act} {acts : List Act} {e : Event} {es : List Event}
      (hPerform : s.perform act = .ok t) (hAdds : s.Adds act l e) (h : Grows l t acts es u) :
      Grows l s (act :: acts) (e :: es) u
  | kept {s t u : Emitter} {act : Act} {acts : List Act} {es : List Event}
      (hPerform : s.perform act = .ok t) (hOther : ∀ e, ¬ s.Adds act l e)
      (hFile : (s.files.bytesAt? l).isSome) (hKept : t.files.bytesAt? l = s.files.bytesAt? l)
      (h : Grows l t acts es u) : Grows l s (act :: acts) es u

/-- The part of some acts since a file came to be, or since they began if it was there already, and
what it held before that part and gained in it. -/
def Lasts (l : Location) (s : Emitter) (acts : List Act) (u : Emitter) (bytes : List UInt8) : Prop :=
  ∃ before after t es, acts = before ++ after ∧ before.foldlM perform s = .ok t ∧
    (before = [] ∨ t.files.bytesAt? l = none) ∧ Grows l t after es u ∧
    bytes = (t.files.bytesAt? l).getD [] ++ (es.map Event.cut).flatMap EventLog.lineBytes

theorem exists_run {acts : List Act} (h : ∀ act ∈ acts, act.HasTextKeys) (s : Emitter) :
    ∃ u, acts.foldlM perform s = .ok u ∧
      ∀ l bytes, u.files.bytesAt? l = some bytes → Lasts l s acts u bytes := by
  induction acts generalizing s with
  | nil =>
    refine ⟨s, rfl, fun l bytes hBytes => ?_⟩
    refine ⟨[], [], s, [], rfl, rfl, .inl rfl, .done s, ?_⟩
    rw [hBytes]
    exact (List.append_nil bytes).symm
  | cons act acts ih =>
    obtain ⟨hFirst, hRest⟩ := List.forall_mem_cons.mp h
    obtain ⟨t, hPerform, hFiles⟩ := perform_at hFirst s
    obtain ⟨u, hRun, hLasts⟩ := ih hRest t
    refine ⟨u, by rw [List.foldlM_cons, hPerform]; exact hRun, fun l bytes hBytes => ?_⟩
    obtain ⟨before, after, t', es, rfl, hBefore, hStart, hGrows, hEnd⟩ := hLasts l bytes hBytes
    have hFold : (act :: before).foldlM perform s = .ok t' := by
      rw [List.foldlM_cons, hPerform]
      exact hBefore
    by_cases hLater : t'.files.bytesAt? l = none
    · exact ⟨act :: before, after, t', es, rfl, hFold, .inr hLater, hGrows, hEnd⟩
    · -- The file was there after the first act, so what is added to it starts with this act.
      obtain rfl : before = [] := hStart.resolve_right hLater
      cases hBefore
      rcases hFiles l with ⟨e, hAdds, hGain⟩ | ⟨hOther, hSame | hGone⟩
      · refine ⟨[], act :: after, s, e :: es, rfl, rfl, .inl rfl, .added hPerform hAdds hGrows, ?_⟩
        rw [hEnd, hGain, Option.getD_some, List.map_cons, List.flatMap_cons, List.append_assoc]
      · have hFile : (s.files.bytesAt? l).isSome := by
          rw [← hSame]
          exact Option.isSome_iff_ne_none.mpr hLater
        refine ⟨[], act :: after, s, es, rfl, rfl, .inl rfl,
          .kept hPerform hOther hFile hSame hGrows, ?_⟩
        rw [hEnd, hSame]
      · exact absurd hGone hLater

/-- Emitting is all or nothing. An act to emit an event is not refused when the keys of its context
are texts, and it adds one whole line, that of the event with its texts cut, to the file of the log
where there is a log whose directory offers a place for it and the event can be written; else all
stays as it was. So after any such acts a file holds the lines of the events that were added to it
since it came to be, in their order. An act whose context has other keys is refused, and the refusal
names these keys. -/
theorem emitting_is_all_or_nothing (s : Emitter) :
    (∀ act : Act, act.emits = true → act.HasTextKeys →
      ∃ e t, act.event? = some e ∧ s.perform act = .ok t ∧ s.Emits e t) ∧
    (∀ acts : List Act, (∀ act ∈ acts, act.HasTextKeys) →
      ∃ u, acts.foldlM perform s = .ok u ∧
        ∀ l bytes, u.files.bytesAt? l = some bytes → Lasts l s acts u bytes) ∧
    ∀ act : Act, ¬ act.HasTextKeys →
      ∃ paths, s.perform act = .error (.invalidFields paths) ∧ ∀ path, path ∈ paths ↔
        ∃ entry ∈ act.context, (∀ name, entry.1 ≠ .text name) ∧ Event.keyPath entry.1 = path := by
  refine ⟨fun act hEmits hKeys => ?_, fun acts hKeys => exists_run hKeys s,
    fun act hOther => perform_of_other_keys hOther s⟩
  obtain ⟨e, hEvent, hPerform⟩ := perform_of_hasTextKeys hEmits hKeys
  exact ⟨e, s.emit e, hEvent, hPerform s, emits_emit s e⟩

/-- A log in the working directory. -/
def nearLog : EventLog := { directory := ⟨"", ["l"]⟩ }

/-- A log whose directory has the name of the file of `nearLog`. -/
def blockingLog : EventLog := { directory := nearLog.path }

def atRest : Emitter := { files := {} }

def sampleEvent : Event where
  time := ""
  level := .error
  type := .formulaFailed
  context := [("formula", .text "=1")]

theorem exists_text_sampleEvent : ∃ body, Json.write .line 0 sampleEvent.cut.toValue = .ok body := by
  have hContext : (Event.dictionary sampleEvent.cut.context).IsPlain :=
    .dictionary (by decide) (List.forall_mem_singleton.mpr (.text _))
  have hPlain : sampleEvent.cut.IsPlain := ⟨hContext, by decide⟩
  obtain ⟨body, hText, -⟩ := Json.readsBack_of_isPlain hPlain.toValue 0
  exact ⟨body, hText⟩

/-- An event whose context has a number for a key. -/
def otherKeyAct : Act := .info "" .cellError "m" (some [(.int 1, .text "a")])

theorem not_hasTextKeys_otherKeyAct : ¬ otherKeyAct.HasTextKeys := by
  intro h
  obtain ⟨name, hName⟩ := h (.int 1, .text "a") List.mem_cons_self
  cases hName

/-- The first event of a log whose directory was just made, and an event that is refused. -/
theorem emitting_is_all_or_nothing_first : (∃ u : Emitter,
    [.sendTo (some nearLog), .emit sampleEvent].foldlM perform atRest = .ok u ∧
    u.files.bytesAt? ["l", "events.ndjson"] = some (EventLog.lineBytes sampleEvent.cut) ∧
    Lasts ["l", "events.ndjson"] atRest [.sendTo (some nearLog), .emit sampleEvent] u
      (EventLog.lineBytes sampleEvent.cut)) ∧
    ∃ paths, atRest.perform otherKeyAct = .error (.invalidFields paths) ∧
      "context.1.[key]" ∈ paths := by
  have hKeys : ∀ act ∈ [Act.sendTo (some nearLog), .emit sampleEvent], act.HasTextKeys := by
    simp only [List.forall_mem_cons]
    exact ⟨List.forall_mem_nil _, List.forall_mem_nil _, List.forall_mem_nil _⟩
  obtain ⟨u, hRun, hLasts⟩ := (emitting_is_all_or_nothing atRest).2.1 _ hKeys
  obtain ⟨e, t, hEvent, hPerform, hEmits⟩ := (emitting_is_all_or_nothing
    (atRest.sendTo (some nearLog)).1).1 (.emit sampleEvent) rfl (List.forall_mem_nil _)
  cases hEvent
  obtain rfl : t = u := Except.ok.inj (hPerform.symm.trans hRun)
  have hAccepts : (atRest.sendTo (some nearLog)).1.Accepts sampleEvent ["l", "events.ndjson"] := by
    refine ⟨⟨nearLog, rfl, (Files.offers_iff isFileName_fileName).mpr ⟨?_, ?_⟩⟩,
      exists_text_sampleEvent⟩ <;> rfl
  have hBytes : t.files.bytesAt? ["l", "events.ndjson"] =
      some (EventLog.lineBytes sampleEvent.cut) := by
    rcases hEmits.bytesAt? ["l", "events.ndjson"] with ⟨-, hGain⟩ | ⟨hRefused, -⟩
    · exact hGain
    · exact absurd hAccepts hRefused
  obtain ⟨paths, hRefused, hPaths⟩ :=
    (emitting_is_all_or_nothing atRest).2.2 otherKeyAct not_hasTextKeys_otherKeyAct
  have hPath : Event.keyPath (.int 1) = "context.1.[key]" := by cbv
  have hOther : ∀ name, Key.int 1 ≠ .text name := by
    intro name hName
    cases hName
  have hNamed : "context.1.[key]" ∈ paths :=
    (hPaths _).mpr ⟨_, List.mem_cons_self, hOther, hPath⟩
  exact ⟨⟨t, hRun, hBytes, hLasts _ _ hBytes⟩, paths, hRefused, hNamed⟩

/-- No line is added where a directory has taken the name of the file, though there is a log, its
directory is there and the event can be written. A context with a key that is no text is refused. -/
theorem taken_names_and_other_keys : (∃ s,
    [Act.sendTo (some blockingLog), .sendTo (some nearLog)].foldlM perform atRest = .ok s ∧
      s.log = some nearLog ∧ s.files.find nearLog.directory = .ok .directory ∧
      (∃ body, Json.write .line 0 sampleEvent.cut.toValue = .ok body) ∧
      s.perform (.emit sampleEvent) = .ok s) ∧
    atRest.perform otherKeyAct = .error (.invalidFields ["context.1.[key]"]) := by
  set s := ((atRest.sendTo (some blockingLog)).1.sendTo (some nearLog)).1 with hs
  have hRefused : ∀ place, ¬ s.Accepts sampleEvent place := by
    intro place hAccepts
    obtain ⟨log, hLog, hOffers⟩ := hAccepts.place
    obtain rfl : nearLog = log := Option.some.inj hLog
    have hLocated : s.files.locate nearLog.path = .ok ["l", "events.ndjson"] := by rfl
    have hTaken : s.files.isDirectory ["l", "events.ndjson"] = true := by rfl
    obtain ⟨hPlace, hVacant⟩ := (Files.offers_iff isFileName_fileName).mp hOffers
    cases hLocated.symm.trans hPlace
    rw [hTaken] at hVacant
    cases hVacant
  refine ⟨⟨s, by rfl, by rfl, by rfl, exists_text_sampleEvent, ?_⟩, by cbv⟩
  exact congrArg Except.ok ((emits_emit s sampleEvent).eq_of_refused hRefused)

end Emitter
end Spreadsheet
