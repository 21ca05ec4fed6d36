import Spreadsheet.EventLog

/-!
# Where events go

Events are sent to the log that was named last, or nowhere. Naming a log makes its directory;
whether an event can be added to it is seen each time one is emitted, and an event that cannot be
added is dropped.
-/

set_option autoImplicit false

namespace Spreadsheet

structure Emitter where
  files : Files
  /-- The log that events are sent to. -/
  log : Option EventLog := none

namespace Emitter

/-- Sends events to a log from now on, or nowhere. They go on to the log before when the directory
of the new one cannot be made. -/
def sendTo (s : Emitter) : Option EventLog → Emitter × Option FileFault
  | none => ({ s with log := none }, none)
  | some log =>
    match log.opened s.files with
    | (files, none) => (⟨files, some log⟩, none)
    | (files, some fault) => ({ s with files := files }, some fault)

def emit (s : Emitter) (e : Event) : Emitter := { s with files := EventLog.emit s.log s.files e }

/-- Emits the event that a dictionary of its fields describes. -/
def emitFields (s : Emitter) (now : String) (fields : List (Key × Value)) :
    Except EventFault Emitter :=
  return s.emit (← Event.ofFields now fields)

/-- The fields of an event of a level; a context that is missing stays empty. -/
def levelFields (level : EventLevel) (type message context code : Value) : List (Key × Value) :=
  [(.text "level", .text level.name), (.text "event_type", type), (.text "message", message),
    (.text "context", if context.isTruthy then context else .dict []), (.text "error_code", code)]

def info (s : Emitter) (now : String) (type message context : Value) : Except EventFault Emitter :=
  s.emitFields now (levelFields .info type message context .null)

def warning (s : Emitter) (now : String) (type message context code : Value) :
    Except EventFault Emitter :=
  s.emitFields now (levelFields .warning type message context code)

/-- Removes a directory, which may be the one of the log, with all it holds. -/
def remove (s : Emitter) (directory : Path) : Emitter :=
  { s with files := s.files.removeDirectory directory }

end Emitter
end Spreadsheet
