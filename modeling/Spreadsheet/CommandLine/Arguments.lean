/-!
# Arguments of a command

Options start with dashes and are given with a value, either in the same argument after an equals
sign or as the next argument, or without one. Everything else is positional, and so is all that
comes after two dashes alone.
-/

set_option autoImplicit false

namespace Spreadsheet.CommandLine

/-- An option that a command knows. -/
structure OptionKind where
  name : String
  takesValue : Bool

/-- Arguments sorted into options and the rest. -/
structure Arguments where
  /-- The options in order, with the value of those that take one. -/
  options : List (String × Option String) := []
  positional : List String := []

namespace Arguments

/-- Splits an argument at its first equals sign. -/
def splitValue (argument : String) : String × Option String :=
  let name := argument.toList.takeWhile (· != '=')
  match argument.toList.drop name.length with
  | _ :: value => (String.ofList name, some (String.ofList value))
  | [] => (argument, none)

def isOption (argument : String) : Bool :=
  match argument.toList with
  | '-' :: _ :: _ => true
  | _ => false

def withOption (name : String) (value : Option String) (a : Arguments) : Arguments :=
  { a with options := (name, value) :: a.options }

def withPositional (argument : String) (a : Arguments) : Arguments :=
  { a with positional := argument :: a.positional }

/-- Sorts arguments; there are none to sort if an option is unknown or wrongly given. Unless options
may stand anywhere, they end at the first positional argument. -/
def sort (kinds : List OptionKind) (anywhere : Bool) : List String → Option Arguments
  | [] => some {}
  | argument :: rest =>
    if argument == "--" then some { positional := rest }
    else if !isOption argument then
      if anywhere then (sort kinds anywhere rest).map (withPositional argument)
      else some { positional := argument :: rest }
    else
      let (name, value) := splitValue argument
      match kinds.find? (·.name == name) with
      | none => none
      | some kind =>
        if kind.takesValue then
          match value, rest with
          | some value, rest => (sort kinds anywhere rest).map (withOption name (some value))
          | none, value :: rest => (sort kinds anywhere rest).map (withOption name (some value))
          | none, [] => none
        else if value.isSome then none
        else (sort kinds anywhere rest).map (withOption name none)

/-- Whether an option is given. -/
def has (a : Arguments) (name : String) : Bool := a.options.any (·.1 == name)

/-- The value that an option is given last. -/
def value? (a : Arguments) (name : String) : Option String :=
  (a.options.reverse.lookup name).join

end Arguments
end Spreadsheet.CommandLine
