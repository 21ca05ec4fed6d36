import Spreadsheet.Address

/-!
# Formulas

The tree of a formula, its canonical text, and two further views of it: a dictionary for export and
a constructor notation for diagnosis. Literals and names keep their spelling.
-/

set_option autoImplicit false

namespace Spreadsheet

inductive Formula where
  /-- A text with the quotes it was written in. -/
  | text (quoted : String)
  | number (digits : String)
  | cell (address : String)
  | range (first last : String)
  | negative (operand : Formula)
  | call (function : String) (arguments : List Formula)
  | binary (operation : Number.Operation) (left right : Formula)
  deriving Inhabited

namespace Number.Operation

def symbol : Number.Operation → String
  | add => "+"
  | subtract => "-"
  | multiply => "*"
  | divide => "/"

def ofSymbol? (s : String) : Option Number.Operation :=
  if s == "+" then some add
  else if s == "-" then some subtract
  else if s == "*" then some multiply
  else if s == "/" then some divide
  else none

/-- Operations of a higher level bind tighter. -/
def level : Number.Operation → Nat
  | add => 1
  | subtract => 1
  | multiply => 2
  | divide => 2

def constructorName : Number.Operation → String
  | add => "AdditionNode"
  | subtract => "SubtractionNode"
  | multiply => "MultiplicationNode"
  | divide => "DivisionNode"

end Number.Operation

namespace Formula

mutual

/-- Whether two trees are the same, spelling included. -/
def same : Formula → Formula → Bool
  | text s, text t => s == t
  | number s, number t => s == t
  | cell s, cell t => s == t
  | range s s', range t t' => s == t && s' == t'
  | negative f, negative g => same f g
  | call s fs, call t gs => s == t && sameAll fs gs
  | binary o f f', binary o' g g' => o == o' && same f g && same f' g'
  | _, _ => false

def sameAll : List Formula → List Formula → Bool
  | [], [] => true
  | f :: fs, g :: gs => same f g && sameAll fs gs
  | _, _ => false

end

mutual

theorem same_iff (f g : Formula) : same f g = true ↔ f = g := by
  cases f <;> cases g <;> simp [same, same_iff, sameAll_iff, and_assoc]

theorem sameAll_iff (fs gs : List Formula) : sameAll fs gs = true ↔ fs = gs := by
  cases fs <;> cases gs <;> simp [sameAll, same_iff, sameAll_iff]

end

instance : DecidableEq Formula := fun f g => decidable_of_iff _ (same_iff f g)

def rangeText (first last : String) : String := Text.upper first ++ ":" ++ Text.upper last

mutual

/-- The canonical text: every operation in parentheses, addresses in upper case. -/
def render : Formula → String
  | text quoted => quoted
  | number digits => digits
  | cell address => Text.upper address
  | range first last => rangeText first last
  | negative operand => "(-" ++ operand.render ++ ")"
  | call function arguments =>
    function ++ "(" ++ String.intercalate ", " (renderAll arguments) ++ ")"
  | binary operation left right =>
    "(" ++ left.render ++ " " ++ operation.symbol ++ " " ++ right.render ++ ")"

def renderAll : List Formula → List String
  | [] => []
  | f :: fs => f.render :: renderAll fs

end

/-- One node in constructor notation, with its parts when it has any. -/
def nodeText (name value : String) (parts : List String) : String :=
  if parts.isEmpty then name ++ "(" ++ value ++ ")"
  else name ++ "(" ++ value ++ ", [" ++ String.intercalate ", " parts ++ "])"

mutual

/-- The tree in constructor notation. -/
def diagnose : Formula → String
  | text quoted => nodeText "StringNode" (Text.quoted quoted) []
  | number digits => nodeText "NumberNode" (Text.quoted digits) []
  | cell address => nodeText "CellNode" (Text.quoted address) []
  | range first last =>
    nodeText "CellRangeNode" ("(" ++ Text.quoted first ++ ", " ++ Text.quoted last ++ ")") []
  | negative operand => nodeText "NegativeNode" (Text.quoted "-") [operand.diagnose]
  | call function arguments =>
    nodeText "FunctionCallNode" (Text.quoted function) (diagnoseAll arguments)
  | binary operation left right =>
    nodeText operation.constructorName (Text.quoted operation.symbol)
      [left.diagnose, right.diagnose]

def diagnoseAll : List Formula → List String
  | [] => []
  | f :: fs => f.diagnose :: diagnoseAll fs

end

def exported (type : String) (value : Value) (parts : List Value) : Value :=
  .dict [(.text "type", .text type), (.text "value", value), (.text "children", .list parts)]

mutual

/-- The tree as nested dictionaries. -/
def toValue : Formula → Value
  | text quoted => exported "string" (.text quoted) []
  | number digits => exported "number" (.text digits) []
  | cell address => exported "cell" (.text address) []
  | range first last => exported "cellRange" (.list [.text first, .text last]) []
  | negative operand => exported "negative" (.text "-") [operand.toValue]
  | call function arguments => exported "functionCall" (.text function) (toValues arguments)
  | binary operation left right =>
    exported "binaryOperator" (.text operation.symbol) [left.toValue, right.toValue]

def toValues : List Formula → List Value
  | [] => []
  | f :: fs => f.toValue :: toValues fs

end

end Formula
end Spreadsheet
