import Spreadsheet.Value

/-!
# The order of dictionary keys

Texts are ordered by their characters and numbers by size. A text has no order with a number, and
the null key has none with any other, so not every dictionary can be listed in key order.
-/

set_option autoImplicit false

namespace Spreadsheet

/-- The message about two keys of types that have no order. -/
def unorderedMessage (a b : Key) : String :=
  "'<' not supported between instances of '" ++ a.toValue.typeName ++ "' and '" ++
    b.toValue.typeName ++ "'"

namespace Key

/-- Whether two keys can be put in order. -/
def comparable (a b : Key) : Bool :=
  match a, b with
  | text _, text _ => true
  | a, b => a.number?.isSome && b.number?.isSome

def lt (a b : Key) : Bool :=
  match a, b with
  | text s, text t => s < t
  | a, b =>
    match a.number?, b.number? with
    | some x, some y => x.lt y
    | _, _ => false

/-- The first key that has no order with the key before it, and that one. -/
def firstUnordered : List Key → Option (Key × Key)
  | a :: b :: ks => if comparable b a then firstUnordered (b :: ks) else some (b, a)
  | _ => none

/-- Entries in the order of their keys, if all keys have an order among them. -/
def sortEntries {α : Type} (entries : List (Key × α)) : Except (Key × Key) (List (Key × α)) :=
  match firstUnordered (entries.map (·.1)) with
  | some pair => .error pair
  | none => .ok (entries.mergeSort fun a b => !b.1.lt a.1)

/-- Keys in order, if they have one. -/
def sort (keys : List Key) : Except (Key × Key) (List Key) :=
  match firstUnordered keys with
  | some pair => .error pair
  | none => .ok (keys.mergeSort fun a b => !b.lt a)

end Key

end Spreadsheet
