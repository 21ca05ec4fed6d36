import Spreadsheet.Event
import Spreadsheet.Json.Writer
import Spreadsheet.Proofs.Text.Order

/-!
# Plain values and the order of their fields

A plain value holds no doubles, and its dictionaries have texts for keys, none of them twice. Text
keys always have an order, so the fields of a plain value can be put in the order of their names,
which changes nothing but where they stand.
-/

set_option autoImplicit false

namespace Spreadsheet

/-- Nothing, truth values, whole numbers short enough to be written, texts, lists and dictionaries
whose keys are texts. -/
inductive Value.IsPlain : Value → Prop
  | null : Value.IsPlain .null
  | bool (b : Bool) : Value.IsPlain (.bool b)
  | int {n : Int} (h : Decimal.isWritable n = true) : Value.IsPlain (.int n)
  | text (s : String) : Value.IsPlain (.text s)
  | list {vs : List Value} (h : ∀ v ∈ vs, Value.IsPlain v) : Value.IsPlain (.list vs)
  | dictionary {fields : List (String × Value)} (hKeys : (fields.map (·.1)).Nodup)
      (h : ∀ field ∈ fields, Value.IsPlain field.2) : Value.IsPlain (Event.dictionary fields)

mutual

/-- The same value with the entries of every dictionary in key order. -/
def Value.inKeyOrder : Value → Value
  | .list vs => .list (Value.allInKeyOrder vs)
  | .dict es => .dict ((Value.entriesInKeyOrder es).mergeSort fun a b => !b.1.lt a.1)
  | v => v

def Value.allInKeyOrder : List Value → List Value
  | [] => []
  | v :: vs => v.inKeyOrder :: Value.allInKeyOrder vs

def Value.entriesInKeyOrder : List (Key × Value) → List (Key × Value)
  | [] => []
  | (k, v) :: es => (k, v.inKeyOrder) :: Value.entriesInKeyOrder es

end

/-- Fields in the order of their names. -/
def byName {α : Type} (fields : List (String × α)) : List (String × α) :=
  fields.mergeSort fun a b => !decide (b.1 < a.1)

section KeyOrder

variable {α β : Type} {fields : List (String × α)}

theorem perm_byName (fields : List (String × α)) : (byName fields).Perm fields :=
  List.mergeSort_perm fields _

theorem byName_map (f : α → β) (fields : List (String × α)) :
    byName (fields.map fun field => (field.1, f field.2)) =
      (byName fields).map fun field => (field.1, f field.2) := by
  rw [byName, byName, List.map_mergeSort]
  exact fun _ _ _ _ => rfl

theorem pairwise_byName (fields : List (String × α)) :
    (byName fields).Pairwise fun a b => a.1 ≤ b.1 := by
  have hTrans (a b c : String × α) (hab : (!decide (b.1 < a.1)) = true)
      (hbc : (!decide (c.1 < b.1)) = true) : (!decide (c.1 < a.1)) = true :=
    Text.notAfter_trans hab hbc
  have hTotal (a b : String × α) : (!decide (b.1 < a.1) || !decide (a.1 < b.1)) = true :=
    Text.notAfter_total a.1 b.1
  exact (List.pairwise_mergeSort hTrans hTotal fields).imp Text.notAfter_iff.mp

/-- Fields in strict order of their names are what every order of them is put into. -/
theorem byName_eq_of_perm {sorted : List (String × α)} (hPerm : sorted.Perm fields)
    (hSorted : (sorted.map (·.1)).Pairwise (· < ·)) : byName fields = sorted := by
  have hNodup : (sorted.map (·.1)).Nodup :=
    hSorted.imp fun hab => ne_of_lt hab
  have hWeak : sorted.Pairwise fun a b => a.1 ≤ b.1 :=
    (List.pairwise_map.mp hSorted).imp fun hab => le_of_lt hab
  have hBoth : (byName fields).Perm sorted := (perm_byName fields).trans hPerm.symm
  refine hBoth.eq_of_pairwise ?_ (pairwise_byName fields) hWeak
  intro a b ha hb hab hba
  exact List.inj_on_of_nodup_map hNodup (hBoth.mem_iff.mp ha) hb (String.le_antisymm hab hba)

theorem Value.allInKeyOrder_eq_map (vs : List Value) : allInKeyOrder vs = vs.map inKeyOrder := by
  induction vs with
  | nil => rw [allInKeyOrder, List.map_nil]
  | cons v vs ih => rw [allInKeyOrder, ih, List.map_cons]

theorem Value.entriesInKeyOrder_eq_map (es : List (Key × Value)) :
    entriesInKeyOrder es = es.map fun entry => (entry.1, entry.2.inKeyOrder) := by
  induction es with
  | nil => rw [entriesInKeyOrder, List.map_nil]
  | cons entry es ih => rw [entriesInKeyOrder, ih, List.map_cons]

theorem Value.inKeyOrder_dictionary (fields : List (String × Value)) :
    (Event.dictionary fields).inKeyOrder =
      Event.dictionary ((byName fields).map fun field => (field.1, field.2.inKeyOrder)) := by
  rw [Event.dictionary, inKeyOrder, Event.dictionary, ← byName_map, byName, List.map_mergeSort]
  · rw [entriesInKeyOrder_eq_map, List.map_map, List.map_map]
    rfl
  · exact fun _ _ _ _ => rfl

theorem Key.sortEntries_fields (fields : List (String × α)) :
    Key.sortEntries (fields.map fun field => (Key.text field.1, field.2)) =
      .ok ((byName fields).map fun field => (Key.text field.1, field.2)) := by
  have hOrdered : firstUnordered ((fields.map fun field => (Key.text field.1, field.2)).map (·.1)) =
      none := by
    rw [List.map_map]
    induction fields with
    | nil => rfl
    | cons field rest ih =>
      cases rest with
      | nil => rfl
      | cons next rest => exact ih
  rw [sortEntries, hOrdered, byName, List.map_mergeSort]
  exact fun _ _ _ _ => rfl

end KeyOrder

end Spreadsheet
