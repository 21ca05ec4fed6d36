import Mathlib
import Spreadsheet.Event

/-!
# Cut contexts

Cutting a context changes nothing but its long texts: its keys and their order, the lengths of its
lists and all other values stay. A text that was cut is longer than the texts that are kept whole, but
cutting it again takes off the mark and puts it back, so a context is cut once and for all.
-/

set_option autoImplicit false

namespace Spreadsheet

mutual

/-- The value with each of its texts replaced; keys are left alone. -/
def Value.mapTexts (f : String → String) : Value → Value
  | .text s => .text (f s)
  | .list vs => .list (Value.mapAllTexts f vs)
  | .dict es => .dict (Value.mapEntryTexts f es)
  | v => v

def Value.mapAllTexts (f : String → String) : List Value → List Value
  | [] => []
  | v :: vs => v.mapTexts f :: Value.mapAllTexts f vs

def Value.mapEntryTexts (f : String → String) : List (Key × Value) → List (Key × Value)
  | [] => []
  | (k, v) :: es => (k, v.mapTexts f) :: Value.mapEntryTexts f es

end

mutual

/-- The texts in a value, in their order. Keys are none of them. -/
def Value.texts : Value → List String
  | .text s => [s]
  | .list vs => Value.allTexts vs
  | .dict es => Value.entryTexts es
  | _ => []

def Value.allTexts : List Value → List String
  | [] => []
  | v :: vs => v.texts ++ Value.allTexts vs

def Value.entryTexts : List (Key × Value) → List String
  | [] => []
  | (_, v) :: es => v.texts ++ Value.entryTexts es

end

namespace Value

/-- All of a value but what its texts say: its keys, its lists and its other values, each in its
place. -/
def outline (v : Value) : Value := v.mapTexts fun _ => ""

/-! ## Replaced texts -/

section MapTexts

variable (f g : String → String)

mutual

theorem mapTexts_mapTexts : ∀ v : Value, (v.mapTexts g).mapTexts f = v.mapTexts (f ∘ g)
  | .null | .bool _ | .int _ | .float _ | .text _ => rfl
  | .list vs => congrArg Value.list (mapAllTexts_mapAllTexts vs)
  | .dict es => congrArg Value.dict (mapEntryTexts_mapEntryTexts es)

theorem mapAllTexts_mapAllTexts :
    ∀ vs : List Value, mapAllTexts f (mapAllTexts g vs) = mapAllTexts (f ∘ g) vs
  | [] => rfl
  | v :: vs => congrArg₂ List.cons (mapTexts_mapTexts v) (mapAllTexts_mapAllTexts vs)

theorem mapEntryTexts_mapEntryTexts :
    ∀ es : List (Key × Value), mapEntryTexts f (mapEntryTexts g es) = mapEntryTexts (f ∘ g) es
  | [] => rfl
  | (k, v) :: es =>
    congrArg₂ List.cons (congrArg (Prod.mk k) (mapTexts_mapTexts v)) (mapEntryTexts_mapEntryTexts es)

end

mutual

theorem texts_mapTexts : ∀ v : Value, (v.mapTexts f).texts = v.texts.map f
  | .null | .bool _ | .int _ | .float _ | .text _ => rfl
  | .list vs => allTexts_mapAllTexts vs
  | .dict es => entryTexts_mapEntryTexts es

theorem allTexts_mapAllTexts :
    ∀ vs : List Value, allTexts (mapAllTexts f vs) = (allTexts vs).map f
  | [] => rfl
  | v :: vs => by
    rw [mapAllTexts, allTexts, allTexts, List.map_append, texts_mapTexts v, allTexts_mapAllTexts vs]

theorem entryTexts_mapEntryTexts :
    ∀ es : List (Key × Value), entryTexts (mapEntryTexts f es) = (entryTexts es).map f
  | [] => rfl
  | (k, v) :: es => by
    rw [mapEntryTexts, entryTexts, entryTexts, List.map_append, texts_mapTexts v,
      entryTexts_mapEntryTexts es]

end

theorem outline_mapTexts (v : Value) : (v.mapTexts f).outline = v.outline :=
  mapTexts_mapTexts (fun _ => "") f v

end MapTexts

/-! ## Cut texts -/

mutual

theorem cut_eq_mapTexts : ∀ v : Value, v.cut = v.mapTexts cutText
  | .null | .bool _ | .int _ | .float _ | .text _ => rfl
  | .list vs => congrArg Value.list (cutAll_eq_mapAllTexts vs)
  | .dict es => congrArg Value.dict (cutEntries_eq_mapEntryTexts es)

theorem cutAll_eq_mapAllTexts : ∀ vs : List Value, cutAll vs = mapAllTexts cutText vs
  | [] => rfl
  | v :: vs => congrArg₂ List.cons (cut_eq_mapTexts v) (cutAll_eq_mapAllTexts vs)

theorem cutEntries_eq_mapEntryTexts :
    ∀ es : List (Key × Value), cutEntries es = mapEntryTexts cutText es
  | [] => rfl
  | (k, v) :: es =>
    congrArg₂ List.cons (congrArg (Prod.mk k) (cut_eq_mapTexts v)) (cutEntries_eq_mapEntryTexts es)

end

end Value

/-- A text of at most 256 characters stays; of a longer one the first 256 stay, with a mark. -/
structure IsCutTo (s t : String) : Prop where
  short : s.length ≤ 256 → t = s
  long : 256 < s.length → t.toList = s.toList.take 256 ++ "...[truncated]".toList

theorem isCutTo_cutText (s : String) : IsCutTo s (cutText s) where
  short h := if_neg (not_lt.mpr h)
  long h := by
    rw [cutText, if_pos (show keptLength < s.toList.length from h), String.toList_ofList]
    rfl

theorem IsCutTo.length_le {s t : String} (h : IsCutTo s t) : t.length ≤ 270 := by
  rcases le_or_gt s.length 256 with hShort | hLong
  · rw [h.short hShort]
    omega
  · rw [← String.length_toList, h.long hLong, List.length_append, List.length_take]
    have hMark : "...[truncated]".toList.length = 14 := rfl
    omega

theorem cutText_cutText (s : String) : cutText (cutText s) = cutText s := by
  rcases le_or_gt s.length 256 with hShort | hLong
  · rw [(isCutTo_cutText s).short hShort, (isCutTo_cutText s).short hShort]
  · have hOnce := (isCutTo_cutText s).long hLong
    have hKept : (s.toList.take 256).length = 256 := by
      rw [List.length_take, String.length_toList]
      omega
    have hStillLong : 256 < (cutText s).length := by
      have hMark : "...[truncated]".toList.length = 14 := rfl
      rw [← String.length_toList, hOnce, List.length_append, hKept, hMark]
      decide
    -- The characters that are kept the second time are those that were kept the first time.
    apply String.toList_injective
    rw [(isCutTo_cutText _).long hStillLong, hOnce, List.take_left' hKept]

theorem Event.dictionary_cut (e : Event) :
    dictionary e.cut.context = (dictionary e.context).cut := by
  rw [dictionary, dictionary, Value.cut, cut]
  congr 1
  induction e.context with
  | nil => rfl
  | cons field fields ih => rw [List.map_cons, List.map_cons, List.map_cons, ih, Value.cutEntries]

/-- A context that is cut keeps its outline, each of its texts is kept or cut, none of them stays
long, and cutting it again changes nothing. Events are cut so. -/
theorem cut_context (context : List (Key × Value)) :
    (Value.dict context).cut.outline = (Value.dict context).outline ∧
      List.Forall₂ IsCutTo (Value.dict context).texts (Value.dict context).cut.texts ∧
      (∀ s ∈ (Value.dict context).cut.texts, s.length ≤ 270) ∧
      (Value.dict context).cut.cut = (Value.dict context).cut ∧
      ∀ e : Event, Event.dictionary e.cut.context = (Event.dictionary e.context).cut := by
  generalize Value.dict context = v
  have hTexts : v.cut.texts = v.texts.map cutText := by
    rw [v.cut_eq_mapTexts, Value.texts_mapTexts]
  refine ⟨?_, ?_, ?_, ?_, Event.dictionary_cut⟩
  · rw [v.cut_eq_mapTexts, Value.outline_mapTexts]
  · rw [hTexts, List.forall₂_map_right_iff, List.forall₂_same]
    exact fun s _ => isCutTo_cutText s
  · rw [hTexts, List.forall_mem_map]
    exact fun s _ => (isCutTo_cutText s).length_le
  · rw [v.cut_eq_mapTexts, Value.cut_eq_mapTexts, Value.mapTexts_mapTexts]
    congr 1
    exact funext cutText_cutText

end Spreadsheet
