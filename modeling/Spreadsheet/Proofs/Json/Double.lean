import Spreadsheet.Proofs.Json.OneLine
import Spreadsheet.Proofs.Json.RoundTrip
import Spreadsheet.Proofs.Number.FloatText

/-!
# Doubles that are written and read back

A double is written in digits that read back as it, or as a word, so any value that JSON has a form
for is read back from its text.
-/

set_option autoImplicit false

namespace Spreadsheet

/-- A value that JSON has a form for: as a plain value, but with doubles. -/
inductive Value.IsJson : Value → Prop
  | null : Value.IsJson .null
  | bool (b : Bool) : Value.IsJson (.bool b)
  | int {n : Int} (h : Decimal.isWritable n = true) : Value.IsJson (.int n)
  | float (x : Float) : Value.IsJson (.float x)
  | text (s : String) : Value.IsJson (.text s)
  | list {vs : List Value} (h : ∀ v ∈ vs, Value.IsJson v) : Value.IsJson (.list vs)
  | dictionary {fields : List (String × Value)} (hKeys : (fields.map (·.1)).Nodup)
      (h : ∀ field ∈ fields, Value.IsJson field.2) : Value.IsJson (Event.dictionary fields)

namespace Json

open Decimal

theorem isTextOf_literal (l : Literal) (negative : Bool) :
    IsTextOf (signText negative ++ l.text)
      (.float (Binary64.ofDecimal negative l.mantissa l.scale)) where
  plain := by
    have hMarks : ∀ c ∈ ['-', '+', '.', 'e'], Text.IsPlain c := by
      simp only [List.forall_mem_cons]
      exact ⟨by decide, by decide, by decide, by decide, List.forall_mem_nil _⟩
    intro c hc
    rcases Literal.isDigit_or_mem_marks hc with hDigit | hMark
    · exact isPlain_of_isDigit hDigit
    · exact hMarks c hMark
  opens := by
    obtain ⟨d, r, hText, hDigit⟩ := l.exists_text_eq_cons
    rw [hText]
    cases negative with
    | false => exact opens_of_isDigit hDigit r
    | true => exact ⟨'-', d :: r, rfl, rfl, by decide, by decide⟩
  ends := by
    have hMarks : ∀ c ∈ ['-', '+', '.', 'e'], c ≠ ' ' := by
      simp only [List.forall_mem_cons]
      exact ⟨by decide, by decide, by decide, by decide, List.forall_mem_nil _⟩
    intro c hc
    rcases Literal.isDigit_or_mem_marks (List.mem_of_getLast? hc) with hDigit | hMark
    · exact ne_of_isDigit hDigit rfl
    · exact hMarks c hMark
  reads := by
    intro fuel rest hFuel hRest
    obtain ⟨d, r, hText, hDigit⟩ := l.exists_text_eq_cons
    have hNumber := number_text l negative hRest
    rw [hText] at hFuel hNumber ⊢
    obtain ⟨fuel, rfl⟩ : ∃ n, fuel = n + 1 := Nat.exists_eq_succ_of_ne_zero (by
      rintro rfl
      cases negative <;> cases hFuel)
    rw [← hNumber]
    cases negative with
    | false => exact value_of_isDigit hDigit
    | true => exact value_of_minus hDigit

/-- The text of a double is read as the double. -/
theorem isTextOf_writeFloat (x : Float) : IsTextOf (writeFloat x) (.float x) := by
  rw [writeFloat]
  cases h : Binary64.decode x with
  | nan =>
    rw [← Binary64.nan_of_decode h]
    exact isTextOf_word (_, _) (.tail _ (.tail _ (.tail _ (.head _))))
  | infinite negative =>
    rw [← Binary64.infinity_of_decode h]
    cases negative with
    | false => exact isTextOf_word (_, _) (.tail _ (.tail _ (.tail _ (.tail _ (.head _)))))
    | true => exact isTextOf_word (_, _) (.tail _ (.tail _ (.tail _ (.tail _ (.tail _ (.head _))))))
  | finite negative m e =>
    obtain ⟨l, hText, hRead⟩ := Decimal.exists_literal_floatText h
    have hLiteral := isTextOf_literal l negative
    rwa [hRead, ← hText] at hLiteral

theorem readsBack_float (x : Float) : ReadsBack (.float x) := fun _ =>
  ⟨_, rfl, isTextOf_writeFloat x⟩

theorem readsBack_of_isJson {v : Value} (h : v.IsJson) : ReadsBack v := by
  induction h with
  | null => exact readsBack_of_isPlain .null
  | bool b => exact readsBack_of_isPlain (.bool b)
  | int h => exact readsBack_int h
  | float x => exact readsBack_float x
  | text s => exact readsBack_text s
  | list _ ih => exact readsBack_list ih
  | dictionary hKeys _ ih => exact readsBack_dictionary hKeys ih

end Json
end Spreadsheet
