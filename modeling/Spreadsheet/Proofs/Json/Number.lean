import Spreadsheet.Json.Reader
import Spreadsheet.Json.Writer
import Spreadsheet.Proofs.Address.RoundTrip

/-!
# Whole numbers that are written and read back

A whole number ends where something closes it as a value. Neither a word nor a point or an exponent
can be taken for a part of it.
-/

set_option autoImplicit false

namespace Spreadsheet

open Lexer

namespace Decimal

theorem toList_intText (n : Int) :
    (intText n).toList = (if n < 0 then ['-'] else []) ++ digits n.natAbs := by
  unfold intText
  split_ifs <;> simp [natText]

/-- The digits of a number have no zero to spare. -/
theorem head?_digits_ne_zero {n : Nat} (h : 0 < n) : (digits n).head? ≠ some '0' := by
  induction n using Nat.strong_induction_on with
  | _ n ih =>
    rw [digits, Nat.toDigits_eq_if (by decide)]
    split_ifs with hSmall
    · interval_cases n <;> decide
    · rw [List.head?_append_of_ne_nil _ Nat.toDigits_ne_nil]
      exact ih (n / 10) (by omega) (by omega)

theorem digits_eq_zero_or (n : Nat) : digits n = ['0'] ∨ (digits n).head? ≠ some '0' := by
  rcases Nat.eq_zero_or_pos n with rfl | hPositive
  · exact .inl rfl
  · exact .inr (head?_digits_ne_zero hPositive)

theorem ne_of_isDigit {c d : Char} (h : isDigit d = true) (hc : isDigit c = false) : d ≠ c := by
  rintro rfl
  exact Bool.noConfusion (hc.symm.trans h)

theorem exists_digits_eq_cons (n : Nat) : ∃ d ds, digits n = d :: ds ∧ isDigit d = true := by
  obtain ⟨d, ds, hDigits⟩ := List.exists_cons_of_ne_nil (digits_ne_nil n)
  refine ⟨d, ds, hDigits, areDigits_digits n d ?_⟩
  rw [hDigits]
  exact List.mem_cons_self

theorem exists_toList_intText (n : Int) : ∃ d ds, isDigit d = true ∧
    ((intText n).toList = d :: ds ∨ (intText n).toList = '-' :: d :: ds) := by
  obtain ⟨d, ds, hDigits, hDigit⟩ := exists_digits_eq_cons n.natAbs
  refine ⟨d, ds, hDigit, ?_⟩
  rw [toList_intText, hDigits]
  split_ifs
  · exact .inr rfl
  · exact .inl rfl

end Decimal

namespace Json

variable {d : Char} {rest : List Char}

/-- What may come after a value: the mark between items, a closing bracket or nothing. -/
def Closes (rest : List Char) : Prop := ∀ c ∈ rest.head?, c = ',' ∨ c = ']' ∨ c = '\x7d'

theorem isDigit_of_closes (h : Closes rest) : ∀ c ∈ rest.head?, Decimal.isDigit c = false := by
  intro c hc
  rcases h c hc with rfl | rfl | rfl <;> rfl

/-- Digits without a zero to spare are the digits of a whole number, up to what is no digit. -/
theorem wholeDigits_append {ds : List Char} (hDigits : AreDigits ds) (hNonempty : ds ≠ [])
    (hNoSpare : ds = ['0'] ∨ ds.head? ≠ some '0')
    (h : ∀ c ∈ rest.head?, Decimal.isDigit c = false) : wholeDigits (ds ++ rest) = ds := by
  rcases hNoSpare with rfl | hNoSpare
  · rfl
  · rw [wholeDigits]
    · exact takeWhile_run hDigits h
    · intro r hr
      apply hNoSpare
      rw [← List.head?_append_of_ne_nil _ hNonempty, hr]
      rfl

theorem fractionPart_of_closes (h : Closes rest) : fractionPart rest = [] := by
  unfold fractionPart
  split
  · exact absurd (h '.' rfl) (by decide)
  · rfl

theorem exponentPart_of_closes (h : Closes rest) : exponentPart rest = [] := by
  unfold exponentPart
  split
  · rename_i e cs
    rcases h e rfl with rfl | rfl | rfl <;> rfl
  · rfl

theorem number_intText {n : Int} (h : Decimal.isWritable n = true) (hRest : Closes rest) :
    number ((Decimal.intText n).toList ++ rest) = .ok (.int n, rest) := by
  have hWhole := wholeDigits_append (Decimal.areDigits_digits n.natAbs) (Decimal.digits_ne_nil _)
    (Decimal.digits_eq_zero_or _) (isDigit_of_closes hRest)
  have hRead : Decimal.read (Decimal.digits n.natAbs) = .ok n.natAbs := by
    rw [Decimal.read, if_pos (of_decide_eq_true h), Decimal.ofDigits_digits]
  have hNonempty : (Decimal.digits n.natAbs).isEmpty = false :=
    List.isEmpty_eq_false_iff.mpr (Decimal.digits_ne_nil _)
  rw [Decimal.toList_intText]
  by_cases hNegative : n < 0
  · rw [if_pos hNegative, List.append_assoc, number]
    have hValue : -(n.natAbs : Int) = n := by omega
    simp only [List.cons_append, List.nil_append, List.head?_cons, beq_self_eq_true, if_true,
      List.length_singleton, List.drop_succ_cons, List.drop_zero, hWhole, List.drop_left,
      fractionPart_of_closes hRest, exponentPart_of_closes hRest, hNonempty, Bool.false_eq_true,
      if_false, List.isEmpty_nil, Bool.and_self, List.length_nil, hRead, List.isEmpty_cons, hValue]
  · rw [if_neg hNegative, List.nil_append, number]
    have hValue : (n.natAbs : Int) = n := by omega
    obtain ⟨d, ds, hDigits, hDigit⟩ := Decimal.exists_digits_eq_cons n.natAbs
    have hPlus : ((Decimal.digits n.natAbs ++ rest).head? == some '-') = false := by
      have hMinus : d ≠ '-' := Decimal.ne_of_isDigit hDigit rfl
      rw [hDigits, List.cons_append, List.head?_cons]
      simpa using hMinus
    simp only [List.nil_append, hPlus, Bool.false_eq_true, if_false, List.length_nil,
      List.drop_zero, hWhole, List.drop_left, fractionPart_of_closes hRest,
      exponentPart_of_closes hRest, hNonempty, List.isEmpty_nil, Bool.and_self, if_true, hRead,
      hValue]

theorem word?_of_isDigit (h : Decimal.isDigit d = true) (r : List Char) :
    word? (d :: r) = none ∧ word? ('-' :: d :: r) = none := by
  have hNot {c : Char} (hc : Decimal.isDigit c = false) : c ≠ d := (Decimal.ne_of_isDigit h hc).symm
  have hN := hNot (c := 'n') rfl
  have hT := hNot (c := 't') rfl
  have hF := hNot (c := 'f') rfl
  have hNan := hNot (c := 'N') rfl
  have hInfinity := hNot (c := 'I') rfl
  have hMinus := hNot (c := '-') rfl
  simp [word?, words, hN, hT, hF, hNan, hInfinity, hMinus]

theorem value_of_number {c : Char} {r : List Char} {fuel : Nat} (hQuote : c ≠ '"')
    (hList : c ≠ '[') (hDictionary : c ≠ '\x7b') (hWord : word? (c :: r) = none) :
    value (fuel + 1) (c :: r) = number (c :: r) := by
  rw [value, hWord, beq_eq_false_iff_ne.mpr hQuote, beq_eq_false_iff_ne.mpr hList,
    beq_eq_false_iff_ne.mpr hDictionary]
  rfl

theorem value_of_isDigit {r : List Char} {fuel : Nat} (h : Decimal.isDigit d = true) :
    value (fuel + 1) (d :: r) = number (d :: r) :=
  value_of_number (Decimal.ne_of_isDigit h rfl) (Decimal.ne_of_isDigit h rfl)
    (Decimal.ne_of_isDigit h rfl) (word?_of_isDigit h r).1

theorem value_of_minus {r : List Char} {fuel : Nat} (h : Decimal.isDigit d = true) :
    value (fuel + 1) ('-' :: d :: r) = number ('-' :: d :: r) :=
  value_of_number (by decide) (by decide) (by decide) (word?_of_isDigit h r).2

theorem value_intText {n : Int} {fuel : Nat} (h : Decimal.isWritable n = true)
    (hRest : Closes rest) :
    value (fuel + 1) ((Decimal.intText n).toList ++ rest) = .ok (.int n, rest) := by
  rw [← number_intText h hRest]
  obtain ⟨d, ds, hDigit, hText | hText⟩ := Decimal.exists_toList_intText n
  · rw [hText]
    exact value_of_isDigit hDigit
  · rw [hText]
    exact value_of_minus hDigit

end Json
end Spreadsheet
