import Spreadsheet.Number.Literal
import Spreadsheet.Proofs.Json.Number
import Spreadsheet.Proofs.Number.Shortest

/-!
# The text of a double

The text of a finite double is a literal: digits, then a point with digits or an exponent or both. A
literal is read back in its parts, at the end of a text as well as before what closes a value, and
the layout of some digits spells the number that they have. So the text of a double is read as the
double.
-/

set_option autoImplicit false

namespace Spreadsheet

open Lexer

variable {ds cs rest : List Char}

namespace Decimal

theorem areDigits_padded (width n : Nat) : AreDigits (padded width n) :=
  areDigits_zeros (areDigits_digits n)

theorem ofDigits_padded (width n : Nat) : ofDigits (padded width n) = n := by
  rw [padded, ofDigits_zeros, ofDigits_digits]

theorem padded_ne_nil (width n : Nat) : padded width n ≠ [] :=
  List.append_ne_nil_of_right_ne_nil _ (digits_ne_nil n)

/-- The mark of a negative number. -/
def signText (negative : Bool) : List Char := if negative then ['-'] else []

/-- The text of a double without its sign: digits, then a point with digits or an exponent or
both. -/
structure Literal where
  whole : List Char
  decimals : List Char
  exponent : Option Int
  nonempty : whole ≠ []
  noSpare : whole = ['0'] ∨ whole.head? ≠ some '0'
  areWhole : AreDigits whole
  areDecimals : AreDigits decimals
  marked : decimals ≠ [] ∨ exponent.isSome

namespace Literal

def fractionText (l : Literal) : List Char := if l.decimals.isEmpty then [] else '.' :: l.decimals

def powerText (l : Literal) : List Char := l.exponent.elim [] exponentText

def text (l : Literal) : List Char := l.whole ++ (l.fractionText ++ l.powerText)

/-- The digits as one number. -/
def mantissa (l : Literal) : Nat := ofDigits (l.whole ++ l.decimals)

/-- The power of ten to multiply the number by. -/
def scale (l : Literal) : Int := l.exponent.getD 0 - l.decimals.length

theorem head?_fractionText (l : Literal) : ∀ c ∈ l.fractionText.head?, c = '.' := by
  rw [fractionText]
  split_ifs
  · nofun
  · rintro c ⟨⟩
    rfl

theorem head?_powerText (l : Literal) : ∀ c ∈ l.powerText.head?, c = 'e' := by
  rw [powerText]
  cases l.exponent with
  | none => nofun
  | some x =>
    rintro c ⟨⟩
    rfl

theorem drop_fractionText (l : Literal) : l.fractionText.drop 1 = l.decimals := by
  rw [fractionText]
  split_ifs with hEmpty
  · exact (List.isEmpty_iff.mp hEmpty).symm
  · rfl

theorem isDigit_or_eq_point {l : Literal} {c : Char} (h : c ∈ l.whole ++ l.fractionText) :
    isDigit c = true ∨ c = '.' := by
  rcases List.mem_append.mp h with hWhole | hFraction
  · exact .inl (l.areWhole c hWhole)
  · rw [fractionText] at hFraction
    split_ifs at hFraction
    · cases hFraction
    · rcases List.mem_cons.mp hFraction with rfl | hDecimal
      · exact .inr rfl
      · exact .inl (l.areDecimals c hDecimal)

theorem exists_text_eq_cons (l : Literal) : ∃ d r, l.text = d :: r ∧ isDigit d = true := by
  obtain ⟨d, r, hWhole⟩ := List.exists_cons_of_ne_nil l.nonempty
  refine ⟨d, r ++ (l.fractionText ++ l.powerText), ?_, l.areWhole d ?_⟩
  · rw [text, hWhole, List.cons_append]
  · rw [hWhole]
    exact List.mem_cons_self

/-- The characters of a literal. -/
theorem isDigit_or_mem_marks {l : Literal} {negative : Bool} {c : Char}
    (h : c ∈ signText negative ++ l.text) : isDigit c = true ∨ c ∈ ['-', '+', '.', 'e'] := by
  rw [text, List.mem_append, ← List.append_assoc, List.mem_append] at h
  rcases h with hSign | hNumber | hPower
  · rw [signText] at hSign
    split_ifs at hSign
    · obtain rfl := List.mem_singleton.mp hSign
      exact .inr (.head _)
    · cases hSign
  · exact (isDigit_or_eq_point hNumber).imp_right (by rintro rfl; decide)
  · rw [powerText] at hPower
    cases hExponent : l.exponent with
    | none =>
      rw [hExponent] at hPower
      cases hPower
    | some x =>
      rw [hExponent, Option.elim_some, exponentText, List.mem_cons, List.mem_cons] at hPower
      rcases hPower with rfl | rfl | hDigit
      · exact .inr (by decide)
      · exact .inr (by split_ifs <;> decide)
      · exact .inl (areDigits_padded 2 x.natAbs c hDigit)

theorem isMarked (l : Literal) : (l.fractionText.isEmpty && l.powerText.isEmpty) = false := by
  rw [Bool.and_eq_false_iff, List.isEmpty_eq_false_iff, List.isEmpty_eq_false_iff]
  rcases l.marked with hDecimals | hExponent
  · left
    rw [fractionText, if_neg (mt List.isEmpty_iff.mp hDecimals)]
    exact List.cons_ne_nil _ _
  · right
    obtain ⟨x, hx⟩ := Option.isSome_iff_exists.mp hExponent
    rw [powerText, hx]
    exact List.cons_ne_nil _ _

/-! ## Reading the literal -/

theorem signedInt?_exponent (x : Int) :
    signedInt? ((if x < 0 then '-' else '+') :: padded 2 x.natAbs) = some x := by
  have hNonempty : (padded 2 x.natAbs).isEmpty = false :=
    List.isEmpty_eq_false_iff.mpr (padded_ne_nil 2 x.natAbs)
  have hDigits : (padded 2 x.natAbs).all isDigit = true :=
    List.all_eq_true.mpr (areDigits_padded 2 x.natAbs)
  split_ifs with h
  all_goals simp only [signedInt?, splitSign, hNonempty, hDigits, ofDigits_padded, Bool.not_true,
    Bool.or_self, Bool.false_eq_true, if_false, if_true, Option.some.injEq]
  all_goals omega

theorem splitSign_text (l : Literal) (negative : Bool) :
    splitSign (signText negative ++ l.text) = (negative, l.text) := by
  cases negative with
  | true => rfl
  | false =>
    obtain ⟨d, r, hText, hDigit⟩ := l.exists_text_eq_cons
    rw [hText, signText, if_neg Bool.false_ne_true, List.nil_append,
      splitSign.eq_3 _ (by rintro _ ⟨⟩; cases hDigit) (by rintro _ ⟨⟩; cases hDigit)]

theorem splitExponent_text (l : Literal) :
    splitExponent l.text = some (l.whole ++ l.fractionText, l.exponent.getD 0) := by
  have hMantissa : l.text.takeWhile (fun c => c != 'e' && c != 'E') =
      l.whole ++ l.fractionText := by
    rw [text, ← List.append_assoc]
    apply takeWhile_run
    · intro c hc
      rw [Bool.and_eq_true, bne_iff_ne, bne_iff_ne]
      rcases isDigit_or_eq_point hc with hDigit | rfl
      · exact ⟨ne_of_isDigit hDigit rfl, ne_of_isDigit hDigit rfl⟩
      · decide
    · intro c hc
      rw [l.head?_powerText c hc]
      rfl
  rw [splitExponent, hMantissa, text, ← List.append_assoc, List.drop_left, powerText]
  cases l.exponent with
  | none => rfl
  | some x =>
    rw [Option.elim_some, exponentText]
    dsimp only
    rw [signedInt?_exponent]
    rfl

theorem float?_text (l : Literal) (negative : Bool) :
    float? (signText negative ++ l.text) =
      some (Binary64.ofDecimal negative l.mantissa l.scale) := by
  have hWhole : (l.whole ++ l.fractionText).takeWhile (· != '.') = l.whole := by
    apply takeWhile_run
    · exact fun c hc => bne_iff_ne.mpr (ne_of_isDigit (l.areWhole c hc) rfl)
    · intro c hc
      rw [l.head?_fractionText c hc]
      rfl
  have hNonempty : (l.whole ++ l.decimals).isEmpty = false :=
    List.isEmpty_eq_false_iff.mpr (List.append_ne_nil_of_left_ne_nil l.nonempty _)
  have hDigits : (l.whole ++ l.decimals).all isDigit = true :=
    List.all_eq_true.mpr (List.forall_mem_append.mpr ⟨l.areWhole, l.areDecimals⟩)
  rw [float?, splitSign_text]
  dsimp only
  rw [splitExponent_text]
  change (if _ then _ else _) = _
  dsimp only
  rw [hWhole, List.drop_left, l.drop_fractionText, hNonempty, hDigits]
  rfl

end Literal

end Decimal

namespace Json

open Decimal

theorem forall_head?_append {p : Char → Prop} (hFirst : ∀ c ∈ cs.head?, p c)
    (hRest : ∀ c ∈ rest.head?, p c) : ∀ c ∈ (cs ++ rest).head?, p c := by
  cases cs with
  | nil => exact hRest
  | cons c cs => exact hFirst

theorem fractionPart_append (l : Literal) (h : ∀ c ∈ rest.head?, isDigit c = false ∧ c ≠ '.') :
    fractionPart (l.fractionText ++ rest) = l.fractionText := by
  rw [Literal.fractionText]
  split_ifs with hEmpty
  · rw [List.nil_append]
    unfold fractionPart
    split
    · exact absurd rfl (h '.' rfl).2
    · rfl
  · rw [List.cons_append, fractionPart, takeWhile_run l.areDecimals fun c hc => (h c hc).1,
      if_neg hEmpty]

theorem exponentPart_append (l : Literal) (h : Closes rest) :
    exponentPart (l.powerText ++ rest) = l.powerText := by
  rw [Literal.powerText]
  cases l.exponent with
  | none => exact exponentPart_of_closes h
  | some x =>
    have hSign : exponentSign ((if x < 0 then '-' else '+') :: (padded 2 x.natAbs ++ rest)) =
        [if x < 0 then '-' else '+'] := by split_ifs <;> rfl
    have hRun := takeWhile_run (areDigits_padded 2 x.natAbs) (isDigit_of_closes h)
    rw [Option.elim_some, exponentText, List.cons_append, List.cons_append, exponentPart,
      if_pos (show ('e' == 'e' || 'e' == 'E') = true from rfl), hSign]
    change (if (List.takeWhile isDigit (padded 2 x.natAbs ++ rest)).isEmpty then [] else
      _ :: _ :: List.takeWhile isDigit (padded 2 x.natAbs ++ rest)) = _
    rw [hRun, if_neg (mt List.isEmpty_iff.mp (padded_ne_nil 2 x.natAbs))]

theorem number_text (l : Literal) (negative : Bool) (hRest : Closes rest) :
    number (signText negative ++ l.text ++ rest) =
      .ok (.float (Binary64.ofDecimal negative l.mantissa l.scale), rest) := by
  have hSign : (if (signText negative ++ l.text ++ rest).head? == some '-' then ['-'] else []) =
      signText negative := by
    cases negative with
    | true => rfl
    | false =>
      obtain ⟨d, r, hText, hDigit⟩ := l.exists_text_eq_cons
      have hMinus : d ≠ '-' := ne_of_isDigit hDigit rfl
      rw [hText]
      exact if_neg (by simpa [signText] using hMinus)
  have hPower : ∀ c ∈ (l.powerText ++ rest).head?, isDigit c = false ∧ c ≠ '.' := by
    refine forall_head?_append (fun c hc => ?_) fun c hc => ?_
    · rw [l.head?_powerText c hc]
      decide
    · rcases hRest c hc with rfl | rfl | rfl <;> decide
  have hFraction : ∀ c ∈ (l.fractionText ++ (l.powerText ++ rest)).head?, isDigit c = false := by
    refine forall_head?_append (fun c hc => ?_) fun c hc => (hPower c hc).1
    rw [l.head?_fractionText c hc]
    rfl
  have hWhole := wholeDigits_append l.areWhole l.nonempty l.noSpare hFraction
  have hNonempty : l.whole.isEmpty = false := List.isEmpty_eq_false_iff.mpr l.nonempty
  have hFloat := l.float?_text negative
  rw [Literal.text, ← List.append_assoc, ← List.append_assoc] at hFloat
  rw [number, hSign, List.append_assoc, List.drop_left, Literal.text, List.append_assoc,
    List.append_assoc, hWhole, List.drop_left, fractionPart_append l hPower, List.drop_left,
    exponentPart_append l hRest, List.drop_left, hNonempty, l.isMarked, hFloat]
  rfl

end Json

namespace Decimal

/-! ## The layouts -/

theorem ofDigits_append_zeros (cs : List Char) (n : Nat) :
    ofDigits (cs ++ List.replicate n '0') = ofDigits cs * 10 ^ n := by
  induction n with
  | zero => simp
  | succ n ih =>
    rw [List.replicate_succ', ← List.append_assoc, ofDigits_append_singleton, ih, pow_succ]
    simp [mul_assoc]

theorem areDigits_replicate (n : Nat) : AreDigits (List.replicate n '0') := by
  intro c hc
  rw [List.eq_of_mem_replicate hc]
  rfl

theorem Literal.exists_positional {whole decimals : List Char} (hNonempty : whole ≠ [])
    (hNoSpare : whole = ['0'] ∨ whole.head? ≠ some '0') (hWhole : AreDigits whole)
    (hDecimals : AreDigits decimals) (hMarked : decimals ≠ []) :
    ∃ l : Literal, whole ++ '.' :: decimals = l.text ∧ l.mantissa = ofDigits (whole ++ decimals) ∧
      l.scale = -decimals.length := by
  refine ⟨⟨whole, decimals, none, hNonempty, hNoSpare, hWhole, hDecimals, .inl hMarked⟩, ?_, rfl,
    zero_sub _⟩
  rw [text, fractionText, if_neg (mt List.isEmpty_iff.mp hMarked), powerText, Option.elim_none,
    List.append_nil]

/-- A literal that spells digits with their decimal point at a place. -/
def Literal.Spells (l : Literal) (ds : List Char) (point : Int) : Prop :=
  (l.mantissa : ℚ) * 10 ^ l.scale = ofDigits ds * 10 ^ (point - ds.length)

variable {point : Int}

theorem exists_literal_before (hDigits : AreDigits ds) (hNonempty : ds ≠ []) (hPoint : point ≤ 0) :
    ∃ l : Literal, '0' :: '.' :: List.replicate (-point).toNat '0' ++ ds = l.text ∧
      l.Spells ds point := by
  obtain ⟨l, hText, hMantissa, hScale⟩ := Literal.exists_positional (List.cons_ne_nil '0' [])
    (.inl rfl) (areDigits_replicate 1)
    (List.forall_mem_append.mpr ⟨areDigits_replicate (-point).toNat, hDigits⟩)
    (List.append_ne_nil_of_right_ne_nil _ hNonempty)
  refine ⟨l, hText, ?_⟩
  have hSpelled : ofDigits (['0'] ++ (List.replicate (-point).toNat '0' ++ ds)) = ofDigits ds :=
    (ofDigits_zeros 1 _).trans (ofDigits_zeros _ _)
  rw [Literal.Spells, hMantissa, hScale, hSpelled, List.length_append, List.length_replicate]
  congr 2
  omega

theorem exists_literal_behind (hDigits : AreDigits ds) (hNonempty : ds ≠ [])
    (hNoSpare : ds.head? ≠ some '0') (hPoint : ds.length ≤ point.toNat) :
    ∃ l : Literal, ds ++ List.replicate (point.toNat - ds.length) '0' ++ ['.', '0'] = l.text ∧
      l.Spells ds point := by
  have hLength := List.length_pos_iff.mpr hNonempty
  have hZero : AreDigits ['0'] := areDigits_replicate 1
  obtain ⟨l, hText, hMantissa, hScale⟩ := Literal.exists_positional
    (List.append_ne_nil_of_left_ne_nil hNonempty (List.replicate (point.toNat - ds.length) '0'))
    (.inr (by rwa [List.head?_append_of_ne_nil _ hNonempty]))
    (List.forall_mem_append.mpr ⟨hDigits, areDigits_replicate _⟩) hZero (List.cons_ne_nil '0' [])
  refine ⟨l, hText, ?_⟩
  have hSpelled : ofDigits (ds ++ List.replicate (point.toNat - ds.length) '0' ++ ['0']) =
      ofDigits ds * 10 ^ (point.toNat - ds.length + 1) := by
    rw [List.append_assoc, ← List.replicate_succ', ofDigits_append_zeros]
  rw [Literal.Spells, hMantissa, hScale, hSpelled, Nat.cast_mul, Nat.cast_pow, Nat.cast_ofNat,
    mul_assoc, ← zpow_natCast, ← zpow_add₀ (by norm_num), List.length_singleton]
  congr 2
  push_cast
  omega

theorem exists_literal_between (hDigits : AreDigits ds) (hNonempty : ds ≠ [])
    (hNoSpare : ds.head? ≠ some '0') (hFirst : 0 < point) (hPoint : point.toNat < ds.length) :
    ∃ l : Literal, ds.take point.toNat ++ '.' :: ds.drop point.toNat = l.text ∧
      l.Spells ds point := by
  have hSome : point.toNat ≠ 0 := by omega
  have hWhole : AreDigits (ds.take point.toNat) := fun c hc => hDigits c (List.mem_of_mem_take hc)
  have hDecimals : AreDigits (ds.drop point.toNat) := fun c hc =>
    hDigits c (List.mem_of_mem_drop hc)
  obtain ⟨l, hText, hMantissa, hScale⟩ := Literal.exists_positional
    (mt List.take_eq_nil_iff.mp (not_or.mpr ⟨hSome, hNonempty⟩))
    (.inr (by rwa [List.head?_take, if_neg hSome])) hWhole hDecimals
    (mt List.drop_eq_nil_iff.mp (not_le.mpr hPoint))
  refine ⟨l, hText, ?_⟩
  rw [Literal.Spells, hMantissa, hScale, List.take_append_drop, List.length_drop]
  congr 2
  omega

/-- The layout of a number is a literal that spells it. -/
theorem exists_literal_write (hDigits : AreDigits ds) (hNonempty : ds ≠ [])
    (hNoSpare : ds.head? ≠ some '0') (point : Int) :
    ∃ l : Literal, fullLayout.write ds point = l.text ∧ l.Spells ds point := by
  unfold Layout.write
  dsimp only
  split_ifs with hPositional hBefore hBehind hMarks
  · exact exists_literal_before hDigits hNonempty hBefore
  · exact exists_literal_behind hDigits hNonempty hNoSpare hBehind
  · exact absurd rfl hMarks
  · exact exists_literal_between hDigits hNonempty hNoSpare (not_le.mp hBefore)
      (not_le.mp hBehind)
  · -- The place of the point is given by an exponent.
    cases ds with
    | nil => exact absurd rfl hNonempty
    | cons d r =>
      refine ⟨⟨[d], r, some (point - 1), List.cons_ne_nil _ _, .inr hNoSpare,
        List.forall_mem_singleton.mpr (hDigits d List.mem_cons_self),
        fun c hc => hDigits c (List.mem_cons_of_mem _ hc), .inr rfl⟩, ?_, ?_⟩
      · cases r <;> rfl
      · rw [Literal.Spells, Literal.mantissa, Literal.scale, List.singleton_append,
          List.length_cons, Option.getD_some, Nat.cast_succ]
        congr 2
        ring

/-! ## The full text -/

theorem exists_eq_trimZeros_append (cs : List Char) :
    ∃ n, cs = trimZeros cs ++ List.replicate n '0' := by
  set zeros := cs.reverse.takeWhile (· == '0') with hRun
  have hZeros : zeros = List.replicate zeros.length '0' := by
    refine List.eq_replicate_length.mpr fun c hc => ?_
    rw [hRun] at hc
    exact eq_of_beq (List.mem_takeWhile_imp (p := (· == '0')) hc)
  refine ⟨zeros.length, ?_⟩
  rw [trimZeros, ← List.reverse_replicate, ← hZeros, ← List.reverse_append, hRun,
    List.takeWhile_append_dropWhile, List.reverse_reverse]

/-- The digits of a number with their point moved, laid out without the zeros at their end. -/
theorem exists_literal_digits {c : Nat} (hc : c ≠ 0) (k : Int) :
    ∃ l : Literal, fullLayout.write (trimZeros (digits c)) ((digits c).length + k) = l.text ∧
      (l.mantissa : ℚ) * 10 ^ l.scale = c * 10 ^ k := by
  obtain ⟨n, hTrim⟩ := exists_eq_trimZeros_append (digits c)
  set ds := trimZeros (digits c)
  have hSpelled : c = ofDigits ds * 10 ^ n := by
    rw [← ofDigits_append_zeros, ← hTrim, ofDigits_digits]
  have hNonempty : ds ≠ [] := by
    intro hNone
    rw [hNone] at hSpelled
    exact hc (hSpelled.trans (Nat.zero_mul _))
  have hNoSpare : ds.head? ≠ some '0' := by
    have hFirst := head?_digits_ne_zero (Nat.pos_of_ne_zero hc)
    rwa [hTrim, List.head?_append_of_ne_nil _ hNonempty] at hFirst
  have hDigits : AreDigits ds := by
    intro d hd
    apply areDigits_digits c
    rw [hTrim]
    exact List.mem_append_left _ hd
  obtain ⟨l, hText, hValue⟩ := exists_literal_write hDigits hNonempty hNoSpare
    ((digits c).length + k)
  refine ⟨l, hText, hValue.trans ?_⟩
  have hPlace : ((digits c).length : Int) + k - ds.length = n + k := by
    rw [hTrim, List.length_append, List.length_replicate]
    push_cast
    ring
  rw [hPlace, zpow_add₀ (by norm_num), ← mul_assoc, zpow_natCast]
  congr 1
  exact_mod_cast hSpelled.symm

variable {x : Float} {negative : Bool} {m : Nat} {e : Int}

/-- The text of a finite double is a literal that is read as it. -/
theorem exists_literal_floatText (h : Binary64.decode x = .finite negative m e) :
    ∃ l : Literal, (floatText x).toList = signText negative ++ l.text ∧
      Binary64.ofDecimal negative l.mantissa l.scale = x := by
  obtain ⟨hDouble, hEncode⟩ := Binary64.encode_of_decode h
  have hSigned (cs : List Char) : (signed negative cs).toList = signText negative ++ cs := by
    cases negative <;> exact String.toList_ofList
  rw [floatText, h]
  dsimp only
  split_ifs with hZero
  · obtain rfl := eq_of_beq hZero
    obtain rfl := hDouble.normal (by decide)
    obtain ⟨l, hText, hMantissa, -⟩ := Literal.exists_positional (List.cons_ne_nil '0' [])
      (.inl rfl) (areDigits_replicate 1) (areDigits_replicate 1) (List.cons_ne_nil '0' [])
    refine ⟨l, (hSigned _).trans (congrArg _ hText), ?_⟩
    have hNone : ofDigits (['0'] ++ List.replicate 1 '0') = 0 := rfl
    rw [hMantissa, hNone, ← hEncode, Binary64.ofDecimal]
    exact if_pos rfl
  · have hm : m ≠ 0 := fun hNone => hZero (beq_iff_eq.mpr hNone)
    have hRounds := shortest_roundsTo hDouble hm
    have hNonzero : (shortest m e).1 ≠ 0 := by
      intro hNone
      have hPositive := hRounds.pos hm
      rw [hNone, Nat.cast_zero, zero_mul] at hPositive
      exact hPositive.false
    obtain ⟨l, hText, hValue⟩ := exists_literal_digits hNonzero (shortest m e).2
    refine ⟨l, (hSigned _).trans (congrArg _ hText), ?_⟩
    rw [← hValue] at hRounds
    rw [Binary64.ofDecimal_eq hDouble hm hRounds, hEncode]

end Decimal
end Spreadsheet
