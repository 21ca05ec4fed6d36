import Spreadsheet.Json.Reader
import Spreadsheet.Json.Writer
import Spreadsheet.Proofs.Text.Plain

/-!
# Texts that are written and read back

Whatever characters a text has, it is written in plain characters, and reading them gives the text.
-/

set_option autoImplicit false

namespace Spreadsheet

open Text

namespace Text

theorem hexValue?_hexDigit {n : Nat} (h : n < 16) : hexValue? (hexDigit n) = some n := by
  revert n
  decide

theorem isPlain_hexDigit {n : Nat} (h : n < 16) : IsPlain (hexDigit n) := by
  revert n
  decide

theorem arePlain_hexDigits (width n : Nat) : ArePlain (hexDigits width n) := by
  induction width generalizing n with
  | zero => exact arePlain_nil
  | succ width ih =>
    rw [hexDigits, arePlain_append, arePlain_cons]
    exact ⟨ih (n / 16), isPlain_hexDigit (Nat.mod_lt n (by decide)), arePlain_nil⟩

end Text

namespace Json

variable {c : Char} {n : Nat} {r : List Char}

/-! ## Units -/

theorem toNat_lt (c : Char) : c.toNat < 0x110000 := by
  rcases c.valid with hLow | ⟨-, hHigh⟩
  · exact Nat.lt_trans hLow (by decide)
  · exact hHigh

theorem unit?_hexDigits (h : n < 0x10000) (r : List Char) :
    unit? (hexDigits 4 n ++ r) = some (n, r) := by
  have hValue (k : Nat) : hexValue? (hexDigit (k % 16)) = some (k % 16) :=
    hexValue?_hexDigit (Nat.mod_lt k (by decide))
  simp only [hexDigits, List.nil_append, List.cons_append, unit?, List.mapM_cons, List.mapM_nil,
    hValue, Option.pure_def, Option.bind_eq_bind, Option.bind_some, List.foldl_cons,
    List.foldl_nil, Option.some.injEq, Prod.mk.injEq, and_true]
  omega

theorem isLeading_toNat (c : Char) : isLeading c.toNat = false := by
  rcases c.valid with hLow | ⟨hHigh, -⟩
  all_goals
    simp only [isLeading, Bool.and_eq_false_iff, decide_eq_false_iff_not, Char.toNat]
    omega

theorem isTrailing_toNat (c : Char) : isTrailing c.toNat = false := by
  rcases c.valid with hLow | ⟨hHigh, -⟩
  all_goals
    simp only [isTrailing, Bool.and_eq_false_iff, decide_eq_false_iff_not, Char.toNat]
    omega

theorem ofUnit_toNat (c : Char) (r : List Char) : ofUnit c.toNat r = some (c, r) := by
  unfold ofUnit
  rw [isLeading_toNat, isTrailing_toNat, Char.ofNat_toNat]
  rfl

/-- The two units of a character beyond sixteen bits are read together. -/
theorem ofUnit_pair (hWide : 0x10000 ≤ c.toNat) (r : List Char) :
    ofUnit (0xd800 + (c.toNat - 0x10000) / 0x400)
      (escapedUnit (0xdc00 + (c.toNat - 0x10000) % 0x400) ++ r) = some (c, r) := by
  have hLimit := toNat_lt c
  obtain ⟨m, hm⟩ := Nat.exists_eq_add_of_le hWide
  have hSub : c.toNat - 0x10000 = m := by omega
  have hLeading : isLeading (0xd800 + m / 0x400) = true := by
    simp only [isLeading, Bool.and_eq_true, decide_eq_true_eq]
    omega
  have hTrailing : isTrailing (0xdc00 + m % 0x400) = true := by
    simp only [isTrailing, Bool.and_eq_true, decide_eq_true_eq]
    omega
  have hBack : 0x10000 + (0xd800 + m / 0x400 - 0xd800) * 0x400 + (0xdc00 + m % 0x400 - 0xdc00) =
      c.toNat := by omega
  unfold ofUnit
  rw [hSub, if_pos hLeading]
  simp only [escapedUnit, List.cons_append]
  rw [unit?_hexDigits (by omega)]
  simp only [Option.bind_eq_bind, Option.bind_some, hTrailing, if_true, hBack, Char.ofNat_toNat,
    Option.pure_def]

/-! ## Characters -/

/-- What stands for a character between quotes. -/
inductive StandsFor (c : Char) : List Char → Prop
  | mark {m : Char} (h : (m, c) ∈ escapes) : StandsFor c ['\\', m]
  | itself (hQuote : c ≠ '"') (hSlash : c ≠ '\\') (h : IsPlain c) : StandsFor c [c]
  | unit (h : c.toNat < 0x10000) : StandsFor c (escapedUnit c.toNat)
  | pair (h : 0x10000 ≤ c.toNat) :
      StandsFor c (escapedUnit (0xd800 + (c.toNat - 0x10000) / 0x400) ++
        escapedUnit (0xdc00 + (c.toNat - 0x10000) % 0x400))

theorem escaped_standsFor (c : Char) : StandsFor c (escaped c) := by
  have hMark {m d : Char} (hd : (c == d) = true) (h : (m, d) ∈ escapes) :
      StandsFor c ['\\', m] := by
    obtain rfl := eq_of_beq hd
    exact .mark h
  simp only [escaped]
  split_ifs with hQuote hSlash hLine hReturn hTab hBack hForm hPlain hUnit
  · exact hMark hQuote (by decide)
  · exact hMark hSlash (by decide)
  · exact hMark hLine (by decide)
  · exact hMark hReturn (by decide)
  · exact hMark hTab (by decide)
  · exact hMark hBack (by decide)
  · exact hMark hForm (by decide)
  · rw [Bool.and_eq_true, decide_eq_true_eq, decide_eq_true_eq] at hPlain
    exact .itself (ne_of_beq_false (Bool.eq_false_iff.mpr hQuote))
      (ne_of_beq_false (Bool.eq_false_iff.mpr hSlash)) hPlain
  · exact .unit hUnit
  · exact .pair (Nat.le_of_not_lt hUnit)

theorem arePlain_escapedUnit (n : Nat) : ArePlain (escapedUnit n) := by
  rw [escapedUnit, arePlain_cons, arePlain_cons]
  exact ⟨by decide, by decide, arePlain_hexDigits 4 n⟩

theorem isPlain_of_mem_escapes {e : Char × Char} (h : e ∈ escapes) : IsPlain e.1 := by
  revert e
  decide

theorem StandsFor.arePlain {cs : List Char} (h : StandsFor c cs) : ArePlain cs := by
  cases h with
  | mark h =>
    rw [arePlain_cons, arePlain_cons]
    exact ⟨by decide, isPlain_of_mem_escapes h, arePlain_nil⟩
  | itself _ _ h => exact arePlain_cons.mpr ⟨h, arePlain_nil⟩
  | unit => exact arePlain_escapedUnit c.toNat
  | pair => exact arePlain_append.mpr ⟨arePlain_escapedUnit _, arePlain_escapedUnit _⟩

theorem textRest_unescaped (fuel : Nat) {cs : List Char} (h : unescaped cs = some (c, r)) :
    textRest (fuel + 1) ('\\' :: cs) = (textRest fuel r).map fun (cs, r) => (c :: cs, r) := by
  have hQuote : ('\\' == '"') = false := by decide
  rw [textRest, hQuote]
  simp only [Bool.false_eq_true, if_false, beq_self_eq_true, if_true, h, Option.bind_eq_bind,
    Option.bind_some]
  cases textRest fuel r <;> rfl

theorem unescaped_of_mem_escapes {e : Char × Char} (h : e ∈ escapes) (r : List Char) :
    unescaped (e.1 :: r) = some (e.2, r) := by
  have hEntry : e.1 ≠ 'u' ∧ escapes.lookup e.1 = some e.2 := by
    revert e
    decide
  rw [unescaped.eq_def]
  split
  · rename_i hMark
    exact absurd (List.head_eq_of_cons_eq hMark) hEntry.1
  · rename_i hMark
    obtain ⟨rfl, rfl⟩ := List.cons.inj hMark
    rw [hEntry.2]
    rfl
  · rename_i hMark
    cases hMark

theorem StandsFor.textRest_eq {cs : List Char} (h : StandsFor c cs) (fuel : Nat) (r : List Char) :
    textRest (fuel + 1) (cs ++ r) = (textRest fuel r).map fun (cs, r) => (c :: cs, r) := by
  cases h with
  | mark h => exact textRest_unescaped fuel (unescaped_of_mem_escapes h r)
  | itself hQuote hSlash h =>
    rw [List.singleton_append, textRest, beq_eq_false_iff_ne.mpr hQuote,
      beq_eq_false_iff_ne.mpr hSlash, if_neg Bool.false_ne_true, if_neg Bool.false_ne_true,
      if_neg (Nat.not_lt.mpr h.1)]
    cases textRest fuel r <;> rfl
  | unit h =>
    rw [escapedUnit, List.cons_append, List.cons_append]
    apply textRest_unescaped
    rw [unescaped, unit?_hexDigits h, Option.bind_eq_bind, Option.bind_some]
    exact ofUnit_toNat c r
  | pair h =>
    have hLimit := toNat_lt c
    have hLead : 0xd800 + (c.toNat - 0x10000) / 0x400 < 0x10000 := by omega
    rw [List.append_assoc, escapedUnit, List.cons_append, List.cons_append]
    apply textRest_unescaped
    rw [unescaped, unit?_hexDigits hLead, Option.bind_eq_bind, Option.bind_some]
    exact ofUnit_pair h r

/-! ## Texts -/

theorem StandsFor.ne_nil {cs : List Char} (h : StandsFor c cs) : cs ≠ [] := by
  cases h <;> simp [escapedUnit]

theorem length_le_flatMap_escaped (cs : List Char) : cs.length ≤ (cs.flatMap escaped).length := by
  induction cs with
  | nil => exact Nat.le_refl 0
  | cons c cs ih =>
    have hFirst := List.length_pos_iff.mpr (escaped_standsFor c).ne_nil
    rw [List.flatMap_cons, List.length_append, List.length_cons]
    omega

theorem textRest_flatMap_escaped (r : List Char) {cs : List Char} {fuel : Nat}
    (h : cs.length < fuel) : textRest fuel (cs.flatMap escaped ++ '"' :: r) = some (cs, r) := by
  obtain ⟨fuel, rfl⟩ := Nat.exists_eq_succ_of_ne_zero (Nat.ne_zero_of_lt h)
  induction cs generalizing fuel with
  | nil => rfl
  | cons c cs ih =>
    obtain ⟨fuel, rfl⟩ := Nat.exists_eq_succ_of_ne_zero (n := fuel) (by rintro rfl; simp at h)
    rw [List.flatMap_cons, List.append_assoc, (escaped_standsFor c).textRest_eq,
      ih fuel (Nat.lt_of_succ_lt_succ h)]
    rfl

theorem arePlain_writeText (s : String) : ArePlain (writeText s) := by
  rw [writeText, List.cons_append, arePlain_cons, arePlain_append, arePlain_cons]
  refine ⟨by decide, ?_, by decide, arePlain_nil⟩
  intro d hd
  obtain ⟨c, -, hc⟩ := List.mem_flatMap.mp hd
  exact (escaped_standsFor c).arePlain d hc

theorem writeText_append (s : String) (r : List Char) :
    writeText s ++ r = '"' :: (s.toList.flatMap escaped ++ '"' :: r) := by
  rw [writeText, List.cons_append, List.cons_append, List.append_assoc, List.singleton_append]

/-- A text is read back, if there is fuel for its characters. -/
theorem text_flatMap_escaped (s : String) (r : List Char) {fuel : Nat}
    (h : (writeText s).length ≤ fuel + 1) :
    text fuel (s.toList.flatMap escaped ++ '"' :: r) = .ok (s, r) := by
  have hFuel : s.toList.length < fuel := by
    have hLength := length_le_flatMap_escaped s.toList
    rw [writeText, List.length_append, List.length_cons, List.length_singleton] at h
    omega
  rw [text, textRest_flatMap_escaped r hFuel]
  exact congrArg (fun t => Except.ok (t, r)) String.ofList_toList

end Json
end Spreadsheet
