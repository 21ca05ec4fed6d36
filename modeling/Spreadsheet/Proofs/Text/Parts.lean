import Spreadsheet.Proofs.Text.Plain

/-!
# Texts in parts

Bytes are read part by part where the second part starts with a character of seven bits: whatever was
cut off before it counts as cut off all the same. A text falls into the lines that are ended and the
line that is still open, and its lines are those of the two parts.
-/

set_option autoImplicit false

namespace Spreadsheet.Text

variable {b : UInt8} {c : Char} {cs ds l rest : List Char}

/-! ## Bytes in parts -/

theorem isTail_of_lt (h : b < 0x80) : isTail b = false := by
  have hValue := UInt8.lt_iff_toNat_lt.mp h
  simp only [isTail, Bool.and_eq_false_iff, decide_eq_false_iff_not, UInt8.le_iff_toNat_le]
  simp at hValue ⊢
  omega

theorem isSecond_of_lt (h : b < 0x80) (a : UInt8) : isSecond a b = false := by
  have hValue := UInt8.lt_iff_toNat_lt.mp h
  unfold isSecond
  split_ifs
  case neg => exact isTail_of_lt h
  all_goals
    simp only [Bool.and_eq_false_iff, decide_eq_false_iff_not, UInt8.le_iff_toNat_le]
    simp at hValue ⊢
    omega

/-- A byte of a single character ends whatever was begun before it. -/
theorem decodeUtf8_append (as bs : List UInt8) (h : b < 0x80) :
    decodeUtf8 (as ++ b :: bs) = decodeUtf8 as ++ decodeUtf8 (b :: bs) := by
  have hTail := isTail_of_lt h
  have hSecond := isSecond_of_lt h
  fun_induction decodeUtf8 as with
  | case1 => rw [List.nil_append, List.nil_append]
  | case11 | case16 | case17 | case18 | case19 | case20 =>
    -- The bytes before may be too few for a character, which asks for the next two bytes.
    cases bs <;> simp only [List.cons_append, List.nil_append] at * <;> rw [decodeUtf8.eq_def] <;>
      simp [*]
  | case21 =>
    rcases bs with _ | ⟨b₂, _ | ⟨b₃, bs⟩⟩ <;> simp only [List.cons_append, List.nil_append] <;>
      rw [decodeUtf8.eq_def] <;> simp [*]
  | _ =>
    simp only [List.cons_append, List.nil_append] at *
    rw [decodeUtf8.eq_def]
    simp [*]

/-! ## Lines in parts -/

/-- Every character of the text at its end is a line break: the text is empty or its last line is
ended. -/
def IsEnded (cs : List Char) : Prop := ∀ c ∈ cs.getLast?, isLineBreak c = true

/-- The lines that are ended, with their breaks. -/
def endedPart (cs : List Char) : List Char := cs.rdropWhile fun c => !isLineBreak c

/-- What stands after the last line break. -/
def openLine (cs : List Char) : List Char := cs.rtakeWhile fun c => !isLineBreak c

def HasNoBreak (l : List Char) : Prop := ∀ c ∈ l, isLineBreak c = false

theorem endedPart_append_openLine (cs : List Char) : endedPart cs ++ openLine cs = cs :=
  List.rdropWhile_append_rtakeWhile

theorem isEnded_endedPart (cs : List Char) : IsEnded (endedPart cs) := by
  intro c hLast
  obtain ⟨hNonempty, rfl⟩ := List.mem_getLast?_eq_getLast hLast
  have hLast := List.rdropWhile_last_not _ cs hNonempty
  rwa [Bool.not_eq_true', Bool.not_eq_false] at hLast

theorem hasNoBreak_openLine (cs : List Char) : HasNoBreak (openLine cs) := fun c hc => by
  simpa using List.mem_rtakeWhile_imp hc

theorem ArePlain.hasNoBreak (h : ArePlain l) : HasNoBreak l := fun c hc => (h c hc).isLineBreak

theorem HasNoBreak.append (h : HasNoBreak l) (hMore : HasNoBreak ds) : HasNoBreak (l ++ ds) :=
  List.forall_mem_append.mpr ⟨h, hMore⟩

theorem splitLines_cons_of_not_break (h : isLineBreak c = false) :
    splitLines (c :: cs) = consFirst c (splitLines cs) := by
  have hReturn : c ≠ '\r' := by
    rintro rfl
    cases h
  rw [splitLines, h]
  · rfl
  · rintro _ rfl
    exact fun _ => hReturn rfl

theorem splitLines_of_hasNoBreak (h : HasNoBreak l) (hNonempty : l ≠ []) : splitLines l = [l] := by
  induction l with
  | nil => exact absurd rfl hNonempty
  | cons c l ih =>
    obtain ⟨hFirst, hRest⟩ := List.forall_mem_cons.mp h
    rw [splitLines_cons_of_not_break hFirst]
    cases l with
    | nil => rfl
    | cons d l => rw [ih hRest (List.cons_ne_nil d l), consFirst]

theorem splitLines_ended (h : HasNoBreak l) : splitLines (l ++ ['\n']) = [l] := by
  induction l with
  | nil => rfl
  | cons c l ih =>
    obtain ⟨hFirst, hRest⟩ := List.forall_mem_cons.mp h
    rw [List.cons_append, splitLines_cons_of_not_break hFirst, ih hRest, consFirst]

theorem IsEnded.tail (h : IsEnded (c :: cs)) : IsEnded cs := fun d hd =>
  h d (List.mem_getLast?_cons hd)

theorem consFirst_append {ls ls' : List (List Char)} (h : ls ≠ []) :
    consFirst c (ls ++ ls') = consFirst c ls ++ ls' := by
  obtain ⟨l, ls, rfl⟩ := List.exists_cons_of_ne_nil h
  rfl

theorem splitLines_cons_of_break (h : isLineBreak c = true)
    (hPair : c = '\r' → cs.head? ≠ some '\n') : splitLines (c :: cs) = [] :: splitLines cs := by
  rw [splitLines, if_pos h]
  rintro r rfl rfl
  exact hPair rfl rfl

theorem splitLines_ne_nil (h : cs ≠ []) : splitLines cs ≠ [] := by
  fun_cases splitLines cs with
  | case1 => exact absurd rfl h
  | case2 cs => exact List.cons_ne_nil _ _
  | case3 c cs hPair hBreak => exact List.cons_ne_nil _ _
  | case4 c cs hPair hBreak =>
    cases splitLines cs with
    | nil => exact List.cons_ne_nil _ _
    | cons l ls => exact List.cons_ne_nil _ _

theorem splitLines_append (hEnded : IsEnded cs) (hNext : ds.head? ≠ some '\n') :
    splitLines (cs ++ ds) = splitLines cs ++ splitLines ds := by
  fun_induction splitLines cs with
  | case1 => rfl
  | case2 cs ih => rw [List.cons_append, List.cons_append, splitLines, ih hEnded.tail.tail,
      List.cons_append]
  | case3 c cs hPair hBreak ih =>
    -- A carriage return at the end stays a break of its own, as no line feed comes next.
    rw [List.cons_append, splitLines_cons_of_break hBreak, ih hEnded.tail, List.cons_append]
    rintro rfl
    cases cs with
    | nil => exact hNext
    | cons d cs =>
      rintro hFeed
      cases hFeed
      exact hPair cs rfl rfl
  | case4 c cs hPair hBreak ih =>
    have hNotBreak : isLineBreak c = false := Bool.eq_false_iff.mpr hBreak
    have hNonempty : cs ≠ [] := by
      rintro rfl
      exact hBreak (hEnded c rfl)
    rw [List.cons_append, splitLines_cons_of_not_break hNotBreak, ih hEnded.tail,
      consFirst_append (splitLines_ne_nil hNonempty)]

end Spreadsheet.Text
