import Spreadsheet.Proofs.Json.Passage

/-!
# Texts behind a part of another

A dictionary that is written behind a part of another text, with no break between them, is not read,
and neither is that text: whatever the part is, together they are no value. Reading goes up to the
dictionary, which is then taken in whole where a value is expected, and something is still missing
behind it; or a text that the part left open swallows the first quote of the dictionary and ends
before its first name.
-/

set_option autoImplicit false

namespace Spreadsheet.Json

variable {body part marks cs r rest : List Char} {fuel : Nat}

/-- A dictionary that is read as a whole or not at all, and the first name of which starts with no
mark. -/
structure StandsAlone (body : List Char) : Prop where
  opens : ∃ c r, body = '\x7b' :: '"' :: c :: r ∧ isSpace c = false ∧ c ∉ [',', ':', ']', '\x7d']
  whole : ∀ fuel rest, PassesValue fuel body rest → rest = []

/-- What is left still ends in the whole dictionary. -/
def Keeps (body rest : List Char) : Prop := ∃ part, rest = part ++ body

theorem StandsAlone.skipSpaces_append (h : StandsAlone body) (part : List Char) :
    skipSpaces (part ++ body) = skipSpaces part ++ body := by
  obtain ⟨c, r, rfl, -⟩ := h.opens
  have hBrace : skipSpaces ('\x7b' :: '"' :: c :: r) = '\x7b' :: '"' :: c :: r := rfl
  rw [skipSpaces] at hBrace
  rw [skipSpaces, List.dropWhile_append, hBrace, skipSpaces]
  split_ifs with hEmpty
  · rw [List.isEmpty_iff.mp hEmpty, List.nil_append]
  · rfl

/-- Something without some marks is taken off the front. -/
def Leaves (marks cs rest : List Char) : Prop :=
  ∃ taken, cs = taken ++ rest ∧ ∀ c ∈ taken, c ∉ marks

theorem Leaves.trans (h : Leaves marks cs r) (h' : Leaves marks r rest) : Leaves marks cs rest := by
  obtain ⟨first, rfl, hFirst⟩ := h
  obtain ⟨second, rfl, hSecond⟩ := h'
  exact ⟨first ++ second, (List.append_assoc _ _ _).symm,
    List.forall_mem_append.mpr ⟨hFirst, hSecond⟩⟩

theorem Leaves.cons {c : Char} (hMark : c ∉ marks) (h : Leaves marks cs rest) :
    Leaves marks (c :: cs) rest := by
  obtain ⟨taken, rfl, hTaken⟩ := h
  exact ⟨c :: taken, rfl, List.forall_mem_cons.mpr ⟨hMark, hTaken⟩⟩

theorem Leaves.mono {marks' : List Char} (h : Leaves marks cs rest) (hMarks : marks' ⊆ marks) :
    Leaves marks' cs rest := by
  obtain ⟨taken, hCut, hTaken⟩ := h
  exact ⟨taken, hCut, fun c hc hMark => hTaken c hc (hMarks hMark)⟩

theorem StandsAlone.keeps_of_leaves (h : StandsAlone body) (hMarks : '\x7b' ∈ marks)
    (hLeaves : Leaves marks (part ++ body) rest) : Keeps body rest := by
  obtain ⟨taken, hCut, hTaken⟩ := hLeaves
  obtain ⟨c, r, rfl, -⟩ := h.opens
  rcases List.append_eq_append_iff.mp hCut with ⟨excess, rfl, hBody⟩ | ⟨left, -, hRest⟩
  · cases excess with
    | nil => exact ⟨[], hBody.symm⟩
    | cons d excess =>
      obtain rfl := List.head_eq_of_cons_eq hBody
      exact absurd hMarks (hTaken _ (List.mem_append_right part List.mem_cons_self))
  · exact ⟨left, hRest⟩

/-! ## Words and numbers -/

/-- The marks that no word and no number has. -/
def outerMarks : List Char := ['\x7b', '\\']

theorem forall_outerMarks {p : Char → Prop} (hBrace : p '\x7b') (hBackslash : p '\\') :
    ∀ c ∈ outerMarks, p c :=
  List.forall_mem_cons.mpr ⟨hBrace, List.forall_mem_singleton.mpr hBackslash⟩

/-- What comes first, without these marks. -/
structure IsFront (front cs : List Char) : Prop where
  isPrefix : front <+: cs
  unmarked : ∀ c ∈ front, c ∉ outerMarks

theorem IsFront.append {first second : List Char} (hFirst : IsFront first cs)
    (hSecond : IsFront second (cs.drop first.length)) : IsFront (first ++ second) cs where
  isPrefix := by
    obtain ⟨r, rfl⟩ := hFirst.isPrefix
    rw [List.drop_left] at hSecond
    exact (List.prefix_append_right_inj first).mpr hSecond.isPrefix
  unmarked := List.forall_mem_append.mpr ⟨hFirst.unmarked, hSecond.unmarked⟩

theorem IsFront.leaves {front : List Char} (h : IsFront front cs) :
    Leaves outerMarks cs (cs.drop front.length) :=
  ⟨front, (List.prefix_iff_eq_append.mp h.isPrefix).symm, h.unmarked⟩

theorem isFront_nil : IsFront [] cs := ⟨List.nil_prefix, List.forall_mem_nil _⟩

theorem isFront_cons {c : Char} {front : List Char} (hMark : c ∉ outerMarks)
    (h : IsFront front cs) : IsFront (c :: front) (c :: cs) where
  isPrefix := (List.prefix_cons_inj c).mpr h.isPrefix
  unmarked := List.forall_mem_cons.mpr ⟨hMark, h.unmarked⟩

theorem isFront_digits : IsFront (cs.takeWhile Decimal.isDigit) cs where
  isPrefix := List.takeWhile_prefix _
  unmarked c hMem hMark := by
    have hNone : ∀ c ∈ outerMarks, Decimal.isDigit c = false := forall_outerMarks rfl rfl
    cases (List.mem_takeWhile_imp hMem).symm.trans (hNone c hMark)

theorem isFront_sign : IsFront (if cs.head? == some '-' then ['-'] else []) cs := by
  split_ifs with hMinus
  · obtain ⟨r, rfl⟩ := List.head?_eq_some_iff.mp (beq_iff_eq.mp hMinus)
    exact isFront_cons (by decide) isFront_nil
  · exact isFront_nil

theorem isFront_wholeDigits : IsFront (wholeDigits cs) cs := by
  rw [wholeDigits.eq_def]
  split
  · exact isFront_cons (by decide) isFront_nil
  · exact isFront_digits

theorem isFront_fractionPart : IsFront (fractionPart cs) cs := by
  rw [fractionPart.eq_def]
  split
  · dsimp only
    split_ifs
    · exact isFront_nil
    · exact isFront_cons (by decide) isFront_digits
  · exact isFront_nil

theorem isFront_exponentSign : IsFront (exponentSign cs) cs := by
  rw [exponentSign.eq_def]
  split
  · exact isFront_cons (by decide) isFront_nil
  · exact isFront_cons (by decide) isFront_nil
  · exact isFront_nil

theorem isFront_exponentPart : IsFront (exponentPart cs) cs := by
  rw [exponentPart.eq_def]
  split
  · rename_i mark r
    dsimp only
    split_ifs with hMark
    · exact isFront_nil
    · have hOther : ∀ c ∈ outerMarks, (c == 'e' || c == 'E') = false := forall_outerMarks rfl rfl
      have hUnmarked : mark ∉ outerMarks := fun hMem => by
        rw [hOther mark hMem] at hMark
        cases hMark
      exact isFront_cons hUnmarked (isFront_exponentSign.append isFront_digits)
    · exact isFront_nil
  · exact isFront_nil

theorem leaves_of_number {v : Value} (h : number cs = .ok (v, rest)) :
    Leaves outerMarks cs rest := by
  have hSign : IsFront _ cs := isFront_sign
  simp only [number] at h
  generalize (if cs.head? == some '-' then ['-'] else []) = sign at h hSign
  have hLeaves : Leaves outerMarks cs _ := (hSign.leaves.trans isFront_wholeDigits.leaves).trans
    (isFront_fractionPart.leaves.trans isFront_exponentPart.leaves)
  split at h
  · cases h
  · split at h
    · split at h
      · cases h
        exact hLeaves
      · cases h
    · split at h
      · cases h
        exact hLeaves
      · cases h

theorem leaves_of_word? {v : Value} (h : word? cs = some (v, rest)) :
    Leaves outerMarks cs rest := by
  obtain ⟨⟨word, v'⟩, hWord, hFound⟩ := List.exists_of_findSome?_eq_some h
  have hWords : ∀ word ∈ words.map (·.1), '\x7b' ∉ word ∧ '\\' ∉ word := by decide
  simp only [Option.ite_none_right_eq_some] at hFound
  obtain ⟨hPrefix, hFound⟩ := hFound
  cases hFound
  obtain ⟨hBrace, hBackslash⟩ := hWords word (List.mem_map_of_mem hWord)
  have hNone : ∀ c ∈ outerMarks, c ∉ word := forall_outerMarks hBrace hBackslash
  exact IsFront.leaves ⟨List.isPrefixOf_iff_prefix.mp hPrefix, fun c hc hMark => hNone c hMark hc⟩

theorem leaves_of_passesPlain (h : PassesPlain cs rest) : Leaves outerMarks cs rest := by
  obtain ⟨v, hWord | ⟨-, hNumber⟩⟩ := h
  · exact leaves_of_word? hWord
  · exact leaves_of_number hNumber

/-! ## Texts -/

theorem exists_of_unit? {n : Nat} (h : unit? cs = some (n, r)) :
    ∃ a b c d, cs = a :: b :: c :: d :: r := by
  match cs with
  | [] => cases h
  | [_] => cases h
  | [_, _] => cases h
  | [_, _, _] => cases h
  | a :: b :: c :: d :: r' =>
    obtain ⟨ds, -, hUnit⟩ := Option.bind_eq_some_iff.mp h
    cases hUnit
    exact ⟨a, b, c, d, rfl⟩

theorem leaves_of_unit? {n : Nat} (h : unit? cs = some (n, rest)) :
    Leaves outerMarks cs rest := by
  obtain ⟨a, b, c, d, rfl⟩ := exists_of_unit? h
  obtain ⟨ds, hDigits, -⟩ := Option.bind_eq_some_iff.mp h
  refine ⟨[a, b, c, d], rfl, fun mark hMem hMark => ?_⟩
  -- The marks are no hexadecimal digits.
  have hNone : ∀ c ∈ outerMarks, Text.hexValue? c = none := forall_outerMarks rfl rfl
  have hFails : ∀ cs : List Char, mark ∈ cs → cs.mapM Text.hexValue? = none := by
    intro cs hMem
    induction cs with
    | nil => cases hMem
    | cons c cs ih =>
      rw [List.mapM_cons]
      rcases List.mem_cons.mp hMem with rfl | hMem
      · rw [hNone mark hMark]
        rfl
      · rw [ih hMem]
        cases Text.hexValue? c <;> rfl
  cases (hFails _ hMem).symm.trans hDigits

theorem leaves_of_ofUnit {n : Nat} {c : Char} (h : ofUnit n cs = some (c, rest)) :
    Leaves ['\x7b'] cs rest := by
  have hSame : Leaves ['\x7b'] cs cs := ⟨[], rfl, List.forall_mem_nil _⟩
  rw [ofUnit.eq_def] at h
  split_ifs at h
  · split at h
    · rename_i r
      obtain ⟨⟨m, r'⟩, hUnit, h⟩ := Option.bind_eq_some_iff.mp h
      dsimp only at h
      split_ifs at h
      · obtain ⟨-, rfl⟩ := Prod.mk.inj (Option.some.inj h)
        have hDigits := (leaves_of_unit? hUnit).mono (List.cons_subset_cons _ (List.nil_subset _))
        exact (hDigits.cons (by decide)).cons (by decide)
      · obtain ⟨-, rfl⟩ := Prod.mk.inj (Option.some.inj h)
        exact hSame
    · obtain ⟨-, rfl⟩ := Prod.mk.inj (Option.some.inj h)
      exact hSame
  · obtain ⟨-, rfl⟩ := Prod.mk.inj (Option.some.inj h)
    exact hSame
  · obtain ⟨-, rfl⟩ := Prod.mk.inj (Option.some.inj h)
    exact hSame

theorem leaves_of_unescaped {c : Char} (h : unescaped cs = some (c, rest)) :
    Leaves ['\x7b'] cs rest := by
  rw [unescaped.eq_def] at h
  split at h
  · rename_i r
    obtain ⟨⟨n, r'⟩, hUnit, h⟩ := Option.bind_eq_some_iff.mp h
    have hDigits := (leaves_of_unit? hUnit).mono (List.cons_subset_cons _ (List.nil_subset _))
    exact (hDigits.trans (leaves_of_ofUnit h)).cons (by decide)
  · rename_i mark r _
    obtain ⟨c', hEscape, h⟩ := Option.map_eq_some_iff.mp h
    cases h
    refine ⟨[mark], rfl, List.forall_mem_singleton.mpr fun hBrace => ?_⟩
    rw [List.mem_singleton.mp hBrace] at hEscape
    cases hEscape
  · cases h

/-- A text that was left open ends within the dictionary, before its first name. -/
theorem StandsAlone.keeps_or_drop (h : StandsAlone body) {s : List Char}
    (hText : textRest fuel (part ++ body) = some (s, rest)) :
    Keeps body rest ∨ rest = body.drop 2 := by
  induction fuel generalizing part s with
  | zero => cases hText
  | succ fuel ih =>
    cases part with
    | nil =>
      -- The brace is taken for a part of the text, and the quote behind it ends the text.
      obtain ⟨c, r, rfl, -⟩ := h.opens
      cases fuel with
      | zero => cases hText
      | succ fuel =>
        cases hText
        exact .inr rfl
    | cons c part =>
      rw [List.cons_append, textRest] at hText
      split_ifs at hText
      · cases hText
        exact .inl ⟨part, rfl⟩
      · obtain ⟨⟨c', r'⟩, hEscape, hText⟩ := Option.bind_eq_some_iff.mp hText
        obtain ⟨part', rfl⟩ := h.keeps_of_leaves (by decide) (leaves_of_unescaped hEscape)
        obtain ⟨⟨s', r''⟩, hRest, hText⟩ := Option.bind_eq_some_iff.mp hText
        cases hText
        exact ih hRest
      · obtain ⟨⟨s', r'⟩, hRest, hText⟩ := Option.bind_eq_some_iff.mp hText
        cases hText
        exact ih hRest

theorem StandsAlone.passesText (h : StandsAlone body)
    (hText : PassesText fuel (part ++ body) rest) : Keeps body rest ∨ rest = body.drop 2 := by
  obtain ⟨s, hRest⟩ := passesText_iff.mp hText
  exact h.keeps_or_drop hRest

/-! ## Values -/

/-- A mark that is looked for lies before the dictionary. -/
theorem StandsAlone.keeps_of_mark (h : StandsAlone body) {mark : Char} (hBrace : mark ≠ '\x7b')
    (hMark : skipSpaces (part ++ body) = mark :: rest) : Keeps body rest := by
  rw [h.skipSpaces_append] at hMark
  have hTaken : ∀ c ∈ [mark], c ∉ ['\x7b'] :=
    List.forall_mem_singleton.mpr fun hMem => hBrace (List.mem_singleton.mp hMem)
  exact h.keeps_of_leaves List.mem_cons_self ⟨[mark], hMark, hTaken⟩

/-- Within the dictionary there is none of the marks that come behind a value or a name. -/
theorem StandsAlone.not_mark (h : StandsAlone body) {mark : Char}
    (hMem : mark ∈ [',', ':', ']', '\x7d']) : skipSpaces (body.drop 2) ≠ mark :: rest := by
  obtain ⟨c, r, rfl, hSpace, hOther⟩ := h.opens
  intro hMark
  have hNone : skipSpaces (c :: r) = c :: r := by
    rw [skipSpaces, List.dropWhile_cons_of_neg (by simp [hSpace])]
  have hDrop : List.drop 2 ('\x7b' :: '"' :: c :: r) = c :: r := rfl
  rw [hDrop, hNone] at hMark
  rw [List.head_eq_of_cons_eq hMark] at hOther
  exact hOther hMem

theorem exists_of_expect {mark : Char} (hExpect : expect mark cs = .ok rest) :
    ∃ r, skipSpaces cs = mark :: r ∧ rest = skipSpaces r := by
  rw [expect] at hExpect
  split at hExpect
  · rename_i c r hFirst
    split_ifs at hExpect with hMark
    cases hExpect
    exact ⟨r, by rw [hFirst, beq_iff_eq.mp hMark], rfl⟩
  · cases hExpect

/-- Parts that are read up to their closing bracket keep the dictionary whole. -/
def KeepsWhole (body : List Char) (parts : List Char → List Char → Prop) : Prop :=
  ∀ part rest, parts (part ++ body) rest → Keeps body rest

theorem StandsAlone.keeps_of_inside (h : StandsAlone body) {closing : Char}
    {parts : List Char → List Char → Prop} (hBrace : closing ≠ '\x7b')
    (hParts : KeepsWhole body parts) (hInside : PassesInside closing parts (part ++ body) rest) :
    Keeps body rest := by
  rcases hInside with hClosed | ⟨-, hOpen⟩
  · exact h.keeps_of_mark hBrace hClosed
  · rw [h.skipSpaces_append] at hOpen
    exact hParts _ _ hOpen

theorem StandsAlone.keeps_of_behind (h : StandsAlone body) {closing : Char}
    {parts : List Char → List Char → Prop} (hClosing : closing = ']' ∨ closing = '\x7d')
    (hParts : KeepsWhole body parts) (hRest : Keeps body r ∨ r = body.drop 2 ∨ r = [])
    (hBehind : PassesBehind closing parts r rest) : Keeps body rest := by
  rcases hRest with ⟨part, rfl⟩ | rfl | rfl
  · rcases hBehind with ⟨r', hComma, hNext⟩ | hClosed
    · obtain ⟨part', rfl⟩ := h.keeps_of_mark (by decide) hComma
      rw [h.skipSpaces_append] at hNext
      exact hParts _ _ hNext
    · refine h.keeps_of_mark ?_ hClosed
      rcases hClosing with rfl | rfl <;> decide
  · rcases hBehind with ⟨r', hComma, -⟩ | hClosed
    · exact absurd hComma (h.not_mark (by decide))
    · refine absurd hClosed (h.not_mark ?_)
      rcases hClosing with rfl | rfl <;> decide
  · rcases hBehind with ⟨r', hComma, -⟩ | hClosed
    · cases hComma
    · cases hClosed

/-- What a value leaves that is read from before the dictionary, or from where it starts. -/
theorem StandsAlone.passes (h : StandsAlone body) (fuel : Nat) :
    (∀ part rest, part ≠ [] → PassesValue fuel (part ++ body) rest →
      Keeps body rest ∨ rest = body.drop 2) ∧
    KeepsWhole body (PassesItems fuel) ∧ KeepsWhole body (PassesEntries fuel) := by
  induction fuel with
  | zero =>
    refine ⟨fun part rest hPart => ?_, fun part rest => ?_, fun part rest => ?_⟩
    · rintro ⟨v, hRead⟩
      cases part <;> cases hRead
    · rintro ⟨vs, hRead⟩
      cases hRead
    · rintro ⟨es, hRead⟩
      generalize part ++ body = cs at hRead
      cases cs <;> cases hRead
  | succ fuel ih =>
    obtain ⟨hValue, hItems, hEntries⟩ := ih
    have hAny (part rest : List Char) (hPasses : PassesValue fuel (part ++ body) rest) :
        Keeps body rest ∨ rest = body.drop 2 ∨ rest = [] := by
      by_cases hPart : part = []
      · subst hPart
        exact .inr (.inr (h.whole fuel rest hPasses))
      · exact (hValue part rest hPart hPasses).imp_right .inl
    refine ⟨fun part rest hPart hPasses => ?_, fun part rest hPasses => ?_,
      fun part rest hPasses => ?_⟩
    · obtain ⟨c, part, rfl⟩ := List.exists_cons_of_ne_nil hPart
      rw [List.cons_append] at hPasses
      by_cases hQuote : c = '"'
      · subst hQuote
        exact h.passesText (passesValue_text.mp hPasses)
      by_cases hList : c = '['
      · subst hList
        exact .inl (h.keeps_of_inside (by decide) hItems (passesValue_list.mp hPasses))
      by_cases hDictionary : c = '\x7b'
      · subst hDictionary
        exact .inl (h.keeps_of_inside (by decide) hEntries (passesValue_dictionary.mp hPasses))
      rw [passesValue_plain hQuote hList hDictionary, ← List.cons_append] at hPasses
      exact .inl (h.keeps_of_leaves (by decide) (leaves_of_passesPlain hPasses))
    · obtain ⟨r, hFirst, hBehind⟩ := passesItems_succ.mp hPasses
      exact h.keeps_of_behind (.inl rfl) hItems (hAny part r hFirst) hBehind
    · cases part with
      | nil =>
        obtain ⟨c, r, rfl, -⟩ := h.opens
        rw [List.nil_append, passesEntries_succ] at hPasses
        cases hPasses.1
      | cons c part =>
        rw [List.cons_append, passesEntries_succ] at hPasses
        obtain ⟨-, r₁, hName, r₂, hColon, r₃, hFirst, hBehind⟩ := hPasses
        obtain ⟨r', hMark, rfl⟩ := exists_of_expect hColon
        rcases h.passesText hName with ⟨part₁, rfl⟩ | rfl
        · obtain ⟨part₂, rfl⟩ := h.keeps_of_mark (by decide) hMark
          rw [h.skipSpaces_append] at hFirst
          exact h.keeps_of_behind (.inr rfl) hEntries (hAny _ r₃ hFirst) hBehind
        · exact absurd hMark (h.not_mark (by decide))

theorem StandsAlone.skipSpaces_ne_nil (h : StandsAlone body)
    (hRest : Keeps body rest ∨ rest = body.drop 2) : skipSpaces rest ≠ [] := by
  obtain ⟨c, r, hBody, hSpace, -⟩ := h.opens
  rcases hRest with ⟨part, rfl⟩ | rfl
  · rw [h.skipSpaces_append, hBody]
    exact List.append_ne_nil_of_right_ne_nil _ (List.cons_ne_nil _ _)
  · have hDrop : body.drop 2 = c :: r := by rw [hBody]; rfl
    rw [hDrop, skipSpaces, List.dropWhile_cons_of_neg (by simp [hSpace])]
    exact List.cons_ne_nil _ _

/-- A dictionary behind a part of another text is not read with it, if that starts with no space. -/
theorem StandsAlone.read_ne_ok (h : StandsAlone body) (hSpace : ∀ c ∈ part.head?, isSpace c = false)
    (hNonempty : part ≠ []) (v : Value) : read (part ++ body) ≠ .ok v := by
  have hStart : skipSpaces (part ++ body) = part ++ body := by
    obtain ⟨c, part, rfl⟩ := List.exists_cons_of_ne_nil hNonempty
    have hFirst := hSpace c rfl
    rw [List.cons_append, skipSpaces, List.dropWhile_cons_of_neg (by simp [hFirst])]
  rw [read, hStart]
  cases hValue : value (2 * (part ++ body).length + 2) (part ++ body) with
  | error fault => exact nofun
  | ok found =>
    obtain ⟨v', r⟩ := found
    have hRest := h.skipSpaces_ne_nil ((h.passes _).1 part r hNonempty ⟨v', hValue⟩)
    simp only [bind, Except.bind, List.isEmpty_iff, if_neg hRest]
    exact nofun

end Spreadsheet.Json
