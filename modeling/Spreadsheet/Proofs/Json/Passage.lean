import Spreadsheet.Json.Reader
import Mathlib

/-!
# How far a value is read

What is left of a text behind a value, a list of items or a list of entries, apart from what these
are. One equation for each of the three says how the reader goes on; with more fuel it reads just as
far.
-/

set_option autoImplicit false

namespace Spreadsheet.Json

variable {fuel more : Nat} {c : Char} {cs r rest : List Char}

/-- A text is read after its opening quote, and so much is left. -/
def PassesText (fuel : Nat) (cs rest : List Char) : Prop := ∃ s, text fuel cs = .ok (s, rest)

def PassesValue (fuel : Nat) (cs rest : List Char) : Prop := ∃ v, value fuel cs = .ok (v, rest)

def PassesItems (fuel : Nat) (cs rest : List Char) : Prop := ∃ vs, items fuel cs = .ok (vs, rest)

def PassesEntries (fuel : Nat) (cs rest : List Char) : Prop :=
  ∃ es, entries fuel cs = .ok (es, rest)

/-- A word or a number is read. -/
def PassesPlain (cs rest : List Char) : Prop :=
  ∃ v, word? cs = some (v, rest) ∨ word? cs = none ∧ number cs = .ok (v, rest)

/-- What comes behind an opening bracket: the closing one, or parts up to it. -/
def PassesInside (closing : Char) (parts : List Char → List Char → Prop) (cs rest : List Char) :
    Prop :=
  skipSpaces cs = closing :: rest ∨
    (∀ r, skipSpaces cs ≠ closing :: r) ∧ parts (skipSpaces cs) rest

/-- What comes behind a part: a comma and more parts, or the closing bracket. -/
def PassesBehind (closing : Char) (parts : List Char → List Char → Prop) (cs rest : List Char) :
    Prop :=
  (∃ r, skipSpaces cs = ',' :: r ∧ parts (skipSpaces r) rest) ∨ skipSpaces cs = closing :: rest

/-! ## One step -/

theorem exists_bind_eq_ok {α β ε : Type} {x : Except ε (α × List Char)} {f : α → β} :
    (∃ b, (x >>= fun a => pure (f a.1, a.2)) = (.ok (b, rest) : Except ε (β × List Char))) ↔
      ∃ a, x = .ok (a, rest) := by
  rcases x with fault | ⟨a, r⟩
  · exact ⟨nofun, nofun⟩
  · constructor
    · rintro ⟨b, h⟩
      cases h
      exact ⟨a, rfl⟩
    · rintro ⟨a', h⟩
      cases h
      exact ⟨f a, rfl⟩

theorem passesValue_text : PassesValue (fuel + 1) ('"' :: r) rest ↔ PassesText fuel r rest := by
  rw [PassesValue, PassesText]
  simp only [value, beq_self_eq_true, if_true]
  exact exists_bind_eq_ok

theorem passesInside_closed {closing : Char} {parts : List Char → List Char → Prop}
    (h : skipSpaces cs = closing :: r) : PassesInside closing parts cs rest ↔ r = rest := by
  rw [PassesInside, h]
  constructor
  · rintro (hSame | ⟨hOpen, -⟩)
    · exact List.tail_eq_of_cons_eq hSame
    · exact absurd rfl (hOpen r)
  · rintro rfl
    exact .inl rfl

theorem passesInside_open {closing : Char} {parts : List Char → List Char → Prop}
    (h : ∀ r, skipSpaces cs ≠ closing :: r) :
    PassesInside closing parts cs rest ↔ parts (skipSpaces cs) rest :=
  ⟨fun hInside => (hInside.resolve_left (h rest)).2, fun hParts => .inr ⟨h, hParts⟩⟩

theorem exists_ok_eq_ok {β ε : Type} {b : β} :
    (∃ b', (.ok (b, r) : Except ε (β × List Char)) = .ok (b', rest)) ↔ r = rest := by
  constructor
  · rintro ⟨b', h⟩
    cases h
    rfl
  · rintro rfl
    exact ⟨b, rfl⟩

theorem passesValue_list : PassesValue (fuel + 1) ('[' :: r) rest ↔
    PassesInside ']' (PassesItems fuel) r rest := by
  have hQuote : ('[' == '"') = false := by decide
  rw [PassesValue]
  simp only [value, hQuote, Bool.false_eq_true, if_false, beq_self_eq_true, if_true]
  split
  · rename_i r' hClosed
    rw [passesInside_closed hClosed]
    exact exists_ok_eq_ok
  · rename_i hOpen
    rw [passesInside_open hOpen]
    exact exists_bind_eq_ok

theorem passesValue_dictionary : PassesValue (fuel + 1) ('\x7b' :: r) rest ↔
    PassesInside '\x7d' (PassesEntries fuel) r rest := by
  have hQuote : ('\x7b' == '"') = false := by decide
  have hList : ('\x7b' == '[') = false := by decide
  rw [PassesValue]
  simp only [value, hQuote, hList, Bool.false_eq_true, if_false, beq_self_eq_true, if_true]
  split
  · rename_i r' hClosed
    rw [passesInside_closed hClosed]
    exact exists_ok_eq_ok
  · rename_i hOpen
    rw [passesInside_open hOpen]
    exact exists_bind_eq_ok

theorem passesValue_plain (hQuote : c ≠ '"') (hList : c ≠ '[') (hDictionary : c ≠ '\x7b') :
    PassesValue (fuel + 1) (c :: r) rest ↔ PassesPlain (c :: r) rest := by
  rw [PassesValue, PassesPlain]
  simp only [value, beq_eq_false_iff_ne.mpr hQuote, beq_eq_false_iff_ne.mpr hList,
    beq_eq_false_iff_ne.mpr hDictionary, Bool.false_eq_true, if_false]
  cases word? (c :: r) with
  | none => simp
  | some found =>
    obtain ⟨v, r'⟩ := found
    simp

theorem passesBehind_comma {closing : Char} {parts : List Char → List Char → Prop}
    (hClosing : closing ≠ ',') (h : skipSpaces cs = ',' :: r) :
    PassesBehind closing parts cs rest ↔ parts (skipSpaces r) rest := by
  rw [PassesBehind, h]
  constructor
  · rintro (⟨r', hSame, hParts⟩ | hSame)
    · rwa [List.tail_eq_of_cons_eq hSame]
    · exact absurd (List.head_eq_of_cons_eq hSame).symm hClosing
  · exact fun hParts => .inl ⟨r, rfl, hParts⟩

theorem passesBehind_closed {closing : Char} {parts : List Char → List Char → Prop}
    (hClosing : closing ≠ ',') (h : skipSpaces cs = closing :: r) :
    PassesBehind closing parts cs rest ↔ r = rest := by
  rw [PassesBehind, h]
  constructor
  · rintro (⟨r', hSame, -⟩ | hSame)
    · exact absurd (List.head_eq_of_cons_eq hSame) hClosing
    · exact List.tail_eq_of_cons_eq hSame
  · rintro rfl
    exact .inr rfl

theorem not_passesBehind {closing : Char} {parts : List Char → List Char → Prop}
    (hComma : ∀ r, skipSpaces cs ≠ ',' :: r) (hClosed : ∀ r, skipSpaces cs ≠ closing :: r) :
    ¬ PassesBehind closing parts cs rest := by
  rintro (⟨r, hSame, -⟩ | hSame)
  · exact hComma r hSame
  · exact hClosed rest hSame

theorem passesItems_succ : PassesItems (fuel + 1) cs rest ↔
    ∃ r, PassesValue fuel cs r ∧ PassesBehind ']' (PassesItems fuel) r rest := by
  rw [PassesItems]
  simp only [items, PassesValue]
  cases hValue : value fuel cs with
  | error fault => simp [bind, Except.bind]
  | ok found =>
    obtain ⟨v, r⟩ := found
    have hOnly : (∃ r', (∃ v', (Except.ok (v, r) : Except ReadFault _) = .ok (v', r')) ∧
        PassesBehind ']' (PassesItems fuel) r' rest) ↔ PassesBehind ']' (PassesItems fuel) r rest := by
      simp
    rw [hOnly]
    simp only [bind, Except.bind]
    split
    · rename_i r' hComma
      rw [passesBehind_comma (by decide) hComma]
      exact exists_bind_eq_ok
    · rename_i r' hClosed
      rw [passesBehind_closed (by decide) hClosed]
      exact exists_ok_eq_ok
    · rename_i hComma hClosed
      exact iff_of_false nofun (not_passesBehind hComma hClosed)

theorem passesEntries_succ : PassesEntries (fuel + 1) (c :: r) rest ↔ c = '"' ∧
    ∃ r₁, PassesText fuel r r₁ ∧ ∃ r₂, expect ':' r₁ = .ok r₂ ∧
      ∃ r₃, PassesValue fuel r₂ r₃ ∧ PassesBehind '\x7d' (PassesEntries fuel) r₃ rest := by
  rw [PassesEntries]
  simp only [entries]
  by_cases hQuote : c = '"'
  swap
  · have hNot : (c != '"') = true := bne_iff_ne.mpr hQuote
    rw [if_pos hNot]
    exact iff_of_false nofun fun h => hQuote h.1
  subst hQuote
  simp only [bne_self_eq_false, Bool.false_eq_true, if_false, true_and]
  cases hText : text fuel r with
  | error fault => simp [PassesText, hText, bind, Except.bind]
  | ok name =>
    obtain ⟨k, r₁⟩ := name
    cases hColon : expect ':' r₁ with
    | error fault => simp [PassesText, hText, hColon, bind, Except.bind]
    | ok r₂ =>
      cases hValue : value fuel r₂ with
      | error fault => simp [PassesText, PassesValue, hText, hColon, hValue, bind, Except.bind]
      | ok found =>
        obtain ⟨v, r₃⟩ := found
        have hOnly : (∃ r₁, PassesText fuel r r₁ ∧ ∃ r₂, expect ':' r₁ = .ok r₂ ∧
            ∃ r₃, PassesValue fuel r₂ r₃ ∧ PassesBehind '\x7d' (PassesEntries fuel) r₃ rest) ↔
            PassesBehind '\x7d' (PassesEntries fuel) r₃ rest := by
          constructor
          · rintro ⟨_, ⟨s, hText'⟩, _, hColon', _, ⟨v', hValue'⟩, hBehind⟩
            cases hText.symm.trans hText'
            cases hColon.symm.trans hColon'
            cases hValue.symm.trans hValue'
            exact hBehind
          · exact fun hBehind => ⟨r₁, ⟨k, hText⟩, r₂, hColon, r₃, ⟨v, hValue⟩, hBehind⟩
        rw [hOnly]
        simp only [bind, Except.bind, hColon, hValue]
        split
        · rename_i r' hComma
          rw [passesBehind_comma (by decide) hComma]
          exact exists_bind_eq_ok
        · rename_i r' hClosed
          rw [passesBehind_closed (by decide) hClosed]
          exact exists_ok_eq_ok
        · rename_i hComma hClosed
          exact iff_of_false nofun (not_passesBehind hComma hClosed)

/-! ## More fuel -/

theorem textRest_succ {found : List Char × List Char} (h : textRest fuel cs = some found) :
    textRest (fuel + 1) cs = some found := by
  induction fuel generalizing cs found with
  | zero => cases h
  | succ fuel ih =>
    cases cs with
    | nil => cases h
    | cons c r =>
      rw [textRest] at h ⊢
      have hNext {r' : List Char} (c' : Char)
          (h : (textRest fuel r').bind (fun found => some (c' :: found.1, found.2)) = some found) :
          (textRest (fuel + 1) r').bind (fun found => some (c' :: found.1, found.2)) =
            some found := by
        obtain ⟨next, hRest, hFound⟩ := Option.bind_eq_some_iff.mp h
        rw [ih hRest]
        exact hFound
      split_ifs at h ⊢
      · exact h
      · cases hEscape : unescaped r with
        | none =>
          rw [hEscape] at h
          cases h
        | some next =>
          rw [hEscape] at h
          exact hNext _ h
      · exact hNext _ h

theorem passesText_iff : PassesText fuel cs rest ↔ ∃ s, textRest fuel cs = some (s, rest) := by
  rw [PassesText]
  simp only [text]
  cases hRest : textRest fuel cs with
  | none => exact ⟨nofun, nofun⟩
  | some found =>
    obtain ⟨s, r⟩ := found
    constructor
    · rintro ⟨s', h⟩
      cases h
      exact ⟨s, rfl⟩
    · rintro ⟨s', h⟩
      cases h
      exact ⟨String.ofList s, rfl⟩

theorem PassesText.succ (h : PassesText fuel cs rest) : PassesText (fuel + 1) cs rest := by
  obtain ⟨s, hRest⟩ := passesText_iff.mp h
  exact passesText_iff.mpr ⟨s, textRest_succ hRest⟩

theorem PassesInside.imp {closing : Char} {parts parts' : List Char → List Char → Prop}
    (h : PassesInside closing parts cs rest)
    (hParts : ∀ cs rest, parts cs rest → parts' cs rest) : PassesInside closing parts' cs rest :=
  Or.imp id (fun ⟨hOpen, hInside⟩ => ⟨hOpen, hParts _ _ hInside⟩) h

theorem PassesBehind.imp {closing : Char} {parts parts' : List Char → List Char → Prop}
    (h : PassesBehind closing parts cs rest)
    (hParts : ∀ cs rest, parts cs rest → parts' cs rest) : PassesBehind closing parts' cs rest :=
  Or.imp (fun ⟨r, hComma, hNext⟩ => ⟨r, hComma, hParts _ _ hNext⟩) id h

/-- With more fuel values, items and entries are read just as far. -/
theorem passes_succ (fuel : Nat) :
    (∀ cs rest, PassesValue fuel cs rest → PassesValue (fuel + 1) cs rest) ∧
    (∀ cs rest, PassesItems fuel cs rest → PassesItems (fuel + 1) cs rest) ∧
    ∀ cs rest, PassesEntries fuel cs rest → PassesEntries (fuel + 1) cs rest := by
  induction fuel with
  | zero =>
    refine ⟨?_, ?_, ?_⟩
    · rintro (_ | ⟨c, r⟩) rest ⟨v, h⟩ <;> cases h
    · rintro cs rest ⟨vs, h⟩
      cases h
    · rintro (_ | ⟨c, r⟩) rest ⟨es, h⟩ <;> cases h
  | succ fuel ih =>
    obtain ⟨hValue, hItems, hEntries⟩ := ih
    refine ⟨fun cs rest h => ?_, fun cs rest h => ?_, fun cs rest h => ?_⟩
    · cases cs with
      | nil =>
        obtain ⟨v, h⟩ := h
        cases h
      | cons c r =>
        by_cases hQuote : c = '"'
        · subst hQuote
          exact passesValue_text.mpr (passesValue_text.mp h).succ
        by_cases hList : c = '['
        · subst hList
          exact passesValue_list.mpr ((passesValue_list.mp h).imp hItems)
        by_cases hDictionary : c = '\x7b'
        · subst hDictionary
          exact passesValue_dictionary.mpr ((passesValue_dictionary.mp h).imp hEntries)
        exact (passesValue_plain hQuote hList hDictionary).mpr
          ((passesValue_plain hQuote hList hDictionary).mp h)
    · obtain ⟨r, hFirst, hBehind⟩ := passesItems_succ.mp h
      exact passesItems_succ.mpr ⟨r, hValue _ _ hFirst, hBehind.imp hItems⟩
    · cases cs with
      | nil =>
        obtain ⟨es, h⟩ := h
        cases h
      | cons c r =>
        obtain ⟨hQuote, r₁, hName, r₂, hColon, r₃, hFirst, hBehind⟩ := passesEntries_succ.mp h
        exact passesEntries_succ.mpr ⟨hQuote, r₁, hName.succ, r₂, hColon, r₃, hValue _ _ hFirst,
          hBehind.imp hEntries⟩

theorem PassesValue.mono (hFuel : fuel ≤ more) (h : PassesValue fuel cs rest) :
    PassesValue more cs rest := by
  induction hFuel with
  | refl => exact h
  | step _ ih => exact (passes_succ _).1 _ _ ih

/-- However much fuel there is, a value that is read leaves the same rest. -/
theorem PassesValue.unique {fuel' : Nat} (h : PassesValue fuel cs r)
    (h' : PassesValue fuel' cs rest) : r = rest := by
  obtain ⟨v, hRead⟩ := h.mono (Nat.le_max_left fuel fuel')
  obtain ⟨v', hRead'⟩ := h'.mono (Nat.le_max_right fuel fuel')
  cases hRead.symm.trans hRead'
  rfl

end Spreadsheet.Json
