import Spreadsheet.Proofs.Json.Number
import Spreadsheet.Proofs.Json.Plain
import Spreadsheet.Proofs.Json.Text

/-!
# Values that are written and read back

A plain value has a text on one line, in plain characters. It is read as the value with the fields
of its dictionaries in the order of their names.
-/

set_option autoImplicit false

namespace Spreadsheet.Json

open Text

variable {v : Value} {n : Int} {cs r rest : List Char} {fuel : Nat}

/-- A text that starts with neither a space nor a closing bracket. -/
def Opens (cs : List Char) : Prop :=
  ∃ c r, cs = c :: r ∧ isSpace c = false ∧ c ≠ ']' ∧ c ≠ '\x7d'

theorem Opens.append (h : Opens cs) (r : List Char) : Opens (cs ++ r) := by
  obtain ⟨c, cs, rfl, hOpens⟩ := h
  exact ⟨c, cs ++ r, rfl, hOpens⟩

theorem Opens.skipSpaces_eq (h : Opens cs) : skipSpaces cs = cs := by
  obtain ⟨c, cs, rfl, hSpace, -⟩ := h
  rw [skipSpaces, List.dropWhile_cons_of_neg (by simp [hSpace])]

theorem Opens.intercalate {texts : List (List Char)} (sep : List Char) (hNonempty : texts ≠ [])
    (h : ∀ text ∈ texts, Opens text) : Opens (sep.intercalate texts) := by
  obtain ⟨text, texts, rfl⟩ := List.exists_cons_of_ne_nil hNonempty
  have hFirst := h text List.mem_cons_self
  cases texts with
  | nil => rwa [List.intercalate_singleton]
  | cons next texts =>
    rw [List.intercalate_cons_cons, List.append_assoc]
    exact hFirst.append _

/-- A text that is read as a value wherever something closes it. There is fuel enough for as many
steps as the text has characters. -/
structure IsTextOf (cs : List Char) (v : Value) : Prop where
  plain : ArePlain cs
  opens : Opens cs
  ends : ∀ c ∈ cs.getLast?, c ≠ ' '
  reads : ∀ fuel rest, cs.length ≤ fuel → Closes rest → value fuel (cs ++ rest) = .ok (v, rest)

/-- A field as it is written, read with its name. -/
def IsFieldText (cs : List Char) (field : String × Value) : Prop :=
  ∃ text, cs = writeText field.1 ++ ':' :: ' ' :: text ∧ IsTextOf text field.2

theorem forall_of_forall₂ {α β : Type} {R : α → β → Prop} {p : α → Prop} {as : List α}
    {bs : List β} (h : List.Forall₂ R as bs) (hp : ∀ a b, R a b → p a) : ∀ a ∈ as, p a :=
  ((List.forall₂_and_left as bs).mp (h.imp fun a b hab => ⟨hp a b hab, hab⟩)).1

theorem exists_mapM_ok_iff {α β ε : Type} {f : α → Except ε β} {as : List α} :
    (∃ bs, as.mapM f = .ok bs) ↔ ∀ a ∈ as, ∃ b, f a = .ok b := by
  induction as with
  | nil => exact ⟨fun _ => List.forall_mem_nil _, fun _ => ⟨[], rfl⟩⟩
  | cons a as ih =>
    rw [List.mapM_cons, List.forall_mem_cons, ← ih]
    cases hFirst : f a with
    | error fault => simp [bind, Except.bind]
    | ok b => cases hRest : as.mapM f <;> simp [bind, Except.bind, pure, Except.pure]

/-! ## Words, numbers and texts -/

/-- A word is the text of what it stands for. -/
theorem isTextOf_word : ∀ word ∈ words, IsTextOf word.1 word.2 := by
  simp only [words, List.forall_mem_cons]
  refine ⟨?_, ?_, ?_, ?_, ?_, ?_, List.forall_mem_nil _⟩
  all_goals
    refine ⟨by decide, ⟨_, _, rfl, rfl, by decide, by decide⟩, ?_, ?_⟩
    · rintro c ⟨⟩
      decide
    · rintro (_ | fuel) rest hFuel -
      · cases hFuel
      · rfl

theorem isTextOf_null : IsTextOf "null".toList .null := isTextOf_word (_, _) (.head _)

theorem isTextOf_writeBool : ∀ b, IsTextOf (writeBool b) (.bool b)
  | true => isTextOf_word (_, _) (.tail _ (.head _))
  | false => isTextOf_word (_, _) (.tail _ (.tail _ (.head _)))

theorem isPlain_of_isDigit {c : Char} (h : Decimal.isDigit c = true) : IsPlain c := by
  have hRange := (Lexer.isDigit_toNat c).mp h
  exact ⟨by omega, by omega⟩

theorem opens_of_isDigit {d : Char} (h : Decimal.isDigit d = true) (r : List Char) :
    Opens (d :: r) := by
  have hRange := (Lexer.isDigit_toNat d).mp h
  refine ⟨d, r, rfl, ?_, ?_, ?_⟩
  · rw [Bool.eq_false_iff]
    intro hSpace
    simp only [isSpace, Bool.or_eq_true, beq_iff_eq] at hSpace
    rcases hSpace with ((rfl | rfl) | rfl) | rfl <;> cases h
  · rintro rfl
    cases h
  · rintro rfl
    cases h

theorem isTextOf_intText (h : Decimal.isWritable n = true) :
    IsTextOf (Decimal.intText n).toList (.int n) where
  plain := by
    have hDigits : ArePlain (Decimal.digits n.natAbs) := fun c hc =>
      isPlain_of_isDigit (Decimal.areDigits_digits _ c hc)
    rw [Decimal.toList_intText, arePlain_append]
    refine ⟨?_, hDigits⟩
    split_ifs
    · decide
    · exact arePlain_nil
  opens := by
    obtain ⟨d, ds, hDigit, hText | hText⟩ := Decimal.exists_toList_intText n
    · rw [hText]
      exact opens_of_isDigit hDigit ds
    · exact ⟨'-', d :: ds, hText, rfl, by decide, by decide⟩
  ends := by
    rintro c hc rfl
    have hMem := List.mem_of_getLast? hc
    rw [Decimal.toList_intText, List.mem_append] at hMem
    rcases hMem with hMem | hMem
    · split_ifs at hMem <;> simp at hMem
    · cases Decimal.areDigits_digits _ _ hMem
  reads := by
    rintro (_ | fuel) rest hFuel hRest
    · obtain ⟨d, ds, -, hText | hText⟩ := Decimal.exists_toList_intText n <;>
      · rw [hText] at hFuel
        cases hFuel
    · exact value_intText h hRest

theorem isTextOf_writeText (s : String) : IsTextOf (writeText s) (.text s) where
  plain := arePlain_writeText s
  opens := ⟨'"', _, rfl, rfl, by decide, by decide⟩
  ends := by
    rw [writeText, List.getLast?_concat]
    rintro c ⟨⟩
    decide
  reads := by
    rintro (_ | fuel) rest hFuel -
    · cases hFuel
    · rw [writeText_append, value, text_flatMap_escaped s rest hFuel]
      rfl

/-! ## Lists -/

theorem closes_item (r : List Char) : Closes (',' :: r) := by
  rintro c ⟨⟩
  exact .inl rfl

theorem closes_list (r : List Char) : Closes (']' :: r) := by
  rintro c ⟨⟩
  exact .inr (.inl rfl)

theorem closes_dictionary (r : List Char) : Closes ('\x7d' :: r) := by
  rintro c ⟨⟩
  exact .inr (.inr rfl)

theorem items_intercalate {texts : List (List Char)} {vs : List Value}
    (h : List.Forall₂ IsTextOf texts vs) (hNonempty : texts ≠ [])
    (hFuel : ([',', ' '].intercalate texts).length < fuel) :
    items fuel ([',', ' '].intercalate texts ++ ']' :: rest) = .ok (vs, rest) := by
  induction h generalizing fuel with
  | nil => exact absurd rfl hNonempty
  | @cons text v texts vs hText hTexts ih =>
    -- An item costs one step, which the mark after it pays for.
    obtain ⟨fuel, rfl⟩ := Nat.exists_eq_succ_of_ne_zero (Nat.ne_zero_of_lt hFuel)
    cases hTexts with
    | nil =>
      rw [List.intercalate_singleton] at hFuel ⊢
      rw [items, hText.reads fuel _ (Nat.le_of_lt_succ hFuel) (closes_list rest)]
      rfl
    | @cons next w texts vs hNext hTexts =>
      rw [List.intercalate_cons_cons, List.append_assoc, List.length_append, List.length_append,
        List.length_cons] at hFuel
      have hOpens : Opens ([',', ' '].intercalate (next :: texts) ++ ']' :: rest) :=
        (Opens.intercalate _ (List.cons_ne_nil _ _)
          (forall_of_forall₂ (.cons hNext hTexts) fun _ _ h => h.opens)).append _
      have hItems : items fuel ([',', ' '].intercalate (next :: texts) ++ ']' :: rest) =
          .ok (w :: vs, rest) := ih (List.cons_ne_nil _ _) (by omega)
      have hSpace : skipSpaces (' ' :: ([',', ' '].intercalate (next :: texts) ++ ']' :: rest)) =
          [',', ' '].intercalate (next :: texts) ++ ']' :: rest := hOpens.skipSpaces_eq
      have hComma (r : List Char) : skipSpaces (',' :: r) = ',' :: r := rfl
      simp only [List.intercalate_cons_cons, List.append_assoc, List.cons_append, List.nil_append]
      simp only [items, hText.reads fuel _ (by omega : text.length ≤ fuel) (closes_item _)]
      simp only [bind, Except.bind, hComma, hSpace, hItems, pure, Except.pure]

/-! ## Dictionaries -/

theorem IsFieldText.opens {field : String × Value} (h : IsFieldText cs field) : Opens cs := by
  obtain ⟨text, rfl, -⟩ := h
  exact (isTextOf_writeText field.1).opens.append _

def entriesOf (fields : List (String × Value)) : List (Key × Value) :=
  fields.map fun field => (.text field.1, field.2)

theorem expect_colon (h : Opens cs) : expect ':' (':' :: ' ' :: cs) = .ok cs := by
  have hSpace : skipSpaces (' ' :: cs) = cs := h.skipSpaces_eq
  have hColon : skipSpaces (':' :: ' ' :: cs) = ':' :: ' ' :: cs := rfl
  rw [expect, hColon]
  simp only [beq_self_eq_true, if_true, hSpace]

/-- The name of a field is read and then its value. -/
theorem IsFieldText.reads {field : String × Value} (h : IsFieldText cs field)
    (hFuel : cs.length ≤ fuel) (hRest : Closes rest) :
    ∃ name after written, cs ++ rest = '"' :: name ∧ text fuel name = .ok (field.1, after) ∧
      expect ':' after = .ok written ∧ value fuel written = .ok (field.2, rest) := by
  obtain ⟨written, rfl, hWritten⟩ := h
  rw [List.length_append, List.length_cons, List.length_cons] at hFuel
  refine ⟨_, _, written ++ rest, ?_, text_flatMap_escaped field.1 (':' :: ' ' :: (written ++ rest))
    (by omega), expect_colon (hWritten.opens.append rest),
    hWritten.reads fuel rest (by omega) hRest⟩
  rw [List.append_assoc, List.cons_append, List.cons_append, writeText_append]

theorem entries_last {field : String × Value} (h : IsFieldText cs field)
    (hFuel : cs.length ≤ fuel) :
    entries (fuel + 1) (cs ++ '\x7d' :: rest) = .ok ([(.text field.1, field.2)], rest) := by
  obtain ⟨name, after, written, hCut, hName, hColon, hValue⟩ :=
    h.reads hFuel (closes_dictionary rest)
  have hBracket : skipSpaces ('\x7d' :: rest) = '\x7d' :: rest := rfl
  rw [hCut, entries]
  simp only [bne_self_eq_false, Bool.false_eq_true, if_false, hName, hColon, hValue, hBracket,
    bind, Except.bind, pure, Except.pure]

theorem entries_next {field : String × Value} {es : List (Key × Value)} (h : IsFieldText cs field)
    (hFuel : cs.length ≤ fuel) (hEntries : entries fuel (skipSpaces r) = .ok (es, rest)) :
    entries (fuel + 1) (cs ++ ',' :: r) = .ok ((.text field.1, field.2) :: es, rest) := by
  obtain ⟨name, after, written, hCut, hName, hColon, hValue⟩ := h.reads hFuel (closes_item r)
  have hComma : skipSpaces (',' :: r) = ',' :: r := rfl
  rw [hCut, entries]
  simp only [bne_self_eq_false, Bool.false_eq_true, if_false, hName, hColon, hValue, hComma,
    hEntries, bind, Except.bind, pure, Except.pure]

theorem entries_intercalate {texts : List (List Char)} {fields : List (String × Value)}
    (h : List.Forall₂ IsFieldText texts fields) (hNonempty : texts ≠ [])
    (hFuel : ([',', ' '].intercalate texts).length < fuel) :
    entries fuel ([',', ' '].intercalate texts ++ '\x7d' :: rest) =
      .ok (entriesOf fields, rest) := by
  induction h generalizing fuel with
  | nil => exact absurd rfl hNonempty
  | @cons text field texts fields hText hTexts ih =>
    obtain ⟨fuel, rfl⟩ := Nat.exists_eq_succ_of_ne_zero (Nat.ne_zero_of_lt hFuel)
    cases hTexts with
    | nil =>
      rw [List.intercalate_singleton] at hFuel ⊢
      exact entries_last hText (Nat.le_of_lt_succ hFuel)
    | @cons next field' texts fields hNext hTexts =>
      rw [List.intercalate_cons_cons, List.append_assoc, List.length_append, List.length_append,
        List.length_cons] at hFuel
      have hOpens : Opens ([',', ' '].intercalate (next :: texts) ++ '\x7d' :: rest) :=
        (Opens.intercalate _ (List.cons_ne_nil _ _)
          (forall_of_forall₂ (.cons hNext hTexts) fun _ _ h => h.opens)).append _
      have hSpace :
          skipSpaces (' ' :: ([',', ' '].intercalate (next :: texts) ++ '\x7d' :: rest)) =
            [',', ' '].intercalate (next :: texts) ++ '\x7d' :: rest := hOpens.skipSpaces_eq
      have hEntries := ih (List.cons_ne_nil _ _)
        (by omega : ([',', ' '].intercalate (next :: texts)).length < fuel)
      rw [← hSpace] at hEntries
      rw [List.intercalate_cons_cons, List.append_assoc, List.append_assoc, List.cons_append,
        List.cons_append, List.nil_append]
      exact entries_next hText (by omega) hEntries

theorem setEntry_entriesOf {fields : List (String × Value)} {k : String} (v : Value)
    (h : k ∉ fields.map (·.1)) :
    setEntry (.text k) v (entriesOf fields) = entriesOf (fields ++ [(k, v)]) := by
  induction fields with
  | nil => rfl
  | cons field fields ih =>
    rw [List.map_cons, List.mem_cons, not_or] at h
    have hOther : Key.same (.text field.1) (.text k) = false :=
      beq_eq_false_iff_ne.mpr (Ne.symm h.1)
    rw [entriesOf, List.map_cons, setEntry, setEntryBy, hOther, if_neg Bool.false_ne_true]
    exact congrArg _ (ih h.2)

theorem foldl_setEntry_entriesOf (before : List (String × Value))
    {fields : List (String × Value)} (h : ((before ++ fields).map (·.1)).Nodup) :
    (entriesOf fields).foldl (fun es e => setEntry e.1 e.2 es) (entriesOf before) =
      entriesOf (before ++ fields) := by
  induction fields generalizing before with
  | nil =>
    rw [List.append_nil]
    rfl
  | cons field fields ih =>
    have hNew : field.1 ∉ before.map (·.1) := by
      rw [List.map_append, List.map_cons] at h
      exact fun hMem => (List.nodup_append.mp h).2.2 _ hMem _ List.mem_cons_self rfl
    rw [List.append_cons] at h ⊢
    rw [← ih _ h, ← setEntry_entriesOf field.2 hNew]
    rfl

theorem dictionary_entriesOf {fields : List (String × Value)}
    (h : (fields.map (·.1)).Nodup) : dictionary (entriesOf fields) = Event.dictionary fields := by
  have hFold := foldl_setEntry_entriesOf [] h
  exact congrArg Value.dict hFold

/-! ## Brackets -/

theorem IsFieldText.plain {field : String × Value} (h : IsFieldText cs field) : ArePlain cs := by
  obtain ⟨text, rfl, hText⟩ := h
  rw [arePlain_append, arePlain_cons, arePlain_cons]
  exact ⟨arePlain_writeText field.1, by decide, by decide, hText.plain⟩

theorem arePlain_intercalate {texts : List (List Char)} (h : ∀ text ∈ texts, ArePlain text) :
    ArePlain ([',', ' '].intercalate texts) := by
  induction texts with
  | nil => exact arePlain_nil
  | cons text texts ih =>
    obtain ⟨hText, hTexts⟩ := List.forall_mem_cons.mp h
    cases texts with
    | nil => rwa [List.intercalate_singleton]
    | cons next texts =>
      rw [List.intercalate_cons_cons, arePlain_append, arePlain_append]
      exact ⟨⟨hText, by decide⟩, ih hTexts⟩

theorem value_list (h : Opens cs) :
    value (fuel + 1) ('[' :: cs) = (do
      let (vs, r) ← items fuel cs
      return (.list vs, r)) := by
  have hQuote : ('[' == '"') = false := by decide
  rw [value, hQuote, if_neg Bool.false_ne_true, if_pos (beq_self_eq_true '['), h.skipSpaces_eq]
  split
  · obtain ⟨c, r, hOpens, -, hList, -⟩ := h
    cases hOpens
    exact absurd rfl hList
  · rfl

theorem value_dictionary (h : Opens cs) :
    value (fuel + 1) ('\x7b' :: cs) = (do
      let (es, r) ← entries fuel cs
      return (dictionary es, r)) := by
  have hQuote : ('\x7b' == '"') = false := by decide
  have hList : ('\x7b' == '[') = false := by decide
  rw [value, hQuote, if_neg Bool.false_ne_true, hList, if_neg Bool.false_ne_true,
    if_pos (beq_self_eq_true '\x7b'), h.skipSpaces_eq]
  split
  · obtain ⟨c, r, hOpens, -, -, hDictionary⟩ := h
    cases hOpens
    exact absurd rfl hDictionary
  · rfl

theorem enclose_line (opening closing : Char) {texts : List (List Char)} (h : texts ≠ [])
    (d : Nat) : Style.line.enclose d opening closing texts =
      opening :: ([',', ' '].intercalate texts ++ [closing]) := by
  rw [Style.enclose, if_neg (by simpa using h)]
  simp [Style.line]

theorem isTextOf_enclose {texts : List (List Char)} {opening closing : Char} (d : Nat)
    (hBrackets : opening = '[' ∧ closing = ']' ∨ opening = '\x7b' ∧ closing = '\x7d')
    (hTexts : ∀ text ∈ texts, ArePlain text)
    (hReads : ∀ fuel rest, (Style.line.enclose d opening closing texts).length ≤ fuel + 1 →
      value (fuel + 1) (Style.line.enclose d opening closing texts ++ rest) = .ok (v, rest)) :
    IsTextOf (Style.line.enclose d opening closing texts) v := by
  obtain ⟨inside, hInside, hText⟩ : ∃ inside, ArePlain inside ∧
      Style.line.enclose d opening closing texts = opening :: (inside ++ [closing]) := by
    by_cases hEmpty : texts = []
    · subst hEmpty
      exact ⟨[], arePlain_nil, rfl⟩
    · exact ⟨_, arePlain_intercalate hTexts, enclose_line opening closing hEmpty d⟩
  rw [hText] at hReads ⊢
  refine ⟨?_, ⟨opening, _, rfl, ?_⟩, ?_, ?_⟩
  · rw [arePlain_cons, arePlain_append]
    rcases hBrackets with ⟨rfl, rfl⟩ | ⟨rfl, rfl⟩
    · exact ⟨by decide, hInside, by decide⟩
    · exact ⟨by decide, hInside, by decide⟩
  · rcases hBrackets with ⟨rfl, -⟩ | ⟨rfl, -⟩
    · exact ⟨rfl, by decide, by decide⟩
    · exact ⟨rfl, by decide, by decide⟩
  · rw [← List.cons_append, List.getLast?_concat]
    rintro c ⟨⟩
    rcases hBrackets with ⟨-, rfl⟩ | ⟨-, rfl⟩ <;> decide
  · rintro (_ | fuel) rest hFuel -
    · cases hFuel
    · exact hReads fuel rest hFuel

theorem isTextOf_list {texts : List (List Char)} {vs : List Value}
    (h : List.Forall₂ IsTextOf texts vs) (d : Nat) :
    IsTextOf (Style.line.enclose d '[' ']' texts) (.list vs) := by
  have hPlain := forall_of_forall₂ h fun _ _ hText => hText.plain
  refine isTextOf_enclose d (.inl ⟨rfl, rfl⟩) hPlain ?_
  intro fuel rest hFuel
  by_cases hEmpty : texts = []
  · subst hEmpty
    cases h
    rfl
  · have hOpens := Opens.intercalate [',', ' '] hEmpty
      (forall_of_forall₂ h fun _ _ hText => hText.opens)
    rw [enclose_line '[' ']' hEmpty] at hFuel ⊢
    rw [List.length_cons, List.length_append, List.length_singleton] at hFuel
    rw [List.cons_append, List.append_assoc, List.singleton_append,
      value_list (hOpens.append _), items_intercalate h hEmpty (by omega)]
    rfl

theorem isTextOf_dictionary {texts : List (List Char)} {fields : List (String × Value)}
    (h : List.Forall₂ IsFieldText texts fields) (hKeys : (fields.map (·.1)).Nodup) (d : Nat) :
    IsTextOf (Style.line.enclose d '\x7b' '\x7d' texts) (Event.dictionary fields) := by
  have hPlain := forall_of_forall₂ h fun _ _ hText => hText.plain
  refine isTextOf_enclose d (.inr ⟨rfl, rfl⟩) hPlain ?_
  intro fuel rest hFuel
  by_cases hEmpty : texts = []
  · subst hEmpty
    cases h
    rfl
  · have hOpens := Opens.intercalate [',', ' '] hEmpty
      (forall_of_forall₂ h fun _ _ hText => hText.opens)
    rw [enclose_line '\x7b' '\x7d' hEmpty] at hFuel ⊢
    rw [List.length_cons, List.length_append, List.length_singleton] at hFuel
    rw [List.cons_append, List.append_assoc, List.singleton_append,
      value_dictionary (hOpens.append _), entries_intercalate h hEmpty (by omega),
      ← dictionary_entriesOf hKeys]
    rfl

/-! ## Plain values -/

theorem exists_writeAll (d : Nat) {vs : List Value}
    (h : ∀ v ∈ vs, ∃ cs, write .line d v = .ok cs ∧ IsTextOf cs v.inKeyOrder) :
    ∃ texts, writeAll .line d vs = .ok texts ∧
      List.Forall₂ IsTextOf texts (vs.map Value.inKeyOrder) := by
  induction vs with
  | nil => exact ⟨[], rfl, .nil⟩
  | cons v vs ih =>
    obtain ⟨⟨cs, hWrite, hText⟩, hRest⟩ := List.forall_mem_cons.mp h
    obtain ⟨texts, hWrites, hTexts⟩ := ih hRest
    refine ⟨cs :: texts, ?_, .cons hText hTexts⟩
    rw [writeAll, hWrite, hWrites]
    rfl

theorem exists_mapM_writeEntry (d : Nat) {fields : List (String × Value)}
    (h : ∀ field ∈ fields, ∃ cs, write .line d field.2 = .ok cs ∧ IsTextOf cs field.2.inKeyOrder) :
    ∃ texts,
      (fields.map fun field => (Key.text field.1, write .line d field.2)).mapM writeEntry =
        .ok texts ∧
      List.Forall₂ IsFieldText texts (fields.map fun field => (field.1, field.2.inKeyOrder)) := by
  induction fields with
  | nil => exact ⟨[], rfl, .nil⟩
  | cons field fields ih =>
    obtain ⟨⟨cs, hWrite, hText⟩, hRest⟩ := List.forall_mem_cons.mp h
    obtain ⟨texts, hWrites, hTexts⟩ := ih hRest
    refine ⟨_ :: texts, ?_, .cons ⟨cs, rfl, hText⟩ hTexts⟩
    rw [List.map_cons, List.mapM_cons, hWrites, hWrite]
    rfl

theorem writeValues_eq_map (style : Style) (d : Nat) (es : List (Key × Value)) :
    writeValues style d es = es.map fun entry => (entry.1, write style d entry.2) := by
  induction es with
  | nil => rw [writeValues, List.map_nil]
  | cons entry es ih => rw [writeValues, ih, List.map_cons]

theorem arrange_fields {α : Type} (fields : List (String × α)) :
    Style.line.arrange (fields.map fun field => (Key.text field.1, field.2)) =
      .ok ((byName fields).map fun field => (Key.text field.1, field.2)) := by
  have hSorts : Style.line.sorts = true := rfl
  rw [Style.arrange, if_pos hSorts, Key.sortEntries_fields]

theorem arrange_writeValues (d : Nat) (fields : List (String × Value)) :
    Style.line.arrange (writeValues .line d
        (fields.map fun field => (Key.text field.1, field.2))) =
      .ok ((byName fields).map fun field => (Key.text field.1, write .line d field.2)) := by
  have hArrange := arrange_fields (fields.map fun field => (field.1, write .line d field.2))
  rw [byName_map, List.map_map, List.map_map] at hArrange
  rw [writeValues_eq_map, List.map_map]
  exact hArrange

/-- The value has a text at any depth, which is read as the value in key order. -/
def ReadsBack (v : Value) : Prop := ∀ d, ∃ cs, write .line d v = .ok cs ∧ IsTextOf cs v.inKeyOrder

theorem readsBack_list {vs : List Value} (h : ∀ v ∈ vs, ReadsBack v) : ReadsBack (.list vs) := by
  intro d
  obtain ⟨texts, hWrite, hTexts⟩ := exists_writeAll (d + 1) fun v hv => h v hv (d + 1)
  rw [Value.inKeyOrder, Value.allInKeyOrder_eq_map, write, hWrite]
  exact ⟨_, rfl, isTextOf_list hTexts d⟩

theorem readsBack_dictionary {fields : List (String × Value)} (hKeys : (fields.map (·.1)).Nodup)
    (h : ∀ field ∈ fields, ReadsBack field.2) : ReadsBack (Event.dictionary fields) := by
  intro d
  have hSorted : ∀ field ∈ byName fields,
      ∃ cs, write .line (d + 1) field.2 = .ok cs ∧ IsTextOf cs field.2.inKeyOrder :=
    fun field hField => h field ((perm_byName fields).mem_iff.mp hField) (d + 1)
  obtain ⟨texts, hWrites, hTexts⟩ := exists_mapM_writeEntry (d + 1) hSorted
  have hNames : (((byName fields).map fun field => (field.1, field.2.inKeyOrder)).map
      (·.1)).Nodup := by
    rw [List.map_map]
    exact ((perm_byName fields).map _).nodup_iff.mpr hKeys
  refine ⟨Style.line.enclose d '\x7b' '\x7d' texts, ?_, ?_⟩
  · rw [Event.dictionary, write, arrange_writeValues]
    simp only [bind, Except.bind, hWrites]
    rfl
  · rw [Value.inKeyOrder_dictionary]
    exact isTextOf_dictionary hTexts hNames d

theorem readsBack_int (h : Decimal.isWritable n = true) : ReadsBack (.int n) := fun _ =>
  ⟨_, if_pos h, isTextOf_intText h⟩

theorem readsBack_text (s : String) : ReadsBack (.text s) := fun _ => ⟨_, rfl, isTextOf_writeText s⟩

/-- A plain value has a text, which is read as the value in key order. -/
theorem readsBack_of_isPlain (h : v.IsPlain) : ReadsBack v := by
  induction h with
  | null => exact fun _ => ⟨_, rfl, isTextOf_null⟩
  | bool b => exact fun _ => ⟨_, rfl, isTextOf_writeBool b⟩
  | int h => exact readsBack_int h
  | text s => exact readsBack_text s
  | list _ ih => exact readsBack_list ih
  | dictionary hKeys _ ih => exact readsBack_dictionary hKeys ih

theorem read_of_isTextOf (h : IsTextOf cs v) : read cs = .ok v := by
  have hRead := h.reads (2 * cs.length + 2) [] (by omega) nofun
  rw [List.append_nil] at hRead
  rw [read, h.opens.skipSpaces_eq, hRead]
  rfl

end Spreadsheet.Json
