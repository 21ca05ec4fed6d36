import Spreadsheet.Proofs.Json.Torn

/-!
# Halves of pairs

An escape may spell half of a pair of units. Without its other half that is no character, and the
reader takes another one for it. Where each such escape is next to that of the other half the same
is read whatever is taken for a half.
-/

set_option autoImplicit false

namespace Spreadsheet.Json

/-- Each escape of half a pair is next to that of its other half. The truth value tells whether the
half that begins a pair comes right before. -/
def arePaired : Bool → List Char → Bool
  | opened, [] => !opened
  | opened, '\\' :: 'u' :: a :: b :: c :: d :: r =>
    match unit? (a :: b :: c :: d :: r) with
    | some (n, _) => isTrailing n == opened && arePaired (isLeading n) r
    | none => !opened && arePaired false r
  | opened, '\\' :: _ :: r => !opened && arePaired false r
  | opened, _ :: r => !opened && arePaired false r

variable {α β : Type} {fuel n : Nat} {c : Char} {cs taken r rest : List Char}

theorem arePaired_cons (h : c ≠ '\\') (r : List Char) :
    arePaired false (c :: r) = arePaired false r := by
  rw [arePaired.eq_def]
  split
  · contradiction
  · rename_i hSame
    exact absurd (List.head_eq_of_cons_eq hSame) h
  · rename_i hSame
    exact absurd (List.head_eq_of_cons_eq hSame) h
  · rename_i hSame
    rw [List.tail_eq_of_cons_eq hSame]
    rfl

theorem arePaired_append (h : '\\' ∉ taken) (rest : List Char) :
    arePaired false (taken ++ rest) = arePaired false rest := by
  induction taken with
  | nil => rfl
  | cons c taken ih =>
    obtain ⟨hFirst, hRest⟩ := List.ne_and_not_mem_of_not_mem_cons h
    rw [List.cons_append, arePaired_cons (Ne.symm hFirst), ih hRest]

/-! ## Escapes -/

theorem arePaired_unit (h : unit? cs = some (n, r)) (opened : Bool) :
    arePaired opened ('\\' :: 'u' :: cs) =
      (isTrailing n == opened && arePaired (isLeading n) r) := by
  obtain ⟨a, b, c, d, rfl⟩ := exists_of_unit? h
  rw [arePaired, h]

theorem arePaired_mark (h : c ≠ 'u') (r : List Char) :
    arePaired false ('\\' :: c :: r) = arePaired false r := by
  rw [arePaired.eq_def]
  split
  · contradiction
  · rename_i hSame
    exact absurd (List.head_eq_of_cons_eq (List.tail_eq_of_cons_eq hSame)) h
  · rename_i hSame
    rw [List.tail_eq_of_cons_eq (List.tail_eq_of_cons_eq hSame)]
    rfl
  · rename_i hOther hSame
    exact (hOther c r (List.head_eq_of_cons_eq hSame).symm
      (List.tail_eq_of_cons_eq hSame).symm).elim

/-- Right behind a half that begins a pair comes one that ends it. -/
theorem exists_trailing (h : arePaired true cs = true) :
    ∃ cs' m r, cs = '\\' :: 'u' :: cs' ∧ unit? cs' = some (m, r) ∧ isTrailing m = true ∧
      arePaired (isLeading m) r = true := by
  rw [arePaired.eq_def] at h
  split at h
  · cases h
  · rename_i a b c d r
    split at h
    · rename_i m r' hUnit
      obtain ⟨hTrailing, hRest⟩ := Bool.and_eq_true_iff.mp h
      obtain ⟨_, _, _, _, hSame⟩ := exists_of_unit? hUnit
      cases hSame
      exact ⟨_, m, r, rfl, hUnit, beq_iff_eq.mp hTrailing, hRest⟩
    · cases h
  · cases h
  · cases h

theorem isLeading_of_isTrailing (h : isTrailing n = true) : isLeading n = false := by
  simp only [isTrailing, isLeading, Bool.and_eq_true, decide_eq_true_eq, Bool.and_eq_false_iff,
    decide_eq_false_iff_not] at h ⊢
  omega

theorem ofUnit_paired (hTrailing : isTrailing n = false) (h : arePaired (isLeading n) r = true) :
    ∃ c rest, (∀ lone, ofUnit n r lone = some (c, rest)) ∧ arePaired false rest = true := by
  cases hLeading : isLeading n with
  | true =>
    rw [hLeading] at h
    obtain ⟨cs, m, rest, rfl, hUnit, hEnd, hRest⟩ := exists_trailing h
    rw [isLeading_of_isTrailing hEnd] at hRest
    refine ⟨Char.ofNat (0x10000 + (n - 0xd800) * 0x400 + (m - 0xdc00)), rest, fun lone => ?_, hRest⟩
    simp only [ofUnit, hLeading, if_true, hUnit, Option.bind_eq_bind, Option.bind_some, hEnd]
    rfl
  | false =>
    rw [hLeading] at h
    refine ⟨Char.ofNat n, r, fun lone => ?_, h⟩
    simp only [ofUnit, hLeading, hTrailing, Bool.false_eq_true, if_false]

/-! ## What is read -/

/-- It does not matter what is taken for a half, and each half that is left has its other half. -/
structure Steady {m : Type → Type} [Pure m] (x : (Nat → Char) → m (α × List Char)) : Prop where
  same : ∀ lone, x lone = x loneUnit
  rest : ∀ a r, x loneUnit = pure (a, r) → arePaired false r = true

theorem steady_none : Steady fun _ => (none : Option (α × List Char)) :=
  ⟨fun _ => rfl, fun _ _ h => by cases h⟩

theorem steady_some (a : α) (h : arePaired false r = true) : Steady fun _ => some (a, r) :=
  ⟨fun _ => rfl, fun _ _ hSame => by cases hSame; exact h⟩

theorem steady_error (fault : ReadFault) :
    Steady fun _ => (.error fault : Except ReadFault (α × List Char)) :=
  ⟨fun _ => rfl, fun _ _ h => by cases h⟩

theorem steady_ok (a : α) (h : arePaired false r = true) :
    Steady fun _ => (.ok (a, r) : Except ReadFault (α × List Char)) :=
  ⟨fun _ => rfl, fun _ _ hSame => by cases hSame; exact h⟩

theorem Steady.bind {x : (Nat → Char) → Except ReadFault (α × List Char)}
    {f : (Nat → Char) → α × List Char → Except ReadFault (β × List Char)} (h : Steady x)
    (hNext : ∀ a r, arePaired false r = true → Steady fun lone => f lone (a, r)) :
    Steady fun lone => x lone >>= f lone := by
  have hRest := h.rest
  rw [funext h.same]
  cases hFirst : x loneUnit with
  | error fault => exact steady_error fault
  | ok found => exact hNext found.1 found.2 (hRest _ _ hFirst)

/-- A part of a text comes first. -/
theorem Steady.bindPart {x : (Nat → Char) → Option (α × List Char)}
    {f : (Nat → Char) → α × List Char → Option (β × List Char)} (h : Steady x)
    (hNext : ∀ a r, arePaired false r = true → Steady fun lone => f lone (a, r)) :
    Steady fun lone => x lone >>= f lone := by
  have hRest := h.rest
  rw [funext h.same]
  cases hFirst : x loneUnit with
  | none => exact steady_none
  | some found => exact hNext found.1 found.2 (hRest _ _ hFirst)

theorem steady_unescaped (h : arePaired false ('\\' :: cs) = true) :
    Steady fun lone => unescaped cs lone := by
  cases cs with
  | nil => exact steady_none
  | cons mark cs =>
    by_cases hMark : mark = 'u'
    · subst hMark
      simp only [unescaped]
      cases hUnit : unit? cs with
      | none => exact steady_none
      | some found =>
        obtain ⟨n, r⟩ := found
        rw [arePaired_unit hUnit, Bool.and_eq_true, beq_iff_eq] at h
        obtain ⟨c, rest, hFound, hRest⟩ := ofUnit_paired h.1 h.2
        simp only [Option.bind_eq_bind, Option.bind_some, hFound]
        exact steady_some c hRest
    · rw [arePaired_mark hMark] at h
      have hEscape (lone : Nat → Char) :
          unescaped (mark :: cs) lone = (escapes.lookup mark).map (·, cs) := by
        rw [unescaped.eq_2 lone mark cs hMark]
      simp only [hEscape]
      cases escapes.lookup mark with
      | none => exact steady_none
      | some c => exact steady_some c h

theorem steady_textRest (fuel : Nat) {cs : List Char} (h : arePaired false cs = true) :
    Steady fun lone => textRest fuel cs lone := by
  induction fuel generalizing cs with
  | zero => exact steady_none
  | succ fuel ih =>
    cases cs with
    | nil => exact steady_none
    | cons c r =>
      have hNext (c' : Char) {r' : List Char} (h : arePaired false r' = true) :
          Steady fun lone => textRest fuel r' lone >>= fun found => some (c' :: found.1, found.2) :=
        (ih h).bindPart fun s r hr => steady_some (c' :: s) hr
      simp only [textRest]
      split_ifs with hQuote hEscape hControl
      · obtain rfl := beq_iff_eq.mp hQuote
        rw [arePaired_cons (by decide)] at h
        exact steady_some [] h
      · obtain rfl := beq_iff_eq.mp hEscape
        exact (steady_unescaped h).bindPart fun c' r' hr' => hNext c' hr'
      · exact steady_none
      · rw [arePaired_cons (ne_of_beq_false (Bool.eq_false_iff.mpr hEscape))] at h
        exact hNext c h

theorem steady_text (fuel : Nat) (h : arePaired false cs = true) :
    Steady fun lone => text fuel cs lone := by
  obtain ⟨hSame, hRest⟩ := steady_textRest fuel h
  have hEnds : (fun lone => text fuel cs lone) = fun _ => text fuel cs :=
    funext fun lone => by rw [text, hSame lone, text]
  rw [hEnds, text]
  cases hText : textRest fuel cs with
  | none => exact steady_error .malformed
  | some found => exact steady_ok _ (hRest _ _ hText)

/-! ## Values -/

theorem arePaired_of_leaves (h : Leaves outerMarks cs rest) (hPaired : arePaired false cs = true) :
    arePaired false rest = true := by
  obtain ⟨taken, rfl, hTaken⟩ := h
  rwa [arePaired_append fun hMem => hTaken _ hMem (List.mem_cons_of_mem _ List.mem_cons_self)]
    at hPaired

theorem arePaired_skipSpaces (h : arePaired false cs = true) :
    arePaired false (skipSpaces cs) = true := by
  rw [← List.takeWhile_append_dropWhile (p := isSpace) (l := cs)] at h
  rwa [arePaired_append fun hMem => by cases List.mem_takeWhile_imp hMem] at h

theorem arePaired_behind {c : Char} (hMark : c ≠ '\\') (h : arePaired false cs = true)
    (hSpaces : skipSpaces cs = c :: r) : arePaired false r = true := by
  have hRest := arePaired_skipSpaces h
  rwa [hSpaces, arePaired_cons hMark] at hRest

/-- The reader is steady where each half has its other half. -/
def IsSteady (reader : (Nat → Char) → List Char → Except ReadFault (α × List Char)) : Prop :=
  ∀ cs, arePaired false cs = true → Steady fun lone => reader lone cs

theorem isSteady_value_succ (hItems : IsSteady fun lone cs => items fuel cs lone)
    (hEntries : IsSteady fun lone cs => entries fuel cs lone) :
    IsSteady fun lone cs => value (fuel + 1) cs lone := by
  intro cs h
  cases cs with
  | nil => exact steady_error .malformed
  | cons c r =>
    simp only [value]
    split_ifs with hQuote hList hDictionary
    · obtain rfl := beq_iff_eq.mp hQuote
      rw [arePaired_cons (by decide)] at h
      exact (steady_text fuel h).bind fun s r hr => steady_ok _ hr
    · obtain rfl := beq_iff_eq.mp hList
      rw [arePaired_cons (by decide)] at h
      split
      · rename_i r' hClosed
        exact steady_ok _ (arePaired_behind (by decide) h hClosed)
      · exact (hItems _ (arePaired_skipSpaces h)).bind fun vs r hr => steady_ok _ hr
    · obtain rfl := beq_iff_eq.mp hDictionary
      rw [arePaired_cons (by decide)] at h
      split
      · rename_i r' hClosed
        exact steady_ok _ (arePaired_behind (by decide) h hClosed)
      · exact (hEntries _ (arePaired_skipSpaces h)).bind fun es r hr => steady_ok _ hr
    · cases hWord : word? (c :: r) with
      | some found => exact steady_ok found.1 (arePaired_of_leaves (leaves_of_word? hWord) h)
      | none =>
        cases hNumber : number (c :: r) with
        | error fault => exact steady_error fault
        | ok found => exact steady_ok found.1 (arePaired_of_leaves (leaves_of_number hNumber) h)

theorem isSteady_items_succ (hValue : IsSteady fun lone cs => value fuel cs lone)
    (hItems : IsSteady fun lone cs => items fuel cs lone) :
    IsSteady fun lone cs => items (fuel + 1) cs lone := by
  intro cs h
  simp only [items]
  refine (hValue cs h).bind fun v r hr => ?_
  dsimp only
  split
  · rename_i r' hComma
    have hNext := arePaired_skipSpaces (arePaired_behind (by decide) hr hComma)
    exact (hItems _ hNext).bind fun vs r hr => steady_ok _ hr
  · rename_i r' hClosed
    exact steady_ok _ (arePaired_behind (by decide) hr hClosed)
  · exact steady_error .malformed

theorem isSteady_entries_succ (hValue : IsSteady fun lone cs => value fuel cs lone)
    (hEntries : IsSteady fun lone cs => entries fuel cs lone) :
    IsSteady fun lone cs => entries (fuel + 1) cs lone := by
  intro cs h
  cases cs with
  | nil => exact steady_error .malformed
  | cons c r =>
    simp only [entries]
    by_cases hQuote : c = '"'
    swap
    · simp only [bne_iff_ne.mpr hQuote, if_true]
      exact steady_error .malformed
    subst hQuote
    rw [arePaired_cons (by decide)] at h
    simp only [bne_self_eq_false, Bool.false_eq_true, if_false]
    refine (steady_text fuel h).bind fun k r₁ hr₁ => ?_
    dsimp only
    cases hColon : expect ':' r₁ with
    | error fault => exact steady_error fault
    | ok r₂ =>
      obtain ⟨r', hMark, rfl⟩ := exists_of_expect hColon
      have hFirst := arePaired_skipSpaces (arePaired_behind (by decide) hr₁ hMark)
      refine (hValue _ hFirst).bind fun v r₃ hr₃ => ?_
      dsimp only
      split
      · rename_i r' hComma
        have hNext := arePaired_skipSpaces (arePaired_behind (by decide) hr₃ hComma)
        exact (hEntries _ hNext).bind fun es r hr => steady_ok _ hr
      · rename_i r' hClosed
        exact steady_ok _ (arePaired_behind (by decide) hr₃ hClosed)
      · exact steady_error .malformed

theorem isSteady_value (fuel : Nat) :
    (IsSteady fun lone cs => value fuel cs lone) ∧
      (IsSteady fun lone cs => items fuel cs lone) ∧
        IsSteady fun lone cs => entries fuel cs lone := by
  induction fuel with
  | zero =>
    have hEntries (cs : List Char) (lone : Nat → Char) : entries 0 cs lone = .error .malformed := by
      cases cs <;> rfl
    have hValue (cs : List Char) (lone : Nat → Char) : value 0 cs lone = .error .malformed := by
      cases cs <;> rfl
    refine ⟨fun cs _ => ?_, fun cs _ => steady_error .malformed, fun cs _ => ?_⟩
    · simp only [hValue]
      exact steady_error .malformed
    · simp only [hEntries]
      exact steady_error .malformed
  | succ fuel ih =>
    obtain ⟨hValue, hItems, hEntries⟩ := ih
    exact ⟨isSteady_value_succ hItems hEntries, isSteady_items_succ hValue hItems,
      isSteady_entries_succ hValue hEntries⟩

/-- What is taken for a half does not matter where each half is next to the other one. -/
theorem read_of_arePaired (h : arePaired false cs = true) (lone : Nat → Char) :
    read cs lone = read cs := by
  have hSame : value (2 * cs.length + 2) (skipSpaces cs) lone = _ :=
    ((isSteady_value _).1 _ (arePaired_skipSpaces h)).same lone
  rw [read, hSame, read]

end Spreadsheet.Json
