import Spreadsheet.Function.Builtin
import Spreadsheet.Proofs.Address.Rectangle
import Spreadsheet.Proofs.Address.Spelling
import Spreadsheet.Proofs.Resolver.Settling
import Spreadsheet.Proofs.Resolver.Walk

/-!
# Ranges

A range stands for the rectangle between its corners, whichever opposite corners spell it. Over the
limit it is refused before any member is asked for. Within it, the range passes on the error of the
first member that has one, in the order row by row, or lists the values that its members hold. The
size that is refused is part of the message, so where it is too long to be written there is none.
-/

set_option autoImplicit false

namespace Spreadsheet

open Evaluation

namespace Formula

def rangeFailure (first last : String) (size limit : Int) : Failure :=
  if Decimal.isWritable size && Decimal.isWritable limit then
    .formula (.rangeTooLarge (rangeText first last) size limit)
  else .numeric .tooLongToWrite

variable {State : Type} {env : Surroundings State} {first last : String} {a b c : Coordinate}
  {cs : List Coordinate} {n : Int} {limit : Option Int} {v : Value} {vs : List Value}
  {cause : String}

theorem rangeFailure_ne_tooDeep {size : Int} :
    rangeFailure first last size n ≠ .tooDeep := by
  intro h
  rw [rangeFailure] at h
  split at h <;> cases h

theorem exceeds_some (h : limit = some n) :
    exceeds limit a b = true ↔ n < Coordinate.rectangleSize a b := by
  subst h
  exact decide_eq_true_iff

theorem exceeds_eq_false :
    exceeds limit a b = false ↔ ∀ n, limit = some n → Coordinate.rectangleSize a b ≤ n := by
  cases limit with
  | none => simp [exceeds]
  | some n => simp [exceeds]

theorem references_range (h : corners first last = .ok (a, b)) :
    (range first last).references limit =
      .ok (if exceeds limit a b then [] else Coordinate.rectangle a b) := by
  rw [references, h]
  rfl

/-- A range over the limit fails in every state and leaves it as it is. -/
theorem evaluate_range_over (hCorners : corners first last = .ok (a, b))
    (hLimit : env.rangeLimit = some n) (hOver : n < Coordinate.rectangleSize a b) (s : State) :
    (range first last).evaluate env s =
      .error (rangeFailure first last (Coordinate.rectangleSize a b) n) s := by
  have hExceeds : exceeds env.rangeLimit a b = true := (exceeds_some hLimit).mpr hOver
  rw [evaluate, hCorners, lift_ok, pure_bind]
  simp only [hExceeds, if_true]
  rw [hLimit, Option.getD_some, rangeFailure]
  split <;> rfl

theorem evaluate_range_within (hCorners : corners first last = .ok (a, b))
    (hLimit : exceeds env.rangeLimit a b = false) :
    (range first last).evaluate env =
      (do return .list (← members env (Coordinate.rectangle a b))) := by
  rw [evaluate, hCorners, lift_ok, pure_bind]
  simp only [hLimit, Bool.false_eq_true, if_false]

end Formula

namespace Recursion

variable {ctx : EvaluationContext} {A : Coordinate → Except Failure (Option Cell)} {c : Coordinate}
  {cs done rest : List Coordinate} {v : Value} {vs : List Value} {cell : Option Cell}
  {cause : String} {first last : String} {a b : Coordinate}

def membersOf (ctx : EvaluationContext) (A : Coordinate → Except Failure (Option Cell))
    (cs : List Coordinate) : Except Failure (List Value) :=
  (Formula.members (surroundings ctx A) cs).outcome ()

/-- The listing goes on past a cell that settles without an error. -/
theorem membersOf_cons (hCell : A c = .ok cell) (hReading : reading cell = some v) :
    membersOf ctx A (c :: cs) =
      (membersOf ctx A cs).map ([v].filter (!Builtin.isNull ·) ++ ·) := by
  unfold membersOf
  rw [Formula.members]
  simp only [surroundings, hCell, lift_ok, pure_bind, Formula.valueOf_of_reading_some hReading]
  rw [← surroundings]
  cases hRest : Formula.members (surroundings ctx A) cs () with
  | ok vs u =>
    rw [outcome, bind_of_ok hRest, outcome_of_ok hRest]
    cases v <;> rfl
  | error e u =>
    rw [outcome_of_error (bind_of_error hRest), outcome_of_error hRest]
    rfl

theorem membersOf_readings {shown : Coordinate → Value}
    (h : ∀ z ∈ cs, ∃ cell, A z = .ok cell ∧ reading cell = some (shown z)) :
    membersOf ctx A cs = .ok ((cs.map shown).filter (!Builtin.isNull ·)) := by
  induction cs with
  | nil => rfl
  | cons c cs ih =>
    obtain ⟨cell, hCell, hReading⟩ := h c List.mem_cons_self
    rw [membersOf_cons hCell hReading, ih fun z hz => h z (List.mem_cons_of_mem c hz), Except.map,
      ← List.filter_append, List.singleton_append, List.map_cons]

/-- The listing ends at the first cell with an error. -/
theorem membersOf_error (hDone : ∀ z ∈ done, ∃ cell v, A z = .ok cell ∧ reading cell = some v)
    {x : Cell} (hCell : A c = .ok (some x)) (hCause : x.error = some cause) :
    membersOf ctx A (done ++ c :: rest) =
      .error (.formula (.dependentCell c.address cause)) := by
  induction done with
  | nil =>
    unfold membersOf
    rw [List.nil_append, Formula.members]
    simp only [surroundings, hCell, lift_ok, pure_bind, Formula.valueOf, hCause]
    rfl
  | cons z zs ih =>
    obtain ⟨cell, v, hClean, hReading⟩ := hDone z List.mem_cons_self
    rw [List.cons_append, membersOf_cons hClean hReading,
      ih fun y hy => hDone y (List.mem_cons_of_mem z hy)]
    rfl

theorem value_range (hCorners : Formula.corners first last = .ok (a, b))
    (hLimit : exceeds ctx.rangeLimit a b = false) :
    value ctx A (.range first last) =
      (membersOf ctx A (Coordinate.rectangle a b)).map .list := by
  unfold value membersOf
  rw [Formula.evaluate_range_within hCorners hLimit]
  exact outcome_map Value.list _ ()

end Recursion

namespace Resolver

variable {ctx : EvaluationContext} {s : Session} {first last : String} {a b c y z : Coordinate}
  {cs roots done rest : List Coordinate} {n : Int} {e : Failure} {vs : List Value}
  {cause : String}

/-! ## A range as a request -/

theorem prepareAll_nil (s : Session) : prepareAll ctx [] s = .ok () s := by
  rw [prepareAll_eq]
  split <;> rfl

/-- A range over the limit is refused without a look at any cell. -/
theorem evaluate_over (hCorners : Formula.corners first last = .ok (a, b))
    (hLimit : ctx.rangeLimit = some n) (hOver : n < Coordinate.rectangleSize a b) (s : Session) :
    evaluate ctx (.range first last) s =
      .error (Formula.rangeFailure first last (Coordinate.rectangleSize a b) n) s := by
  have hExceeds : exceeds ctx.rangeLimit a b = true := (Formula.exceeds_some hLimit).mpr hOver
  have hNode : (Formula.range first last).evaluate (surroundings ctx (resolveCell ctx)) s =
      .error (Formula.rangeFailure first last (Coordinate.rectangleSize a b) n) s :=
    Formula.evaluate_range_over hCorners hLimit hOver s
  have hPlain : (Except.error (Formula.rangeFailure first last (Coordinate.rectangleSize a b) n) :
      Except Failure Value) ≠ .error .tooDeep := by
    rw [Ne, Except.error.injEq]
    exact Formula.rangeFailure_ne_tooDeep
  rw [evaluate_eq, Formula.references_range hCorners, hExceeds, if_pos rfl, lift_ok, pure_bind,
    bind_of_ok (prepareAll_nil s)]
  exact reportDepth_of_ended (.ok none) hNode hPlain

theorem references_within (hCorners : Formula.corners first last = .ok (a, b))
    (hLimit : exceeds ctx.rangeLimit a b = false) :
    (Formula.range first last).references ctx.rangeLimit =
      .ok (Coordinate.rectangle a b) := by
  rw [Formula.references_range hCorners, hLimit]
  rfl

/-- Within the limit a range does what its rectangle says, however the corners are spelled. -/
theorem evaluate_within (hCorners : Formula.corners first last = .ok (a, b))
    (hLimit : exceeds ctx.rangeLimit a b = false) :
    evaluate ctx (.range first last) = (do
      prepareAll ctx (Coordinate.rectangle a b)
      reportDepth (.ok none) (do
        return .list (← Formula.members (surroundings ctx (resolveCell ctx))
          (Coordinate.rectangle a b)))) := by
  rw [evaluate_eq, references_within hCorners hLimit, lift_ok, pure_bind,
    Formula.evaluate_range_within hCorners hLimit]

theorem value_of_shows (hCorners : Formula.corners first last = .ok (a, b))
    (hLimit : exceeds ctx.rangeLimit a b = false) {shown : Coordinate → Value}
    (h : ∀ z ∈ Coordinate.rectangle a b, Shows ctx z (shown z)) :
    Recursion.value ctx (Recursion.settle ctx []) (.range first last) =
      .ok (.list (((Coordinate.rectangle a b).map shown).filter (!Builtin.isNull ·))) := by
  have hReadings : ∀ z ∈ Coordinate.rectangle a b, ∃ cell,
      Recursion.settle ctx [] z = .ok cell ∧ reading cell = some (shown z) := by
    intro z hz
    obtain ⟨cell, hSettles, hReading⟩ := h z hz
    exact ⟨cell, hSettles.settle, hReading⟩
  rw [Recursion.value_range hCorners hLimit, Recursion.membersOf_readings hReadings]
  rfl

theorem outcome_of_shows (hs : s.Faithful ctx) (hCorners : Formula.corners first last = .ok (a, b))
    (hLimit : exceeds ctx.rangeLimit a b = false) {shown : Coordinate → Value}
    (h : ∀ z ∈ Coordinate.rectangle a b, Shows ctx z (shown z)) :
    (evaluate ctx (.range first last)).outcome s =
      .ok (.list (((Coordinate.rectangle a b).map shown).filter (!Builtin.isNull ·))) := by
  have hClean : ∀ z ∈ Coordinate.rectangle a b, Recursion.CleanWithin ctx (depthOf ctx) z :=
    fun z hz => (h z hz).cleanWithin
  rw [evaluate_of_clean hs (references_within hCorners hLimit) hClean,
    value_of_shows hCorners hLimit h]

/-! ## What a range does not report -/

/-- A failure that resolving the cells at some coordinates raises and that no cell keeps to itself:
a cell that one of them leads to meets a cycle or a numeric fault, or too many cells wait for one
another. -/
inductive IsRaised (ctx : EvaluationContext) (cs : List Coordinate) (e : Failure) : Prop
  | refused {z y : Coordinate} (hz : z ∈ cs) (hReach : Reaches ctx z y)
      (hRefused : Refused ctx y e) (he : ¬ Recursion.Recordable e) : IsRaised ctx cs e
  | deep (hRoom : ctx.nestingLimit < Recursion.room ctx []) (he : e.IsDepth) : IsRaised ctx cs e

theorem Reaches.isAddressable (h : Reaches ctx z y) (hz : z.IsAddressable) : y.IsAddressable := by
  cases h with
  | refl => exact hz
  | tail _ hLast => exact hLast.isAddressable

theorem Refused.not_recordable (h : Refused ctx y e) (hy : y.IsAddressable) :
    ¬ Recursion.Recordable e := by
  cases h with
  | references _ hReferences =>
    rintro ⟨fault, rfl, -⟩
    exact textReferences_ne_formula _ fault hReferences
  | cell _ hSettle => exact Recursion.settleWithin_error_of_isAddressable hy hSettle

/-- A range passes on the error of its first member that has one, unless something is raised. -/
theorem outcome_of_errs (hs : s.Faithful ctx) (hCorners : Formula.corners first last = .ok (a, b))
    (hLimit : exceeds ctx.rangeLimit a b = false)
    (hList : Coordinate.rectangle a b = done ++ c :: rest) (hDone : ∀ z ∈ done, ∃ v, Shows ctx z v)
    (hErrs : Errs ctx c cause) :
    (evaluate ctx (.range first last)).outcome s =
        .error (.formula (.dependentCell c.address cause)) ∨
      ∃ e, IsRaised ctx (Coordinate.rectangle a b) e ∧
        (evaluate ctx (.range first last)).outcome s = .error e := by
  have hReferences := references_within hCorners hLimit
  have hAddress : ∀ z ∈ Coordinate.rectangle a b, z.IsAddressable := fun z hz =>
    ((Formula.mem_references _ hReferences).mp hz).isAddressable
  obtain ⟨cell, hSettles, hCause⟩ := hErrs
  have hClean : ∀ z ∈ done, ∃ cell v, Recursion.settle ctx [] z = .ok cell ∧
      reading cell = some v := by
    intro z hz
    obtain ⟨v, x, hx, hReading⟩ := hDone z hz
    exact ⟨x, v, hx.settle, hReading⟩
  have hValue : Recursion.value ctx (Recursion.settle ctx []) (.range first last) =
      .error (.formula (.dependentCell c.address cause)) := by
    rw [Recursion.value_range hCorners hLimit, hList,
      Recursion.membersOf_error hClean hSettles.settle hCause]
    rfl
  rcases evaluate_ending hReferences hs with
    ⟨t, -, hRun⟩ | ⟨t, e, -, hRoom, he, hRun⟩ | ⟨t, e, z, y, -, -, hz, hReach, hRefused, hRun⟩
  · rw [hValue] at hRun
    exact .inl (outcome_of_error hRun)
  · exact .inr ⟨e, .deep hRoom (he.1 ▸ trivial), outcome_of_error hRun⟩
  · have hKept := hRefused.not_recordable (Reaches.isAddressable hReach (hAddress z hz))
    exact .inr ⟨e, .refused hz hReach hRefused hKept, outcome_of_error hRun⟩

/-! ## All spellings of a range -/

/-- What a range with these addresses comes to, where it stands for these members. -/
structure YieldsMembers (ctx : EvaluationContext) (cs : List Coordinate) (first last : String) :
    Prop where
  /-- Over the limit the range fails, wherever it is evaluated, and asks for no member. -/
  tooLarge : ∀ n, ctx.rangeLimit = some n → n < (cs.length : Int) →
    (∀ {State : Type} (env : Surroundings State) s, env.rangeLimit = some n →
      (Formula.range first last).evaluate env s =
        .error (Formula.rangeFailure first last cs.length n) s) ∧
    ∀ s, evaluate ctx (.range first last) s =
      .error (Formula.rangeFailure first last cs.length n) s
  /-- Members that settle without an error are listed, apart from those that hold nothing. -/
  listed : (∀ n, ctx.rangeLimit = some n → (cs.length : Int) ≤ n) → ∀ shown,
    (∀ z ∈ cs, Shows ctx z (shown z)) → ∀ before,
      (evaluate ctx (.range first last)).outcome (after ctx before) =
        .ok (.list ((cs.map shown).filter (!Builtin.isNull ·)))
  /-- The first member that settles to an error is named, unless something is raised. -/
  blamed : (∀ n, ctx.rangeLimit = some n → (cs.length : Int) ≤ n) → ∀ done c rest cause,
    cs = done ++ c :: rest → (∀ z ∈ done, ∃ v, Shows ctx z v) → Errs ctx c cause → ∀ before,
      (evaluate ctx (.range first last)).outcome (after ctx before) =
          .error (.formula (.dependentCell c.address cause)) ∨
        ∃ e, IsRaised ctx cs e ∧
          (evaluate ctx (.range first last)).outcome (after ctx before) = .error e

theorem yieldsMembers_of_corners (hCorners : Formula.corners first last = .ok (a, b)) :
    YieldsMembers ctx (Coordinate.rectangle a b) first last := by
  have hLength := Coordinate.length_rectangle a b
  constructor
  · intro n hLimit hOver
    rw [hLength] at hOver ⊢
    constructor
    · intro State env s hEnv
      exact Formula.evaluate_range_over hCorners hEnv hOver s
    · exact evaluate_over hCorners hLimit hOver
  · intro hWithin shown hShows before
    rw [hLength] at hWithin
    exact outcome_of_shows (after_faithful ctx before) hCorners
      (Formula.exceeds_eq_false.mpr hWithin) hShows
  · intro hWithin done c rest cause hList hDone hErrs before
    rw [hLength] at hWithin
    exact outcome_of_errs (after_faithful ctx before) hCorners
      (Formula.exceeds_eq_false.mpr hWithin) hList hDone hErrs

/-- The rectangle between two addresses lists each of its coordinates once, row by row. Every range
whose addresses name two opposite corners of it stands for this list, and within the limit all these
ranges do the same in every session. -/
theorem range_yields_rectangle (ctx : EvaluationContext)
    (ha : Coordinate.ofAddress first = .ok a) (hb : Coordinate.ofAddress last = .ok b) :
    (Coordinate.rectangle a b).Pairwise Coordinate.Precedes ∧
      (∀ z, z ∈ Coordinate.rectangle a b ↔
        (min a.row b.row ≤ z.row ∧ z.row ≤ max a.row b.row) ∧
          min a.column b.column ≤ z.column ∧ z.column ≤ max a.column b.column) ∧
      ((Coordinate.rectangle a b).length : Int) = Coordinate.rectangleSize a b ∧
      ∀ a' b' first' last', (a', b') ∈ Coordinate.oppositeCorners a b →
        Coordinate.ofAddress first' = .ok a' → Coordinate.ofAddress last' = .ok b' →
          YieldsMembers ctx (Coordinate.rectangle a b) first' last' ∧
            ((∀ n, ctx.rangeLimit = some n → Coordinate.rectangleSize a b ≤ n) →
              evaluate ctx (.range first' last') = evaluate ctx (.range first last)) := by
  refine ⟨Coordinate.pairwise_rectangle a b, fun z => Coordinate.mem_rectangle,
    Coordinate.length_rectangle a b, ?_⟩
  intro a' b' first' last' hMem ha' hb'
  have hSame := Coordinate.rectangle_of_mem_oppositeCorners hMem
  have hSize := Coordinate.rectangleSize_of_mem_oppositeCorners hMem
  have hCorners' := Formula.corners_eq_ok.mpr ⟨ha', hb'⟩
  constructor
  · rw [← hSame]
    exact yieldsMembers_of_corners hCorners'
  · intro hWithin
    rw [evaluate_within (Formula.corners_eq_ok.mpr ⟨ha, hb⟩) (Formula.exceeds_eq_false.mpr hWithin)]
    rw [← hSize] at hWithin
    rw [evaluate_within hCorners' (Formula.exceeds_eq_false.mpr hWithin), hSame]

/-- A sheet with a number, a cell that holds nothing, and a formula. -/
def patchySheet : EvaluationContext where
  grid := ⟨[(⟨0, 0⟩, { value := .int 2 }), (⟨0, 1⟩, {}), (⟨1, 1⟩, { formula := some "=A1*3" })],
    by decide⟩
  rangeLimit := some 4

theorem patchySheet_lists_rectangle :
    Coordinate.ofAddress "A1" = .ok ⟨0, 0⟩ ∧ Coordinate.ofAddress "B2" = .ok ⟨1, 1⟩ ∧
      (evaluate patchySheet (.range "b1" "A02")).outcome (after patchySheet [.cell ⟨1, 1⟩]) =
        .ok (.list [.int 2, .int 6]) := by
  have hFirst : Coordinate.ofAddress "A1" = .ok ⟨0, 0⟩ := by cbv
  have hLast : Coordinate.ofAddress "B2" = .ok ⟨1, 1⟩ := by cbv
  have hRight : Coordinate.ofAddress "b1" = .ok ⟨0, 1⟩ := by cbv
  have hLeft : Coordinate.ofAddress "A02" = .ok ⟨1, 0⟩ := by cbv
  have hMembers : Coordinate.rectangle ⟨0, 0⟩ ⟨1, 1⟩ = [⟨0, 0⟩, ⟨0, 1⟩, ⟨1, 0⟩, ⟨1, 1⟩] := by decide
  obtain ⟨-, -, -, hSpelled⟩ := range_yields_rectangle patchySheet hFirst hLast
  obtain ⟨hYields, -⟩ := hSpelled _ _ "b1" "A02" (by decide) hRight hLeft
  let shown : Coordinate → Value := fun z =>
    if z = ⟨0, 0⟩ then .int 2 else if z = ⟨1, 1⟩ then .int 6 else .null
  have hShows : ∀ z ∈ Coordinate.rectangle ⟨0, 0⟩ ⟨1, 1⟩, Shows patchySheet z (shown z) := by
    rw [hMembers]
    simp only [List.forall_mem_cons, List.not_mem_nil, false_implies, implies_true, and_true]
    refine ⟨⟨some { value := .int 2 }, ⟨[], ?_⟩, rfl⟩, ⟨some {}, ⟨[], ?_⟩, rfl⟩,
      ⟨none, ⟨[], ?_⟩, rfl⟩, ⟨some { value := .int 6, formula := some "=A1*3" }, ⟨[], ?_⟩, rfl⟩⟩
    all_goals cbv
  refine ⟨hFirst, hLast, ?_⟩
  have hWithin : ∀ n, patchySheet.rangeLimit = some n →
      ((Coordinate.rectangle ⟨0, 0⟩ ⟨1, 1⟩).length : Int) ≤ n := by
    rintro n ⟨⟩
    decide
  rw [hYields.listed hWithin shown hShows [.cell ⟨1, 1⟩], hMembers]
  rfl

end Resolver

/-! ## Sizes that are too long for a message -/

namespace Decimal

theorem ofDigits_nines (k : Nat) : ofDigits (List.replicate k '9') + 1 = 10 ^ k := by
  induction k with
  | zero => rfl
  | succ k ih =>
    have hNine : '9'.toNat - '0'.toNat = 9 := rfl
    rw [List.replicate_succ', ofDigits_append_singleton, pow_succ, ← ih]
    omega

theorem isWritable_iff {n : Int} : isWritable n = true ↔ n.natAbs < 10 ^ digitLimit := by
  rw [isWritable, decide_eq_true_iff]
  exact Nat.length_toDigits_le_iff (by decide) (by decide)

end Decimal

namespace Resolver

open Lexer

/-- An address in the second column whose row has so many nines. -/
def ninesBelow (k : Nat) : String := String.ofList ('B' :: List.replicate k '9')

theorem ofAddress_ninesBelow {k : Nat} (hk : 0 < k) (hLimit : k ≤ Decimal.digitLimit) :
    ∃ n : Nat, n + 2 = 10 ^ k ∧ Coordinate.ofAddress (ninesBelow k) = .ok ⟨n, 1⟩ := by
  have hDigits : AreDigits (List.replicate k '9') := by
    intro c hc
    rw [List.eq_of_mem_replicate hc]
    rfl
  have hLetters : AreLetters ['B'] := by simp [AreLetters, isLetter]
  have hRow : List.replicate k '9' ≠ [] := by simp [hk.ne']
  have hSplit : Coordinate.splitAddress (ninesBelow k).toList =
      some (['B'], List.replicate k '9') := by
    rw [ninesBelow, String.toList_ofList]
    exact splitAddress_of_letters (List.cons_ne_nil _ _) hLetters hRow hDigits
  have hNumber := Decimal.ofDigits_nines k
  have hTen : 10 ^ 1 ≤ 10 ^ k := Nat.pow_le_pow_right (by decide) hk
  obtain ⟨n, hn⟩ : ∃ n, Decimal.ofDigits (List.replicate k '9') = n + 1 :=
    Nat.exists_eq_succ_of_ne_zero (by omega)
  refine ⟨n, by omega, ?_⟩
  rw [Coordinate.ofAddress, hSplit]
  simp only [Decimal.read, List.length_replicate, if_pos hLimit, hn]
  rfl

/-- A range of two columns with the longest rows that are read has a size that is too long to be
written, so it is refused without a fault of formulas. -/
theorem longest_range_is_not_reported :
    ∃ a b, Coordinate.ofAddress "A1" = .ok a ∧
      Coordinate.ofAddress (ninesBelow Decimal.digitLimit) = .ok b ∧
      1 < Coordinate.rectangleSize a b ∧
      ∀ s, evaluate { rangeLimit := some 1 } (.range "A1" (ninesBelow Decimal.digitLimit)) s =
        .error (.numeric .tooLongToWrite) s := by
  have hFirst : Coordinate.ofAddress "A1" = .ok ⟨0, 0⟩ := by cbv
  obtain ⟨n, hn, hLast⟩ := ofAddress_ninesBelow (by decide) (le_refl Decimal.digitLimit)
  have hLarge : 10 ^ 1 ≤ 10 ^ Decimal.digitLimit := Nat.pow_le_pow_right (by decide) (by decide)
  have hSize : Coordinate.rectangleSize ⟨0, 0⟩ ⟨n, 1⟩ = ((n + 1) * 2 : Nat) := by
    simp [Coordinate.rectangleSize]
  have hLong : Decimal.isWritable (Coordinate.rectangleSize ⟨0, 0⟩ ⟨n, 1⟩) = false := by
    rw [← Bool.not_eq_true, Decimal.isWritable_iff, hSize, Int.natAbs_natCast]
    omega
  have hOver : 1 < Coordinate.rectangleSize ⟨0, 0⟩ ⟨n, 1⟩ := by
    rw [hSize]
    omega
  refine ⟨_, _, hFirst, hLast, hOver, fun s => ?_⟩
  rw [evaluate_over (Formula.corners_eq_ok.mpr ⟨hFirst, hLast⟩) rfl hOver s, Formula.rangeFailure,
    hLong]
  rfl

end Resolver
end Spreadsheet
