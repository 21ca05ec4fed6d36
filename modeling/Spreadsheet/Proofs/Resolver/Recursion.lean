import Spreadsheet.Resolver
import Spreadsheet.Proofs.Evaluation.OwnFailure

/-!
# Plain recursion

The settled cells of a grid by recursion on the formulas alone: nothing is remembered and no state
is kept. `settleWithin` bounds how many cells may wait for one another; `settle` leaves room for
every formula cell, and `settle_formula` is its recursion equation. This is what the runs of a
resolver are compared with.
-/

set_option autoImplicit false

namespace Spreadsheet

open Evaluation Resolver

namespace Recursion

/-- What a formula needs when its cells are settled without a state. -/
def surroundings (ctx : EvaluationContext) (settle : Coordinate → Except Failure (Option Cell)) :
    Surroundings Unit where
  rangeLimit := ctx.rangeLimit
  functions := ctx.functions
  settle c := lift (settle c)
  noteCall _ _ := pure ()

def value (ctx : EvaluationContext) (settle : Coordinate → Except Failure (Option Cell))
    (f : Formula) : Except Failure Value :=
  (f.evaluate (surroundings ctx settle)).outcome ()

def tree (text : String) : Except Failure Formula :=
  match Formula.parse text with
  | .ok f => .ok f
  | .error fault => .error (.formula (.parsing fault))

theorem tree_eq_ok {text : String} {f : Formula} :
    tree text = .ok f ↔ Formula.parse text = .ok f := by
  unfold tree
  cases Formula.parse text <;> simp

def textValue (ctx : EvaluationContext) (settle : Coordinate → Except Failure (Option Cell))
    (text : String) : Except Failure Value :=
  match tree text with
  | .ok f => value ctx settle f
  | .error e => .error e

/-- The cell or the failure that a formula cell comes to. -/
def settledBy (c : Coordinate) (text : String) (r : Except Failure Value) :
    Except Failure (Option Cell) :=
  match settledCell c text r with
  | .ok cell => .ok (some cell)
  | .error e => .error e

/-- The settled cell at a coordinate when some cells wait already and `depth` more may. -/
def settleWithin (ctx : EvaluationContext) (depth : Nat) (waiting : List Coordinate)
    (c : Coordinate) : Except Failure (Option Cell) :=
  if waiting.contains c then .error (.formula (.circular (cyclePath waiting c)))
  else
    match formulaOf (ctx.grid.get? c) with
    | none => .ok (ctx.grid.get? c)
    | some text =>
      match depth with
      | 0 => .error .tooDeep
      | depth + 1 =>
        settledBy c text (textValue ctx (settleWithin ctx depth (c :: waiting)) text)

variable {ctx : EvaluationContext} {w : List Coordinate} {c : Coordinate} {text : String}

theorem settleWithin_of_mem (d : Nat) (h : c ∈ w) :
    settleWithin ctx d w c = .error (.formula (.circular (cyclePath w c))) := by
  rw [settleWithin.eq_def]
  simp [h]

theorem settleWithin_literal (d : Nat) (hc : c ∉ w) (h : formulaOf (ctx.grid.get? c) = none) :
    settleWithin ctx d w c = .ok (ctx.grid.get? c) := by
  rw [settleWithin.eq_def]
  simp [hc, h]

theorem settleWithin_zero (hc : c ∉ w) (h : formulaOf (ctx.grid.get? c) = some text) :
    settleWithin ctx 0 w c = .error .tooDeep := by
  rw [settleWithin.eq_def]
  simp [hc, h]

theorem settleWithin_succ (d : Nat) (hc : c ∉ w) (h : formulaOf (ctx.grid.get? c) = some text) :
    settleWithin ctx (d + 1) w c =
      settledBy c text (textValue ctx (settleWithin ctx d (c :: w)) text) := by
  rw [settleWithin.eq_def]
  simp [hc, h]

/-- A formula cell that settles by itself came to what its formula came to within less depth. -/
theorem exists_settledBy {d : Nat} {cell : Option Cell}
    (hText : formulaOf (ctx.grid.get? c) = some text) (h : settleWithin ctx d [] c = .ok cell) :
    ∃ e, d = e + 1 ∧ settledBy c text (textValue ctx (settleWithin ctx e [c]) text) = .ok cell := by
  cases d with
  | zero =>
    rw [settleWithin_zero (by simp) hText] at h
    cases h
  | succ e =>
    rw [settleWithin_succ e (by simp) hText] at h
    exact ⟨e, rfl, h⟩

/-! ## What a formula cell records -/

theorem settledBy_of_ok {r : Except Failure Value} {cell : Cell}
    (h : settledCell c text r = .ok cell) : settledBy c text r = .ok (some cell) := by
  rw [settledBy, h]

theorem settledBy_of_error {r : Except Failure Value} {e : Failure}
    (h : settledCell c text r = .error e) : settledBy c text r = .error e := by
  rw [settledBy, h]

/-- A failure that is recorded in the cell whose formula meets it. -/
def Recordable (e : Failure) : Prop := ∃ fault, e = .formula fault ∧ fault.isCircular = false

theorem settledCell_of_not_recordable {e : Failure} (h : ¬ Recordable e) :
    settledCell c text (.error e) = .error e := by
  cases e with
  | formula fault =>
    cases hCircular : fault.isCircular with
    | false => exact absurd ⟨fault, rfl, hCircular⟩ h
    | true => simp [settledCell, hCircular]
  | numeric fault => rfl
  | tooDeep => rfl

theorem settledBy_of_not_recordable {e : Failure} (h : ¬ Recordable e) :
    settledBy c text (.error e) = .error e :=
  settledBy_of_error (settledCell_of_not_recordable h)

theorem recordable_of_settledBy {r : Except Failure Value} {cell : Option Cell} {e : Failure}
    (h : settledBy c text r = .ok cell) (he : r = .error e) : Recordable e := by
  by_contra hNot
  rw [he, settledBy_of_not_recordable hNot] at h
  cases h

theorem settledBy_error_of_isAddressable {r : Except Failure Value} {e : Failure}
    (hc : c.IsAddressable) (h : settledBy c text r = .error e) : r = .error e ∧ ¬ Recordable e := by
  cases r with
  | ok v => cases h
  | error e' =>
    by_cases hRecordable : Recordable e'
    · obtain ⟨fault, rfl, hCircular⟩ := hRecordable
      simp [settledBy, settledCell, hCircular, hc.toAddress_eq] at h
    · rw [settledBy_of_not_recordable hRecordable] at h
      cases h
      exact ⟨rfl, hRecordable⟩

/-! ## Formulas over two ways to settle cells -/

theorem agree_of_follows {State : Type} {I : State → Prop} {aside slips : Failure → Prop}
    {A : Coordinate → Except Failure (Option Cell)} {env : Surroundings State}
    {asked : Coordinate → Prop} (hLimit : env.rangeLimit = ctx.rangeLimit)
    (hFunctions : env.functions = ctx.functions)
    (hNote : ∀ key arguments, Follows I aside slips (.ok ()) (env.noteCall key arguments))
    (h : ∀ z, asked z → Follows I aside slips (A z) (env.settle z)) :
    Formula.Agree I aside slips asked (surroundings ctx A) env where
  rangeLimit := hLimit
  functions := hFunctions
  noteCall := hNote
  settle z hz address := by
    have hLift : Follows I aside slips ((lift (A z) : Evaluation Unit (Option Cell)).outcome ())
        (env.settle z) := by
      rw [outcome_lift]
      exact h z hz
    exact hLift.bind fun cell => Formula.valueOf_follows address cell

section Congruence

variable (aside : Failure → Prop) {A B : Coordinate → Except Failure (Option Cell)}

/-- Failures of cells that are set aside count as agreement, unless the formula fails with one. -/
theorem value_congr {f : Formula}
    (h : ∀ z, f.Asks ctx.rangeLimit z → (∀ e, A z = .error e → ¬ aside e) → B z = A z)
    (hValue : ∀ e, value ctx A f = .error e → ¬ aside e) : value ctx B f = value ctx A f := by
  have hAgree : Formula.Agree (fun _ => True) aside (fun _ => False) (f.Asks ctx.rangeLimit)
      (surroundings ctx A) (surroundings ctx B) := by
    refine agree_of_follows rfl rfl (fun _ _ => follows_pure ()) fun z hz hAside => ?_
    simp only [surroundings, h z hz hAside]
    exact follows_lift (A z) hAside
  obtain ⟨s, -, hRun | ⟨_, hSlip, -⟩⟩ := Formula.evaluate_follows f hAgree hValue () trivial
  · exact outcome_of_ended hRun
  · exact hSlip.elim

theorem textValue_congr
    (h : ∀ f, tree text = .ok f → ∀ z, f.Asks ctx.rangeLimit z →
      (∀ e, A z = .error e → ¬ aside e) → B z = A z)
    (hValue : ∀ e, textValue ctx A text = .error e → ¬ aside e) :
    textValue ctx B text = textValue ctx A text := by
  unfold textValue at hValue ⊢
  cases hTree : tree text with
  | error e => rfl
  | ok f =>
    rw [hTree] at hValue
    exact value_congr aside (h f hTree) hValue

end Congruence

/-! ## Depth and waiting cells -/

/-- More depth changes nothing for a cell that did not run out of it. -/
theorem settleWithin_mono {d d' : Nat} (hd : d ≤ d')
    (h : settleWithin ctx d w c ≠ .error .tooDeep) :
    settleWithin ctx d' w c = settleWithin ctx d w c := by
  induction d generalizing d' w c with
  | zero =>
    by_cases hc : c ∈ w
    · rw [settleWithin_of_mem d' hc, settleWithin_of_mem 0 hc]
    · cases hText : formulaOf (ctx.grid.get? c) with
      | none => rw [settleWithin_literal d' hc hText, settleWithin_literal 0 hc hText]
      | some text => exact absurd (settleWithin_zero hc hText) h
  | succ d ih =>
    by_cases hc : c ∈ w
    · rw [settleWithin_of_mem d' hc, settleWithin_of_mem (d + 1) hc]
    · cases hText : formulaOf (ctx.grid.get? c) with
      | none => rw [settleWithin_literal d' hc hText, settleWithin_literal (d + 1) hc hText]
      | some text =>
        obtain ⟨d', rfl⟩ : ∃ k, d' = k + 1 := ⟨d' - 1, by omega⟩
        rw [settleWithin_succ d hc hText] at h ⊢
        rw [settleWithin_succ d' hc hText]
        congr 1
        apply textValue_congr (· = .tooDeep)
        · intro f _ z _ hz
          exact ih (by omega) fun hDeep => hz _ hDeep rfl
        · rintro e he rfl
          rw [he] at h
          exact h rfl

/-- A cell that meets no cycle is settled alike when fewer cells wait. -/
theorem settleWithin_drop {d : Nat} {w' : List Coordinate} (hw : w' ⊆ w)
    (h : ∀ path, settleWithin ctx d w c ≠ .error (.formula (.circular path))) :
    settleWithin ctx d w' c = settleWithin ctx d w c := by
  have hc : c ∉ w := fun hc => h _ (settleWithin_of_mem d hc)
  have hc' : c ∉ w' := fun hc' => hc (hw hc')
  induction d generalizing w w' c with
  | zero =>
    cases hText : formulaOf (ctx.grid.get? c) with
    | none => rw [settleWithin_literal 0 hc hText, settleWithin_literal 0 hc' hText]
    | some text => rw [settleWithin_zero hc hText, settleWithin_zero hc' hText]
  | succ d ih =>
    cases hText : formulaOf (ctx.grid.get? c) with
    | none => rw [settleWithin_literal (d + 1) hc hText, settleWithin_literal (d + 1) hc' hText]
    | some text =>
      rw [settleWithin_succ d hc hText] at h ⊢
      rw [settleWithin_succ d hc' hText]
      congr 1
      have hSub : c :: w' ⊆ c :: w := List.cons_subset_cons c hw
      apply textValue_congr fun e => ∃ path, e = .formula (.circular path)
      · intro f _ z _ hz
        have hNot : ∀ path, settleWithin ctx d (c :: w) z ≠ .error (.formula (.circular path)) :=
          fun path hPath => hz _ hPath ⟨path, rfl⟩
        have hMem : z ∉ c :: w := fun hMem => hNot _ (settleWithin_of_mem d hMem)
        exact ih hSub hNot hMem fun hMem' => hMem (hSub hMem')
      · rintro e he ⟨path, rfl⟩
        rw [he] at h
        exact h path rfl

def formulaCoordinates (ctx : EvaluationContext) : Finset Coordinate :=
  ctx.grid.coordinates.toFinset.filter fun c => (formulaOf (ctx.grid.get? c)).isSome

/-- How many formula cells do not wait yet. -/
def room (ctx : EvaluationContext) (w : List Coordinate) : Nat :=
  (formulaCoordinates ctx \ w.toFinset).card

theorem mem_formulaCoordinates (h : formulaOf (ctx.grid.get? c) = some text) :
    c ∈ formulaCoordinates ctx := by
  cases hCell : ctx.grid.get? c with
  | none =>
    rw [hCell] at h
    cases h
  | some cell =>
    have hLookup : ctx.grid.entries.lookup c = some cell := hCell
    obtain ⟨before, after, hEntries, -⟩ := List.lookup_eq_some_iff.mp hLookup
    simp [formulaCoordinates, Grid.coordinates, hEntries, h]

theorem room_cons_lt (hc : c ∉ w) (h : formulaOf (ctx.grid.get? c) = some text) :
    room ctx (c :: w) < room ctx w := by
  apply Finset.card_lt_card
  rw [Finset.ssubset_iff_of_subset]
  · exact ⟨c, by simp [mem_formulaCoordinates h, hc], by simp⟩
  · intro x hx
    simp only [Finset.mem_sdiff, List.mem_toFinset, List.mem_cons, not_or] at hx ⊢
    exact ⟨hx.1, hx.2.2⟩

theorem room_le_of_subset {w' : List Coordinate} (h : w' ⊆ w) : room ctx w ≤ room ctx w' := by
  apply Finset.card_le_card
  intro x hx
  simp only [Finset.mem_sdiff, List.mem_toFinset] at hx ⊢
  exact ⟨hx.1, fun hMem => hx.2 (h hMem)⟩

theorem room_le_size (w : List Coordinate) : room ctx w ≤ ctx.grid.size := by
  calc
    room ctx w ≤ (formulaCoordinates ctx).card := Finset.card_le_card Finset.sdiff_subset
    _ ≤ ctx.grid.coordinates.toFinset.card := Finset.card_filter_le _ _
    _ ≤ ctx.grid.coordinates.length := List.toFinset_card_le _
    _ = ctx.grid.size := by simp [Grid.coordinates, Grid.size]

theorem toAddress_ne_tooDeep (c : Coordinate) : c.toAddress ≠ .error .tooDeep := by
  unfold Coordinate.toAddress
  split <;> split <;> simp

theorem settledBy_ne_tooDeep {r : Except Failure Value} (h : r ≠ .error .tooDeep) :
    settledBy c text r ≠ .error .tooDeep := by
  cases r with
  | ok v => simp [settledBy, settledCell]
  | error e =>
    cases e with
    | formula fault =>
      have hAddress := toAddress_ne_tooDeep c
      simp only [settledBy, settledCell]
      cases fault.isCircular with
      | true => simp
      | false => cases hResult : c.toAddress <;> simp_all
    | numeric fault => simp [settledBy, settledCell]
    | tooDeep => exact absurd rfl h

theorem textValue_failsOnly {Q : Failure → Prop} {A : Coordinate → Except Failure (Option Cell)}
    (hOwn : ∀ e, Formula.OwnFailure ctx.functions e → Q e)
    (hParsing : ∀ fault, Q (.formula (.parsing fault)))
    (hSettle : ∀ f, tree text = .ok f → ∀ z, f.Asks ctx.rangeLimit z → ∀ e, A z = .error e → Q e)
    {e : Failure} (he : textValue ctx A text = .error e) : Q e := by
  unfold textValue at he
  cases hTree : tree text with
  | error e' =>
    rw [hTree] at he
    cases he
    unfold tree at hTree
    split at hTree <;> cases hTree
    exact hParsing _
  | ok f =>
    rw [hTree] at he
    refine (Formula.evaluate_failsOnly f ⟨hOwn, fun _ _ => failsOnly_pure (), ?_⟩).outcome he
    exact fun z hz => failsOnly_lift (hSettle f hTree z hz)

/-- With room for every formula cell that does not wait yet, no cell gets too deep. -/
theorem settleWithin_ne_tooDeep {d : Nat} (h : room ctx w ≤ d) :
    settleWithin ctx d w c ≠ .error .tooDeep := by
  by_cases hc : c ∈ w
  · rw [settleWithin_of_mem d hc]
    simp
  · induction d generalizing w c with
    | zero =>
      cases hText : formulaOf (ctx.grid.get? c) with
      | none =>
        rw [settleWithin_literal 0 hc hText]
        simp
      | some text =>
        have hRoom := room_cons_lt hc hText
        omega
    | succ d ih =>
      cases hText : formulaOf (ctx.grid.get? c) with
      | none =>
        rw [settleWithin_literal (d + 1) hc hText]
        simp
      | some text =>
        have hRoom := room_cons_lt hc hText
        rw [settleWithin_succ d hc hText]
        apply settledBy_ne_tooDeep
        intro hDeep
        refine textValue_failsOnly (Q := (· ≠ .tooDeep)) (fun e he => he.ne_tooDeep) (by simp)
          (fun f _ z _ e he => ?_) hDeep rfl
        rintro rfl
        by_cases hz : z ∈ c :: w
        · rw [settleWithin_of_mem d hz] at he
          cases he
        · exact ih (by omega) hz he

/-- An addressable cell never passes on a failure that it can record. -/
theorem settleWithin_error_of_isAddressable {d : Nat} {e : Failure} (hc : c.IsAddressable)
    (he : settleWithin ctx d w c = .error e) : ¬ Recordable e := by
  by_cases hMem : c ∈ w
  · rw [settleWithin_of_mem d hMem] at he
    cases he
    rintro ⟨fault, hFault, hCircular⟩
    cases hFault
    cases hCircular
  · cases hText : formulaOf (ctx.grid.get? c) with
    | none =>
      rw [settleWithin_literal d hMem hText] at he
      cases he
    | some text =>
      cases d with
      | zero =>
        rw [settleWithin_zero hMem hText] at he
        cases he
        rintro ⟨fault, hFault, -⟩
        cases hFault
      | succ d =>
        rw [settleWithin_succ d hMem hText] at he
        exact (settledBy_error_of_isAddressable hc he).2

/-! ## Recursion with room for every formula cell -/

/-- The settled cell at a coordinate while some cells wait. -/
def settle (ctx : EvaluationContext) (w : List Coordinate) (c : Coordinate) :
    Except Failure (Option Cell) :=
  settleWithin ctx (room ctx w) w c

theorem settleWithin_eq_settle {d : Nat} (h : room ctx w ≤ d) :
    settleWithin ctx d w c = settle ctx w c :=
  settleWithin_mono h (settleWithin_ne_tooDeep le_rfl)

theorem settle_ne_tooDeep : settle ctx w c ≠ .error .tooDeep := settleWithin_ne_tooDeep le_rfl

theorem settle_of_settleWithin {d : Nat} {r : Except Failure (Option Cell)}
    (h : settleWithin ctx d w c = r) (hDeep : r ≠ .error .tooDeep) : settle ctx w c = r := by
  subst h
  rw [← settleWithin_mono (le_max_left d (room ctx w)) hDeep,
    settleWithin_eq_settle (le_max_right _ _)]

theorem settle_of_mem (h : c ∈ w) :
    settle ctx w c = .error (.formula (.circular (cyclePath w c))) :=
  settleWithin_of_mem _ h

theorem settle_literal (hc : c ∉ w) (h : formulaOf (ctx.grid.get? c) = none) :
    settle ctx w c = .ok (ctx.grid.get? c) :=
  settleWithin_literal _ hc h

/-- A formula cell comes to what its formula comes to while the cell waits. -/
theorem settle_formula (hc : c ∉ w) (h : formulaOf (ctx.grid.get? c) = some text) :
    settle ctx w c = settledBy c text (textValue ctx (settle ctx (c :: w)) text) := by
  have hRoom := room_cons_lt hc h
  obtain ⟨d, hd⟩ : ∃ d, room ctx w = d + 1 := ⟨room ctx w - 1, by omega⟩
  have hRest : settleWithin ctx d (c :: w) = settle ctx (c :: w) :=
    funext fun z => settleWithin_eq_settle (by omega)
  rw [settle, hd, settleWithin_succ d hc h, hRest]

theorem settle_drop {w' : List Coordinate} (hw : w' ⊆ w)
    (h : ∀ path, settle ctx w c ≠ .error (.formula (.circular path))) :
    settle ctx w' c = settle ctx w c := by
  have hRoom : settleWithin ctx (room ctx w') w c = settle ctx w c :=
    settleWithin_eq_settle (room_le_of_subset hw)
  rw [← hRoom] at h ⊢
  exact settleWithin_drop hw h

/-- A cell that settles while others wait settles by itself. -/
theorem settle_nil_of_ok {cell : Option Cell} (h : settle ctx w c = .ok cell) :
    settle ctx [] c = .ok cell := by
  rw [settle_drop (List.nil_subset w) (by simp [h]), h]

theorem exists_cell_of_settle {source : Cell} {cell : Option Cell}
    (hSource : ctx.grid.get? c = some source) (h : settle ctx w c = .ok cell) :
    ∃ x, cell = some x := by
  have hc : c ∉ w := by
    intro hc
    rw [settle_of_mem hc] at h
    cases h
  cases hText : formulaOf (ctx.grid.get? c) with
  | none =>
    rw [settle_literal hc hText, hSource] at h
    cases h
    exact ⟨source, rfl⟩
  | some text =>
    rw [settle_formula hc hText, settledBy] at h
    split at h
    · cases h
      exact ⟨_, rfl⟩
    · cases h

/-! ## Contexts with the same cells -/

/-- Two contexts that differ in memory, in the limit on nesting, and in the order of their cells. -/
structure SameCells (ctx ctx' : EvaluationContext) : Prop where
  get? : ∀ c, ctx'.grid.get? c = ctx.grid.get? c
  rangeLimit : ctx'.rangeLimit = ctx.rangeLimit
  functions : ctx'.functions = ctx.functions

theorem SameCells.value_eq {ctx' : EvaluationContext} (h : SameCells ctx ctx')
    (A : Coordinate → Except Failure (Option Cell)) (f : Formula) :
    value ctx' A f = value ctx A f := by
  rw [value, value, surroundings, surroundings, h.rangeLimit, h.functions]

theorem SameCells.settleWithin_eq {ctx' : EvaluationContext} (h : SameCells ctx ctx') (d : Nat) :
    settleWithin ctx' d = settleWithin ctx d := by
  have hText : ∀ A text, textValue ctx' A text = textValue ctx A text := fun A text => by
    unfold textValue
    simp only [h.value_eq]
  induction d with
  | zero =>
    funext w c
    rw [settleWithin, settleWithin, h.get?]
  | succ d ih =>
    funext w c
    rw [settleWithin, settleWithin, h.get?]
    simp only [ih, hText]

theorem SameCells.settle_eq {ctx' : EvaluationContext} (h : SameCells ctx ctx') :
    settle ctx' = settle ctx := by
  funext w c
  have hWithin : settleWithin ctx (room ctx' w) w c = settle ctx' w c := by
    rw [← h.settleWithin_eq (room ctx' w), settle]
  exact (settle_of_settleWithin hWithin settle_ne_tooDeep).symm

end Recursion
end Spreadsheet
