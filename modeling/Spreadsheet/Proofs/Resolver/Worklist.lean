import Mathlib.Algebra.BigOperators.Group.Finset.Basic
import Spreadsheet.Proofs.Resolver.Locality

/-!
# Preparation with an explicit stack

The walk of preparation as a loop over a stack of frames: each turn enters the next coordinate that
is pending, or closes a frame all of whose references were seen. Nothing bounds the loop from
outside. It ends because every turn uses up one unit of a potential that counts the pending
coordinates, the open frames, and what entering the formula cells that are left may add to these.
-/

set_option autoImplicit false

namespace Spreadsheet

open Evaluation

namespace Resolver

/-- A formula cell whose references are being entered. -/
structure Frame where
  coordinate : Coordinate
  text : String
  references : List Coordinate
  pending : List Coordinate

structure Worklist where
  /-- The roots that are still to be entered. -/
  roots : List Coordinate
  /-- The coordinates entered so far, the latest first. -/
  entered : List Coordinate := []
  frames : List Frame := []

/-- Goes to a coordinate that is neither settled nor entered: a literal is settled, and a formula
cell gets a frame. -/
def enter (ctx : EvaluationContext) (work : Worklist) (c : Coordinate) : Step Worklist := do
  if (← get).settled.contains c || work.entered.contains c then return work
  else
    let found ← lookup ctx c
    match formulaOf found with
    | none =>
      keep c found
      return { work with entered := c :: work.entered }
    | some text =>
      let references ← referencesOf ctx (Formula.parse text).toOption
      return { work with
        entered := c :: work.entered
        frames := ⟨c, text, references, references⟩ :: work.frames }

/-- Settles the cell of a frame, unless one of its references is unsettled. -/
def close (ctx : EvaluationContext) (frame : Frame) : Step Unit := do
  if ← areSettled frame.references then
    let cell ← compute ctx (resolve ctx (ctx.nestingLimit - 1) [frame.coordinate]) frame.coordinate
      frame.text (Formula.parse frame.text).toOption
    keep frame.coordinate (some cell)

/-- One turn of the loop, or nothing when there is nothing left to do. -/
def turn (ctx : EvaluationContext) (work : Worklist) : Step (Option Worklist) :=
  match work.frames with
  | frame :: frames =>
    match frame.pending with
    | z :: pending =>
      some <$> enter ctx { work with frames := { frame with pending := pending } :: frames } z
    | [] => do
      close ctx frame
      return some { work with frames := frames }
  | [] =>
    match work.roots with
    | z :: roots => some <$> enter ctx { work with roots := roots } z
    | [] => return none

variable {ctx : EvaluationContext} {s t : Session} {work work' : Worklist} {c : Coordinate}
  {text : String} {entered : List Coordinate}

/-! ## The potential -/

def referenceCount (ctx : EvaluationContext) (c : Coordinate) : Nat :=
  match formulaOf (ctx.grid.get? c) with
  | none => 0
  | some text =>
    match textReferences ctx text with
    | .ok references => references.length
    | .error _ => 0

/-- What the formula cells that were not entered may still cost. -/
def remaining (ctx : EvaluationContext) (entered : List Coordinate) : Nat :=
  ∑ c ∈ Recursion.formulaCoordinates ctx \ entered.toFinset, (referenceCount ctx c + 1)

def potential (ctx : EvaluationContext) (work : Worklist) : Nat :=
  work.roots.length + (work.frames.map fun frame => frame.pending.length + 1).sum +
    remaining ctx work.entered

theorem remaining_cons_le : remaining ctx (c :: entered) ≤ remaining ctx entered := by
  apply Finset.sum_le_sum_of_subset
  intro x hx
  simp only [Finset.mem_sdiff, List.mem_toFinset, List.mem_cons, not_or] at hx ⊢
  exact ⟨hx.1, hx.2.2⟩

theorem remaining_cons (hc : c ∉ entered) (hText : formulaOf (ctx.grid.get? c) = some text) :
    remaining ctx entered = remaining ctx (c :: entered) + (referenceCount ctx c + 1) := by
  have hMem : c ∈ Recursion.formulaCoordinates ctx \ entered.toFinset := by
    simp [Recursion.mem_formulaCoordinates hText, hc]
  have hErase : (Recursion.formulaCoordinates ctx \ entered.toFinset).erase c =
      Recursion.formulaCoordinates ctx \ (c :: entered).toFinset := by
    ext x
    simp only [Finset.mem_erase, Finset.mem_sdiff, List.mem_toFinset, List.mem_cons, not_or]
    tauto
  rw [remaining, remaining, ← hErase, Finset.sum_erase_add _ _ hMem]

/-! ## Entering a coordinate -/

theorem enter_of_known (h : c ∈ s.settled ∨ c ∈ work.entered) :
    enter ctx work c s = .ok work s := by
  rw [enter, bind_of_ok (get_run s)]
  have hKnown : (s.settled.contains c || work.entered.contains c) = true := by
    simpa [Std.HashMap.contains_iff_mem] using h
  rw [if_pos hKnown]
  rfl

theorem enter_of_new (hc : c ∉ s.settled) (hNew : c ∉ work.entered) :
    enter ctx work c s = (match formulaOf (ctx.grid.get? c) with
      | none => do
        keep c (ctx.grid.get? c)
        return { work with entered := c :: work.entered }
      | some text => do
        let references ← referencesOf ctx (Formula.parse text).toOption
        return { work with
          entered := c :: work.entered
          frames := ⟨c, text, references, references⟩ :: work.frames } : Step Worklist)
        (s.noted (.lookup c)) := by
  have hUnknown : ¬ (s.settled.contains c || work.entered.contains c) = true := by
    simpa [Std.HashMap.contains_iff_mem] using ⟨hc, hNew⟩
  rw [enter, bind_of_ok (get_run s), if_neg hUnknown, bind_of_ok (lookup_run c s)]

theorem enter_literal (hc : c ∉ s.settled) (hNew : c ∉ work.entered)
    (hText : formulaOf (ctx.grid.get? c) = none) :
    enter ctx work c s = .ok { work with entered := c :: work.entered }
      ((s.noted (.lookup c)).kept c (ctx.grid.get? c)) := by
  rw [enter_of_new hc hNew, hText]
  rfl

theorem enter_formula (hc : c ∉ s.settled) (hNew : c ∉ work.entered)
    (hText : formulaOf (ctx.grid.get? c) = some text) {references : List Coordinate}
    (hReferences : textReferences ctx text = .ok references) :
    enter ctx work c s = .ok
      { work with
        entered := c :: work.entered
        frames := ⟨c, text, references, references⟩ :: work.frames } (s.noted (.lookup c)) := by
  rw [enter_of_new hc hNew, hText]
  simp only [referencesOf_parse, hReferences]
  rfl

theorem enter_unreadable (hc : c ∉ s.settled) (hNew : c ∉ work.entered)
    (hText : formulaOf (ctx.grid.get? c) = some text) {e : Failure}
    (hReferences : textReferences ctx text = .error e) :
    enter ctx work c s = .error e (s.noted (.lookup c)) := by
  rw [enter_of_new hc hNew, hText]
  simp only [referencesOf_parse, hReferences]
  rfl

/-- The ways in which a coordinate is entered. -/
inductive Entered (ctx : EvaluationContext) (work : Worklist) (c : Coordinate) (s : Session) :
    Worklist → Session → Prop
  | known (h : c ∈ s.settled ∨ c ∈ work.entered) : Entered ctx work c s work s
  | literal (hNew : c ∉ work.entered) (hText : formulaOf (ctx.grid.get? c) = none) :
      Entered ctx work c s { work with entered := c :: work.entered }
        ((s.noted (.lookup c)).kept c (ctx.grid.get? c))
  | formula {text : String} {references : List Coordinate} (hNew : c ∉ work.entered)
      (hText : formulaOf (ctx.grid.get? c) = some text)
      (hReferences : textReferences ctx text = .ok references) :
      Entered ctx work c s
        { work with
          entered := c :: work.entered
          frames := ⟨c, text, references, references⟩ :: work.frames } (s.noted (.lookup c))

theorem entered_of_enter (h : enter ctx work c s = .ok work' t) : Entered ctx work c s work' t := by
  by_cases hKnown : c ∈ s.settled ∨ c ∈ work.entered
  · rw [enter_of_known hKnown] at h
    cases h
    exact .known hKnown
  · obtain ⟨hc, hNew⟩ := not_or.mp hKnown
    cases hText : formulaOf (ctx.grid.get? c) with
    | none =>
      rw [enter_literal hc hNew hText] at h
      cases h
      exact .literal hNew hText
    | some text =>
      cases hReferences : textReferences ctx text with
      | error e =>
        rw [enter_unreadable hc hNew hText hReferences] at h
        cases h
      | ok references =>
        rw [enter_formula hc hNew hText hReferences] at h
        cases h
        exact .formula hNew hText hReferences

theorem Entered.potential_le (h : Entered ctx work c s work' t) :
    potential ctx work' ≤ potential ctx work := by
  cases h with
  | known => exact Nat.le_refl _
  | literal => exact Nat.add_le_add_left remaining_cons_le _
  | @formula text references hNew hText hReferences =>
    have hCount : referenceCount ctx c = references.length := by
      simp [referenceCount, hText, hReferences]
    simp only [potential, List.map_cons, List.sum_cons, remaining_cons hNew hText, hCount]
    omega

/-! ## Turns -/

/-- One turn leads from a worklist and a session to others. -/
inductive Turns (ctx : EvaluationContext) (work : Worklist) (s : Session) :
    Worklist → Session → Prop
  | root {z : Coordinate} {roots : List Coordinate} {work' : Worklist} {t : Session}
      (hFrames : work.frames = []) (hRoots : work.roots = z :: roots)
      (h : Entered ctx { work with roots := roots } z s work' t) : Turns ctx work s work' t
  | reference {z : Coordinate} {pending : List Coordinate} {frame : Frame} {frames : List Frame}
      {work' : Worklist} {t : Session} (hFrames : work.frames = frame :: frames)
      (hPending : frame.pending = z :: pending)
      (h : Entered ctx { work with frames := { frame with pending := pending } :: frames } z s
        work' t) : Turns ctx work s work' t
  | closed {frame : Frame} {frames : List Frame} {t : Session}
      (hFrames : work.frames = frame :: frames) (hPending : frame.pending = [])
      (h : close ctx frame s = .ok () t) : Turns ctx work s { work with frames := frames } t

theorem enter_of_map (h : (some <$> enter ctx work c) s = .ok (some work') t) :
    enter ctx work c s = .ok work' t := by
  cases hRun : enter ctx work c s with
  | error e u =>
    rw [map_of_error some hRun] at h
    cases h
  | ok found u =>
    rw [map_of_ok some hRun] at h
    cases h
    rfl

theorem turns_of_turn (h : turn ctx work s = .ok (some work') t) : Turns ctx work s work' t := by
  obtain ⟨roots, entered, frames⟩ := work
  cases frames with
  | nil =>
    cases roots with
    | nil => cases h
    | cons z roots => exact .root rfl rfl (entered_of_enter (enter_of_map h))
  | cons frame frames =>
    obtain ⟨c, text, references, pending⟩ := frame
    cases pending with
    | cons z pending => exact .reference rfl rfl (entered_of_enter (enter_of_map h))
    | nil =>
      change (close ctx ⟨c, text, references, []⟩ >>= fun _ => pure _) s = _ at h
      cases hRun : close ctx ⟨c, text, references, []⟩ s with
      | error e u =>
        rw [bind_of_error hRun] at h
        cases h
      | ok _ u =>
        rw [bind_of_ok hRun] at h
        cases h
        exact .closed rfl rfl hRun

/-- Every turn uses up a part of the potential. -/
theorem Turns.potential_lt (h : Turns ctx work s work' t) :
    potential ctx work' < potential ctx work := by
  cases h with
  | @root z roots _ _ hFrames hRoots h =>
    refine Nat.lt_of_le_of_lt h.potential_le ?_
    simp only [potential, hRoots, List.length_cons]
    omega
  | @reference z pending frame frames _ _ hFrames hPending h =>
    refine Nat.lt_of_le_of_lt h.potential_le ?_
    simp only [potential, hFrames, hPending, List.map_cons, List.sum_cons, List.length_cons]
    omega
  | @closed frame frames _ hFrames hPending _ =>
    simp only [potential, hFrames, List.map_cons, List.sum_cons]
    omega

/-- Takes turns until there is nothing left to do. -/
def loop (ctx : EvaluationContext) (work : Worklist) : Step Unit := fun s =>
  match _h : turn ctx work s with
  | .ok (some work') t => loop ctx work' t
  | .ok none t => .ok () t
  | .error e t => .error e t
termination_by potential ctx work
decreasing_by exact (turns_of_turn _h).potential_lt

/-- The loop turns as long as it can. -/
theorem loop_eq (ctx : EvaluationContext) (work : Worklist) :
    loop ctx work = turn ctx work >>= fun next =>
      match next with
      | some work' => loop ctx work'
      | none => pure () := by
  funext s
  rw [loop]
  change _ = EStateM.bind (turn ctx work) _ s
  rw [EStateM.bind]
  split <;> simp_all
  rfl

theorem loop_of_map (work : Worklist) (x : Step Worklist) (h : turn ctx work = some <$> x) :
    loop ctx work = x >>= loop ctx := by
  rw [loop_eq, h, map_eq_pure_bind, bind_assoc]
  simp only [pure_bind]

variable {roots references pending : List Coordinate} {frames : List Frame}

theorem loop_root (z : Coordinate) :
    loop ctx ⟨z :: roots, entered, []⟩ = enter ctx ⟨roots, entered, []⟩ z >>= loop ctx :=
  loop_of_map _ _ rfl

theorem loop_reference (z : Coordinate) :
    loop ctx ⟨roots, entered, ⟨c, text, references, z :: pending⟩ :: frames⟩ =
      enter ctx ⟨roots, entered, ⟨c, text, references, pending⟩ :: frames⟩ z >>= loop ctx :=
  loop_of_map _ _ rfl

theorem loop_close :
    loop ctx ⟨roots, entered, ⟨c, text, references, []⟩ :: frames⟩ =
      close ctx ⟨c, text, references, []⟩ >>= fun _ => loop ctx ⟨roots, entered, frames⟩ := by
  rw [loop_eq]
  change (close ctx ⟨c, text, references, []⟩ >>= fun _ => pure _) >>= _ = _
  rw [bind_assoc]
  simp only [pure_bind]

theorem loop_done : loop ctx ⟨[], entered, []⟩ = pure () := by
  rw [loop_eq]
  rfl

theorem prepareFormula_closes {step : List Coordinate → Coordinate → Step (List Coordinate)}
    {met : List Coordinate} : prepareFormula ctx step met c text =
      lift (textReferences ctx text) >>= fun references =>
        references.foldlM step (c :: met) >>= fun met' =>
          close ctx ⟨c, text, references, []⟩ >>= fun _ => pure met' := by
  rw [prepareFormula_eq]
  unfold close
  simp only [referencesOf_parse, bind_assoc]
  congr 1
  funext references
  congr 1
  funext met'
  congr 1
  funext settled
  cases settled <;> simp only [Bool.false_eq_true, if_true, if_false, bind_assoc, pure_bind]

/-! ## The loop and the walk -/

/-- As to the cells that are not settled, the walk met those that the loop entered. -/
def Alike (s : Session) (met entered : List Coordinate) : Prop :=
  ∀ x, x ∉ s.settled → (x ∈ entered ↔ x ∈ met)

theorem Alike.mono {met : List Coordinate} (h : Alike s met entered)
    (hSettled : ∀ x, x ∈ s.settled → x ∈ t.settled) : Alike t met entered :=
  fun x hx => h x fun hs => hx (hSettled x hs)

theorem Alike.cons {met : List Coordinate} (h : Alike s met entered) :
    Alike s (c :: met) (c :: entered) := fun x hx => by simp [h x hx]

/-- A session in which everything stays settled that was. -/
def growing : Passage Session := fun s _ t => ∀ x, x ∈ s.settled → x ∈ t.settled

theorem growing_evaluates : Evaluates ctx growing where
  composes := ⟨fun _ _ hx => hx, fun hFirst hSecond x hx => hSecond x (hFirst x hx)⟩
  own _ _ _ hx := hx
  parsing _ _ hx := hx
  call _ _ _ _ hx := hx

theorem answered_grows {memoize : Bool} (cell : Option Cell) :
    ∀ x, x ∈ s.settled → x ∈ (s.answered memoize c cell).settled := by
  intro x hx
  unfold Session.answered
  split
  · exact Session.mem_kept.mpr (.inr hx)
  · exact hx

theorem growing_tracks : Tracks ctx (fun _ _ => True) (fun _ _ => True) fun _ => growing where
  evaluates _ := growing_evaluates
  circular _ _ _ _ hx := hx
  literal _ _ _ x hx := answered_grows _ x hx
  tooDeep _ _ _ _ hx := hx
  formula := by
    intro w c s t text r _ _ _ hBody _
    have hRun := ends_ended.mp (hBody fun _ _ => trivial)
    cases settledCell c text r with
    | ok cell => exact fun x hx => answered_grows _ x (hRun x hx)
    | error e => exact fun x hx => hRun x hx

theorem resolve_growing (d : Nat) (w : List Coordinate) (c : Coordinate) :
    Leads growing (resolve ctx d w c) :=
  growing_tracks.resolve (fun _ _ _ _ _ _ _ _ => trivial) d trivial

theorem compute_growing {settle : Coordinate → Step (Option Cell)} {tree : Option Formula}
    (hText : formulaOf (ctx.grid.get? c) = some text)
    (hTree : treeOf text tree = lift (Recursion.tree text))
    (hSettle : ∀ z, Leads growing (settle z)) :
    Leads growing (compute ctx settle c text tree) := by
  intro s
  obtain ⟨r, t, hRun⟩ := exists_ended
    (do (← treeOf text tree).evaluate (surroundings ctx settle)) (s.noted (.start c))
  have hEvaluates : Evaluates ctx growing := growing_evaluates
  have hBody := hEvaluates.ofText hText hTree (fun z _ => hSettle z) (s.noted (.start c))
  rw [hRun] at hBody
  rw [compute_run hRun]
  have hGrows := ends_ended.mp hBody
  exact ends_ended.mpr hGrows

theorem close_growing (hText : formulaOf (ctx.grid.get? c) = some text) :
    Leads growing (close ctx ⟨c, text, references, []⟩) := by
  have hEvaluates : Evaluates ctx growing := growing_evaluates
  have hComposes := hEvaluates.composes
  refine Leads.bind hComposes (fun s x hx => hx) fun settled => ?_
  cases settled with
  | false => exact leads_pure hComposes ()
  | true =>
    refine Leads.bind hComposes (compute_growing hText (treeOf_parse text)
      (resolve_growing (ctx.nestingLimit - 1) [c])) fun cell => ?_
    intro s x hx
    exact Session.mem_kept.mpr (.inr hx)

/-- The loop does what a stage of the walk does and goes on with what is left. -/
def Goes (ctx : EvaluationContext) (left : List Coordinate → Worklist)
    (r : EStateM.Result Failure Session (List Coordinate))
    (y : EStateM.Result Failure Session Unit) : Prop :=
  match r with
  | .error e t => y = .error e t
  | .ok met t => ∃ entered, Alike t met entered ∧ y = loop ctx (left entered) t

variable {met : List Coordinate} {d : Nat}

/-- What holds of entering one coordinate holds of a list of them, as roots or as references. -/
theorem goes_foldlM {step : List Coordinate → Coordinate → Step (List Coordinate)}
    {P : List Coordinate → Prop} (next : List Coordinate → List Coordinate → Worklist)
    (hNext : ∀ z zs entered,
      loop ctx (next (z :: zs) entered) = enter ctx (next zs entered) z >>= loop ctx)
    (hStep : ∀ z zs met entered s, P met → Alike s met entered →
      Goes ctx (next zs) (step met z s) ((enter ctx (next zs entered) z >>= loop ctx) s))
    (hKeep : ∀ z met s met' t, P met → step met z s = .ok met' t → P met')
    (zs : List Coordinate) (hMet : P met) (hAlike : Alike s met entered) :
    Goes ctx (next []) (zs.foldlM step met s) (loop ctx (next zs entered) s) := by
  induction zs generalizing met entered s with
  | nil => exact ⟨entered, hAlike, rfl⟩
  | cons z zs ih =>
    have hFirst := hStep z zs met entered s hMet hAlike
    rw [List.foldlM_cons, hNext]
    cases hRun : step met z s with
    | error e t =>
      rw [hRun] at hFirst
      rwa [bind_of_error hRun]
    | ok met' t =>
      rw [hRun] at hFirst
      obtain ⟨entered', hAlike', hLoop⟩ := hFirst
      rw [bind_of_ok hRun, hLoop]
      exact ih (hKeep z met s met' t hMet hRun) hAlike'

/-- When all references were entered the frame is closed, and the loop is back where it was. -/
theorem Goes.close {x : Step (List Coordinate)} {y : EStateM.Result Failure Session Unit}
    (h : Goes ctx
      (fun entered => ⟨work.roots, entered, ⟨c, text, references, []⟩ :: work.frames⟩) (x s) y)
    (hText : formulaOf (ctx.grid.get? c) = some text) :
    Goes ctx (fun entered => { work with entered := entered })
      ((x >>= fun met' => close ctx ⟨c, text, references, []⟩ >>= fun _ => pure met') s) y := by
  cases hRun : x s with
  | error e t =>
    rw [hRun] at h
    rwa [bind_of_error hRun]
  | ok met' t =>
    rw [hRun] at h
    obtain ⟨entered, hAlike, hLoop⟩ := h
    rw [loop_close] at hLoop
    rw [bind_of_ok hRun]
    cases hClose : Resolver.close ctx ⟨c, text, references, []⟩ t with
    | error e u =>
      rw [bind_of_error hClose] at hLoop ⊢
      exact hLoop
    | ok _ u =>
      rw [bind_of_ok hClose] at hLoop ⊢
      exact ⟨entered, hAlike.mono ((close_growing hText).of_ok hClose), hLoop⟩

theorem enter_goes_of_formula (hAlike : Alike s met work.entered)
    (hFormula : ∀ text, c ∉ s.settled → c ∉ met → c ∉ work.entered →
      formulaOf (ctx.grid.get? c) = some text →
      Goes ctx (fun entered => { work with entered := entered }) (prepare ctx d met c s)
        ((enter ctx work c >>= loop ctx) s)) :
    Goes ctx (fun entered => { work with entered := entered }) (prepare ctx d met c s)
      ((enter ctx work c >>= loop ctx) s) := by
  by_cases hc : c ∈ s.settled
  · rw [prepare_of_settled hc, bind_of_ok (enter_of_known (.inl hc))]
    exact ⟨work.entered, hAlike, rfl⟩
  by_cases hMet : c ∈ met
  · rw [prepare_of_met hMet, bind_of_ok (enter_of_known (.inr ((hAlike c hc).mpr hMet)))]
    exact ⟨work.entered, hAlike, rfl⟩
  have hNew : c ∉ work.entered := fun h => hMet ((hAlike c hc).mp h)
  cases hText : formulaOf (ctx.grid.get? c) with
  | some text => exact hFormula text hc hMet hNew hText
  | none =>
    rw [prepare_literal hc hMet hText, bind_of_ok (enter_literal hc hNew hText)]
    refine ⟨c :: work.entered, fun x hx => ?_, rfl⟩
    rw [Session.mem_kept, not_or] at hx
    simp [hx.1, hAlike x hx.2]

/-- Entering a coordinate and working off the frame that it may get is what the walk does there. -/
theorem enter_goes (hRoom : Recursion.room ctx met ≤ d) (hAlike : Alike s met work.entered) :
    Goes ctx (fun entered => { work with entered := entered }) (prepare ctx d met c s)
      ((enter ctx work c >>= loop ctx) s) := by
  induction d generalizing met c s work with
  | zero =>
    refine enter_goes_of_formula hAlike fun text _ hMet _ hText => ?_
    have hLess := Recursion.room_cons_lt hMet hText
    omega
  | succ d ih =>
    refine enter_goes_of_formula hAlike fun text hc hMet hNew hText => ?_
    have hLess := Recursion.room_cons_lt hMet hText
    rw [prepare_succ hc hMet hText, prepareFormula_closes]
    cases hReferences : textReferences ctx text with
    | error e =>
      rw [bind_of_error (enter_unreadable hc hNew hText hReferences)]
      exact rfl
    | ok references =>
      rw [bind_of_ok (enter_formula hc hNew hText hReferences), lift_ok, pure_bind]
      refine Goes.close ?_ hText
      -- the references are entered while the frame stays on the stack
      exact goes_foldlM (P := fun met' => c :: met ⊆ met')
        (fun pending entered =>
          ⟨work.roots, entered, ⟨c, text, references, pending⟩ :: work.frames⟩)
        (fun z _ _ => loop_reference z)
        (fun z zs met' entered t hMet' hAlike' => ih
          ((Recursion.room_le_of_subset hMet').trans (by omega)) hAlike')
        (fun z met' t met'' u hMet' hRun =>
          List.Subset.trans hMet' (prepare_finds d met' z t met'' u hRun))
        references (List.Subset.refl _) hAlike.cons

/-- The loop settles what the walk settles, in the same order, and fails alike. -/
theorem loop_roots (roots : List Coordinate) (s : Session) :
    loop ctx { roots := roots } s =
      (roots.foldlM (prepare ctx ctx.grid.size) [] >>= fun _ => pure ()) s := by
  have hGoes : Goes ctx (fun entered => ⟨[], entered, []⟩)
      (roots.foldlM (prepare ctx ctx.grid.size) [] s) (loop ctx { roots := roots } s) :=
    goes_foldlM (P := fun _ => True) (fun roots entered => ⟨roots, entered, []⟩)
      (fun z _ _ => loop_root z)
      (fun z zs met entered s _ hAlike => enter_goes (Recursion.room_le_size met) hAlike)
      (fun _ _ _ _ _ _ _ => trivial) roots trivial (fun x _ => Iff.rfl)
  cases hRun : roots.foldlM (prepare ctx ctx.grid.size) [] s with
  | error e t =>
    rw [hRun] at hGoes
    rw [bind_of_error hRun]
    exact hGoes
  | ok met t =>
    rw [hRun] at hGoes
    obtain ⟨entered, -, hLoop⟩ := hGoes
    rw [bind_of_ok hRun, hLoop, loop_done]

end Resolver
end Spreadsheet
