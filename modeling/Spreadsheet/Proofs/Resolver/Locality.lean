import Spreadsheet.Proofs.Resolver.Agreement
import Spreadsheet.Proofs.Resolver.Progress

/-!
# What a request depends on

A request sees the grid only at the coordinates that it touches. Over another grid that has the same
cells there it runs alike: the same result, the same lookups and calls in the same order, the same
memory. The one place where the whole grid enters is the depth to which preparation may walk, and
every depth with room for the formula cells that were not met gives the same walk.
-/

set_option autoImplicit false

namespace Spreadsheet

open Evaluation

namespace Resolver

variable {ctx ctx' : EvaluationContext} {g : Grid} {s : Session} {w met : List Coordinate}
  {c z : Coordinate} {text : String} {d d' : Nat} {U : Coordinate → Prop}

/-! ## Running parts alike -/

theorem keeping_true_carries {State : Type} {asked : Coordinate → Prop} {env : Surroundings State} :
    Formula.Carries (keeping fun _ => True) asked env := by
  have hLeads : ∀ {α : Type} (x : Evaluation State α), Leads (keeping fun _ => True) x := by
    intro α x s
    cases x s <;> exact fun _ => trivial
  exact ⟨keeping_composes, fun _ _ _ _ => trivial, fun _ _ => hLeads _, fun _ _ => hLeads _⟩

theorem bind_congr {α β : Type} {x y : Step α} {k l : α → Step β} (h : y s = x s)
    (hk : ∀ a t, x s = .ok a t → l a t = k a t) : (y >>= l) s = (x >>= k) s := by
  rw [bind_eq_of_eq h]
  cases hRun : x s with
  | error e t => rw [bind_of_error hRun, bind_of_error hRun]
  | ok a t =>
    rw [bind_of_ok hRun, bind_of_ok hRun]
    exact hk a t hRun

theorem attempt_congr {α : Type} {x y : Step α} (h : y s = x s) : attempt y s = attempt x s := by
  rw [attempt, attempt, h]

theorem reportDepth_congr {α : Type} {x y : Step α} {address : Except Failure (Option String)}
    (h : y s = x s) :
    reportDepth address y s = reportDepth address x s :=
  bind_eq_of_eq (attempt_congr h) _

theorem map_congr {α β : Type} {x y : Step α} (f : α → β) (h : y s = x s) :
    (f <$> y) s = (f <$> x) s := by
  rw [map_eq_pure_bind, map_eq_pure_bind]
  exact bind_eq_of_eq h _

/-- A fold runs alike when its steps do, from all that the steps before may have found. -/
theorem foldlM_congr {α β : Type} {P : β → Prop} {step step' : β → α → Step β} {xs : List α} {b : β}
    (hStep : ∀ x ∈ xs, ∀ b s, P b → step' b x s = step b x s)
    (hKeep : ∀ x ∈ xs, ∀ b s b' t, P b → step b x s = .ok b' t → P b') (hb : P b) :
    xs.foldlM step' b s = xs.foldlM step b s := by
  induction xs generalizing b s with
  | nil => rfl
  | cons x xs ih =>
    rw [List.foldlM_cons, List.foldlM_cons]
    refine bind_congr (hStep x List.mem_cons_self b s hb) fun b' t hRun => ?_
    exact ih (fun y hy => hStep y (List.mem_cons_of_mem x hy))
      (fun y hy => hKeep y (List.mem_cons_of_mem x hy))
      (hKeep x List.mem_cons_self b s b' t hb hRun)

/-! ## What preparation has met -/

/-- Every result of the step has the property. -/
def Finds {α : Type} (P : α → Prop) (x : Step α) : Prop := ∀ s a t, x s = .ok a t → P a

theorem finds_pure {α : Type} {P : α → Prop} {a : α} (h : P a) : Finds P (pure a : Step α) := by
  rintro s _ t ⟨⟩
  exact h

theorem Finds.bind {α β : Type} {P : α → Prop} {Q : β → Prop} {x : Step α} {k : α → Step β}
    (h : Finds P x) (hk : ∀ a, P a → Finds Q (k a)) : Finds Q (x >>= k) := by
  intro s b u hRun
  cases hFirst : x s with
  | error e t =>
    rw [bind_of_error hFirst] at hRun
    cases hRun
  | ok a t =>
    rw [bind_of_ok hFirst] at hRun
    exact hk a (h s a t hFirst) t b u hRun

theorem finds_any {α : Type} (x : Step α) : Finds (fun _ => True) x := fun _ _ _ _ => trivial

theorem foldlM_finds {α β : Type} {P : β → Prop} {step : β → α → Step β} {xs : List α} {b : β}
    (hStep : ∀ x b, P b → Finds P (step b x)) (hb : P b) : Finds P (xs.foldlM step b) := by
  induction xs generalizing b with
  | nil => exact finds_pure hb
  | cons x xs ih =>
    rw [List.foldlM_cons]
    exact (hStep x b hb).bind fun _ => ih

theorem prepareFormula_finds {step : List Coordinate → Coordinate → Step (List Coordinate)}
    (hStep : ∀ met z, Finds (met ⊆ ·) (step met z)) :
    Finds (met ⊆ ·) (prepareFormula ctx step met c text) := by
  rw [prepareFormula_eq]
  refine (finds_any _).bind fun references _ => ?_
  have hFold : Finds (met ⊆ ·) (references.foldlM step (c :: met)) :=
    foldlM_finds (fun z met' hMet s a t hRun => List.Subset.trans hMet (hStep met' z s a t hRun))
      (List.subset_cons_self c met)
  refine hFold.bind fun met' hMet => (finds_any _).bind fun settled _ => ?_
  cases settled with
  | true => exact (finds_any _).bind fun _ _ => (finds_any _).bind fun _ _ => finds_pure hMet
  | false => exact finds_pure hMet

/-- Preparation only adds to the cells that were met. -/
theorem prepare_finds (d : Nat) (met : List Coordinate) (c : Coordinate) :
    Finds (met ⊆ ·) (prepare ctx d met c) := by
  induction d using Nat.strong_induction_on generalizing met c with
  | _ d ih =>
    have hSame : Finds (met ⊆ ·) (pure met : Step (List Coordinate)) :=
      finds_pure (List.Subset.refl met)
    rw [prepare_eq]
    refine (finds_any _).bind fun s _ => ?_
    split
    · exact hSame
    · refine (finds_any _).bind fun found _ => ?_
      cases formulaOf found with
      | none => exact (finds_any _).bind fun _ _ => hSame
      | some text =>
        cases d with
        | zero => exact hSame
        | succ d => exact prepareFormula_finds fun met z => ih d d.lt_succ_self met z

/-! ## Contexts that agree -/

/-- While some cells wait, two depths make no difference: they are the same, or both leave room for
every formula cell that does not wait. -/
def DepthsAgree (ctx ctx' : EvaluationContext) (w : List Coordinate) (d d' : Nat) : Prop :=
  d' = d ∨ Recursion.room ctx w ≤ d ∧ Recursion.room ctx' w ≤ d'

/-- The other context has the same cells in a part that references do not leave. -/
structure AgreesOn (ctx : EvaluationContext) (U : Coordinate → Prop) (ctx' : EvaluationContext) :
    Prop where
  get? : ∀ c, U c → ctx'.grid.get? c = ctx.grid.get? c
  refers : ∀ c z, U c → Refers ctx c z → U z
  rangeLimit : ctx'.rangeLimit = ctx.rangeLimit
  functions : ctx'.functions = ctx.functions
  memoize : ctx'.memoize = ctx.memoize
  nesting : DepthsAgree ctx ctx' [] ctx.nestingLimit ctx'.nestingLimit

theorem DepthsAgree.cons (h : DepthsAgree ctx ctx' w d d') (hc : c ∉ w)
    (hText : formulaOf (ctx.grid.get? c) = some text)
    (hText' : formulaOf (ctx'.grid.get? c) = some text) :
    DepthsAgree ctx ctx' (c :: w) (d - 1) (d' - 1) := by
  have hLess := Recursion.room_cons_lt hc hText
  have hLess' := Recursion.room_cons_lt hc hText'
  rcases h with rfl | ⟨hRoom, hRoom'⟩
  · exact .inl rfl
  · exact .inr ⟨by omega, by omega⟩

/-- Neither depth runs out at a formula cell unless both do. -/
theorem DepthsAgree.zero_iff (h : DepthsAgree ctx ctx' w d d') (hc : c ∉ w)
    (hText : formulaOf (ctx.grid.get? c) = some text)
    (hText' : formulaOf (ctx'.grid.get? c) = some text) : d = 0 ↔ d' = 0 := by
  have hLess := Recursion.room_cons_lt hc hText
  have hLess' := Recursion.room_cons_lt hc hText'
  rcases h with rfl | ⟨hRoom, hRoom'⟩
  · exact Iff.rfl
  · omega

theorem AgreesOn.formulaOf (h : AgreesOn ctx U ctx') (hc : U c)
    (hText : formulaOf (ctx.grid.get? c) = some text) :
    Resolver.formulaOf (ctx'.grid.get? c) = some text := by rw [h.get? c hc, hText]

theorem AgreesOn.surroundings (h : AgreesOn ctx U ctx')
    (settle settle' : Coordinate → Step (Option Cell)) :
    surroundings ctx' settle' = { Resolver.surroundings ctx settle with settle := settle' } := by
  rw [Resolver.surroundings, Mode.surroundings, h.rangeLimit, h.functions]
  rfl

theorem AgreesOn.formula (h : AgreesOn ctx U ctx')
    {settle settle' : Coordinate → Step (Option Cell)} {f : Formula}
    (hSettle : ∀ z, f.Asks ctx.rangeLimit z → ∀ s, settle' z s = settle z s)
    (s : Session) : f.evaluate (Resolver.surroundings ctx' settle') s =
      f.evaluate (Resolver.surroundings ctx settle) s := by
  have hAlike : Formula.SettlesAlike (fun _ => True)
      (f.Asks (Resolver.surroundings ctx settle).rangeLimit) (Resolver.surroundings ctx settle)
      settle' := ⟨keeping_true_carries, fun z hz s _ => hSettle z hz s⟩
  rw [h.surroundings settle settle']
  exact f.evaluate_congr hAlike s trivial

theorem AgreesOn.compute (h : AgreesOn ctx U ctx')
    {settle settle' : Coordinate → Step (Option Cell)} {tree : Option Formula}
    (hTree : treeOf text tree = lift (Recursion.tree text))
    (hText : Resolver.formulaOf (ctx.grid.get? c) = some text)
    (hSettle : ∀ z, Refers ctx c z → ∀ s, settle' z s = settle z s) (s : Session) :
    compute ctx' settle' c text tree s = Resolver.compute ctx settle c text tree s := by
  have hBody : (do (← treeOf text tree).evaluate (Resolver.surroundings ctx' settle') : Step Value)
      (s.noted (.start c)) =
      (do (← treeOf text tree).evaluate (Resolver.surroundings ctx settle))
        (s.noted (.start c)) := by
    rw [hTree]
    cases hParse : Recursion.tree text with
    | error e => rfl
    | ok f => exact h.formula (fun z hz => hSettle z ⟨text, f, hText, hParse, hz⟩) _
  obtain ⟨r, t, hRun⟩ := exists_ended
    (do (← treeOf text tree).evaluate (Resolver.surroundings ctx settle)) (s.noted (.start c))
  rw [compute_run hRun, compute_run (hBody.trans hRun)]

/-- Settled cells, waiting cells and literals are answered alike at any depth. -/
theorem AgreesOn.resolve_of_formula (h : AgreesOn ctx U ctx') (hc : U c)
    (hFormula : ∀ text, s.settled[c]? = none → c ∉ w →
      Resolver.formulaOf (ctx.grid.get? c) = some text →
      resolve ctx' d' w c s = Resolver.resolve ctx d w c s) :
    resolve ctx' d' w c s = Resolver.resolve ctx d w c s := by
  cases hSettled : s.settled[c]? with
  | some cell => rw [resolve_of_settled hSettled, resolve_of_settled hSettled]
  | none =>
    by_cases hw : c ∈ w
    · rw [resolve_of_mem hSettled hw, resolve_of_mem hSettled hw]
    · cases hText : Resolver.formulaOf (ctx.grid.get? c) with
      | some text => exact hFormula text hSettled hw hText
      | none =>
        have hText' := h.get? c hc ▸ hText
        rw [resolve_literal hSettled hw hText, resolve_literal hSettled hw hText', h.get? c hc,
          h.memoize]

theorem AgreesOn.resolve (h : AgreesOn ctx U ctx') (hc : U c)
    (hDepths : DepthsAgree ctx ctx' w d d') (s : Session) :
    resolve ctx' d' w c s = Resolver.resolve ctx d w c s := by
  induction d generalizing d' w c s with
  | zero =>
    refine h.resolve_of_formula hc fun text hSettled hw hText => ?_
    have hText' := h.formulaOf hc hText
    obtain rfl := (hDepths.zero_iff hw hText hText').mp rfl
    rw [resolve_zero hSettled hw hText, resolve_zero hSettled hw hText']
  | succ d ih =>
    refine h.resolve_of_formula hc fun text hSettled hw hText => ?_
    have hText' := h.formulaOf hc hText
    have hNonzero := (hDepths.zero_iff hw hText hText').not.mp (Nat.succ_ne_zero d)
    obtain ⟨d', rfl⟩ := Nat.exists_eq_add_of_le' (Nat.one_le_iff_ne_zero.mpr hNonzero)
    have hBelow : DepthsAgree ctx ctx' (c :: w) d d' := hDepths.cons hw hText hText'
    have hCompute := h.compute (treeOf_none text) hText
      (fun z hz => ih (h.refers c z hc hz) hBelow) (s.noted (.lookup c))
    obtain ⟨r, t, hRun⟩ := exists_ended
      (Resolver.compute ctx (Resolver.resolve ctx d (c :: w)) c text none) (s.noted (.lookup c))
    rw [resolve_succ hSettled hw hText hRun, resolve_succ hSettled hw hText' (hCompute.trans hRun),
      h.memoize]

/-! ## Preparation -/

theorem AgreesOn.prepare_of_formula (h : AgreesOn ctx U ctx') (hc : U c)
    (hFormula : ∀ text, c ∉ s.settled → c ∉ met →
      Resolver.formulaOf (ctx.grid.get? c) = some text →
      prepare ctx' d' met c s = Resolver.prepare ctx d met c s) :
    prepare ctx' d' met c s = Resolver.prepare ctx d met c s := by
  by_cases hSettled : c ∈ s.settled
  · rw [prepare_of_settled hSettled, prepare_of_settled hSettled]
  · by_cases hMet : c ∈ met
    · rw [prepare_of_met hMet, prepare_of_met hMet]
    · cases hText : Resolver.formulaOf (ctx.grid.get? c) with
      | some text => exact hFormula text hSettled hMet hText
      | none =>
        have hText' := h.get? c hc ▸ hText
        rw [prepare_literal hSettled hMet hText, prepare_literal hSettled hMet hText', h.get? c hc]

theorem AgreesOn.prepareFormula (h : AgreesOn ctx U ctx') (hc : U c)
    (hText : Resolver.formulaOf (ctx.grid.get? c) = some text)
    {step step' : List Coordinate → Coordinate → Step (List Coordinate)}
    (hFold : ∀ roots : List Coordinate, (∀ z ∈ roots, Refers ctx c z) → ∀ s,
      roots.foldlM step' (c :: met) s = roots.foldlM step (c :: met) s) (s : Session) :
    prepareFormula ctx' step' met c text s = Resolver.prepareFormula ctx step met c text s := by
  have hReferences : textReferences ctx' text = textReferences ctx text := by
    rw [textReferences, h.rangeLimit]
    rfl
  rw [prepareFormula_eq, prepareFormula_eq]
  simp only [referencesOf_parse, hReferences]
  cases hFound : textReferences ctx text with
  | error e =>
    have hFails : (lift (.error e) : Step (List Coordinate)) s = .error e s := rfl
    rw [bind_of_error hFails, bind_of_error hFails]
  | ok roots =>
    have hRoots : ∀ z ∈ roots, Refers ctx c z := fun z hz =>
      (mem_textReferences hFound hText).mp hz
    rw [lift_ok, pure_bind, pure_bind]
    refine bind_congr (hFold roots hRoots s) fun met' t _ => ?_
    refine bind_congr rfl fun settled u _ => ?_
    cases settled with
    | false => rfl
    | true =>
      refine bind_eq_of_eq (h.compute (treeOf_parse text) hText (fun z hz => ?_) u) _
      exact h.resolve (h.refers c z hc hz)
        (h.nesting.cons List.not_mem_nil hText (h.formulaOf hc hText))

/-- Preparation walks alike at all depths with room for the formula cells that were not met. -/
theorem AgreesOn.prepare (h : AgreesOn ctx U ctx') (hc : U c) (hRoom : Recursion.room ctx met ≤ d)
    (hRoom' : Recursion.room ctx' met ≤ d') (s : Session) :
    prepare ctx' d' met c s = Resolver.prepare ctx d met c s := by
  induction d generalizing d' met c s with
  | zero =>
    refine h.prepare_of_formula hc fun text _ hMet hText => ?_
    have hLess := Recursion.room_cons_lt hMet hText
    omega
  | succ d ih =>
    refine h.prepare_of_formula hc fun text hSettled hMet hText => ?_
    have hText' := h.formulaOf hc hText
    have hLess := Recursion.room_cons_lt hMet hText
    have hLess' := Recursion.room_cons_lt hMet hText'
    obtain ⟨d', rfl⟩ := Nat.exists_eq_add_of_le' (show 1 ≤ d' by omega)
    rw [prepare_succ hSettled hMet hText, prepare_succ hSettled hMet hText']
    refine h.prepareFormula hc hText (fun roots hRoots s => ?_) _
    -- the cells met before stay met, so the room only shrinks
    refine foldlM_congr (P := fun met' => c :: met ⊆ met') (fun z hz met' s hMet' => ?_)
      (fun z _ met' s met'' t hMet' hRun => ?_) (List.Subset.refl _)
    · have hFits : Recursion.room ctx met' ≤ Recursion.room ctx (c :: met) :=
        Recursion.room_le_of_subset hMet'
      have hFits' : Recursion.room ctx' met' ≤ Recursion.room ctx' (c :: met) :=
        Recursion.room_le_of_subset hMet'
      exact ih (h.refers c z hc (hRoots z hz)) (by omega) (by omega) s
    · exact List.Subset.trans hMet' (prepare_finds d met' z s met'' t hRun)

theorem AgreesOn.prepareAll (h : AgreesOn ctx U ctx') {roots : List Coordinate}
    (hRoots : ∀ z ∈ roots, U z) (s : Session) :
    prepareAll ctx' roots s = Resolver.prepareAll ctx roots s := by
  cases hOn : ctx.memoize with
  | false => rw [prepareAll_off hOn, prepareAll_off (h.memoize.trans hOn)]
  | true =>
    rw [prepareAll_on hOn, prepareAll_on (h.memoize.trans hOn)]
    refine bind_eq_of_eq (foldlM_congr (P := fun _ => True) (fun z hz met s _ => ?_)
      (fun _ _ _ _ _ _ _ _ => trivial) trivial) _
    exact h.prepare (hRoots z hz) (Recursion.room_le_size met) (Recursion.room_le_size met) s

/-! ## Requests -/

theorem AgreesOn.evaluateCell (h : AgreesOn ctx U ctx') (hc : U c) (s : Session) :
    evaluateCell ctx' c s = Resolver.evaluateCell ctx c s := by
  refine bind_congr (h.prepareAll (by simpa using hc) s) fun _ t _ => ?_
  exact reportDepth_congr (h.resolve hc h.nesting t)

theorem AgreesOn.evaluate (h : AgreesOn ctx U ctx') {f : Formula}
    (hAsked : ∀ z, f.Asks ctx.rangeLimit z → U z) (s : Session) :
    evaluate ctx' f s = Resolver.evaluate ctx f s := by
  have hReferences : f.references ctx'.rangeLimit = f.references ctx.rangeLimit := by
    rw [h.rangeLimit]
  rw [evaluate_eq, evaluate_eq, hReferences]
  cases hFound : f.references ctx.rangeLimit with
  | error e => rfl
  | ok roots =>
    have hRoots : ∀ z ∈ roots, U z := fun z hz => hAsked z ((f.mem_references hFound).mp hz)
    rw [lift_ok, pure_bind, pure_bind]
    refine bind_congr (h.prepareAll hRoots s) fun _ t _ => reportDepth_congr ?_
    exact h.formula (fun z hz => h.resolve (hAsked z hz) h.nesting) t

theorem AgreesOn.evaluateEntries (h : AgreesOn ctx U ctx') {entries : List (Coordinate × Cell)}
    (hEntries : ∀ entry ∈ entries, U entry.1) (s : Session) :
    evaluateEntries ctx' entries s = Resolver.evaluateEntries ctx entries s := by
  induction entries generalizing s with
  | nil => rfl
  | cons entry rest ih =>
    refine bind_congr ?_ fun settled t _ => ?_
    · exact bind_eq_of_eq (attempt_congr (h.evaluateCell (hEntries entry List.mem_cons_self) s)) _
    · exact bind_eq_of_eq (ih (fun e he => hEntries e (List.mem_cons_of_mem entry he)) t) _

/-- Requests within the part run alike in both contexts. -/
theorem AgreesOn.run (h : AgreesOn ctx U ctx') {r : Request} (hAsked : ∀ z, r.Asks ctx z → U z)
    (hPass : r = .pass → ctx'.grid = ctx.grid) (s : Session) : r.run ctx' s = r.run ctx s := by
  cases r with
  | value f => exact map_congr _ (h.evaluate hAsked s)
  | cell c => exact map_congr _ (h.evaluateCell (hAsked c rfl) s)
  | resolve c => exact map_congr _ (h.resolve (hAsked c rfl) h.nesting s)
  | pass =>
    refine map_congr _ ?_
    rw [evaluateGrid, evaluateGrid, hPass rfl]
    exact h.evaluateEntries (fun entry hEntry => hAsked entry.1 (List.mem_map_of_mem hEntry)) s

theorem AgreesOn.refers_iff (h : AgreesOn ctx U ctx') (hc : U c) :
    Refers ctx' c z ↔ Refers ctx c z := by
  rw [Refers, Refers, h.get? c hc, h.rangeLimit]

theorem AgreesOn.reaches_iff (h : AgreesOn ctx U ctx') (hc : U c) :
    Reaches ctx' c z ↔ Reaches ctx c z := by
  constructor
  · intro hReach
    -- references do not leave the part, so the contexts agree at every step of the path
    have hBoth : Reaches ctx c z ∧ U z := by
      induction hReach with
      | refl => exact ⟨.refl, hc⟩
      | tail _ hRefers ih =>
        have hStep := (h.refers_iff ih.2).mp hRefers
        exact ⟨ih.1.tail hStep, h.refers _ _ ih.2 hStep⟩
    exact hBoth.1
  · intro hReach
    have hBoth : Reaches ctx' c z ∧ U z := by
      induction hReach with
      | refl => exact ⟨.refl, hc⟩
      | tail _ hRefers ih =>
        exact ⟨ih.1.tail ((h.refers_iff ih.2).mpr hRefers), h.refers _ _ ih.2 hRefers⟩
    exact hBoth.1

/-! ## Other grids -/

theorem Request.agreesOn {r : Request}
    (hAgree : ∀ c, r.Touches ctx c → g.get? c = ctx.grid.get? c) :
    AgreesOn ctx (r.Touches ctx) (ctx.withGrid g) where
  get? := hAgree
  refers _ _ hc hcz := hc.reaches (.single hcz)
  rangeLimit := rfl
  functions := rfl
  memoize := rfl
  nesting := .inl rfl

theorem Request.touches_iff {r : Request} (hr : r ≠ .pass)
    (hAgree : ∀ c, r.Touches ctx c → g.get? c = ctx.grid.get? c) :
    r.Touches (ctx.withGrid g) c ↔ r.Touches ctx c := by
  have hAsks : ∀ z, r.Asks (ctx.withGrid g) z ↔ r.Asks ctx z := by
    intro z
    cases r with
    | pass => exact absurd rfl hr
    | _ => exact Iff.rfl
  simp only [Request.Touches, hAsks]
  refine exists_congr fun z => and_congr_right fun hz => ?_
  exact (agreesOn hAgree).reaches_iff (touches_of_asks hz)

/-- A request looks up only coordinates that it touches. -/
theorem Request.touches_of_lookup {r : Request} {before : List Request} {j : List Moment}
    (hLookup : .lookup c :: j <:+ ((r.run ctx).final (after ctx before)).journal)
    (hLater : (after ctx before).journal <:+ j) : r.Touches ctx c := by
  have hAdvances := r.advances (V := fun _ => True) (after_faithful ctx before)
    (after_standing ctx before) (fun _ => touches_of_asks)
    (fun _ _ hx hxy => hx.reaches (.single hxy)) (fun _ _ _ => trivial) fun _ _ _ _ => trivial
  exact (hAdvances.legal.of_suffix hLookup hLater).1

/-- Over a grid that has the same cells at all coordinates that a request touches, the request runs
alike: it has the same result and goes through the same events. The coordinates that it touches are
the same, and over either grid, whatever was asked before, it looks up no others. -/
theorem request_is_local (ctx : EvaluationContext) (g : Grid) (r : Request) (hr : r ≠ .pass)
    (hAgree : ∀ c, r.Touches ctx c → g.get? c = ctx.grid.get? c) :
    (∀ s, r.run (ctx.withGrid g) s = r.run ctx s) ∧
    (∀ c, r.Touches (ctx.withGrid g) c ↔ r.Touches ctx c) ∧
    ∀ ctx' ∈ [ctx, ctx.withGrid g], ∀ before c j,
      .lookup c :: j <:+ ((r.run ctx').final (after ctx' before)).journal →
      (after ctx' before).journal <:+ j → r.Touches ctx c := by
  refine ⟨(Request.agreesOn hAgree).run (fun _ => Request.touches_of_asks) fun h => absurd h hr,
    fun c => Request.touches_iff hr hAgree, fun ctx' hMem before c j hLookup hLater => ?_⟩
  have hTouches := Request.touches_of_lookup hLookup hLater
  simp only [List.mem_cons, List.not_mem_nil, or_false] at hMem
  rcases hMem with rfl | rfl
  · exact hTouches
  · exact (Request.touches_iff hr hAgree).mp hTouches

theorem loopSheet_reaches (h : Reaches loopSheet ⟨0, 1⟩ c) :
    c = ⟨0, 0⟩ ∨ c = ⟨0, 1⟩ ∨ c = ⟨0, 2⟩ := by
  have hLoop : Recursion.tree "=A1" = .ok (.cell "A1") := by cbv
  have hSum : Recursion.tree "=SUM(C1,A1)" = .ok (.call "SUM" [.cell "C1", .cell "A1"]) := by cbv
  have hA1 : Coordinate.ofAddress "A1" = .ok ⟨0, 0⟩ := by cbv
  have hC1 : Coordinate.ofAddress "C1" = .ok ⟨0, 2⟩ := by cbv
  induction h with
  | refl => exact .inr (.inl rfl)
  | tail _ hRefers _ =>
    obtain ⟨text, f, hText, hTree, hAsks⟩ := hRefers
    rcases loopSheet_cases hText with ⟨-, rfl⟩ | ⟨-, rfl⟩
    · rw [hLoop] at hTree
      cases hTree
      rw [Formula.asks_cell, hA1] at hAsks
      cases hAsks
      exact .inl rfl
    · rw [hSum] at hTree
      cases hTree
      simp only [Formula.asks_call, Formula.asksAny_cons, Formula.asksAny_nil, Formula.asks_cell,
        hA1, hC1, or_false] at hAsks
      rcases hAsks with ⟨⟨⟩⟩ | ⟨⟨⟩⟩
      · exact .inr (.inr rfl)
      · exact .inl rfl

/-- A cell above a cycle is reported alike next to a cell that refers to it. -/
theorem request_is_local_on_loopSheet :
    ∃ g : Grid, g.size ≠ loopSheet.grid.size ∧ Request.cell ⟨0, 1⟩ ≠ .pass ∧
      (∀ c, (Request.cell ⟨0, 1⟩).Touches loopSheet c → g.get? c = loopSheet.grid.get? c) ∧
      ((Request.cell ⟨0, 1⟩).run (loopSheet.withGrid g)) {} =
        ((Request.cell ⟨0, 1⟩).run loopSheet) {} := by
  let g : Grid := ⟨[(⟨0, 2⟩, { value := .int 7 }), (⟨3, 3⟩, { formula := some "=B1" }),
    (⟨0, 0⟩, { formula := some "=A1" }), (⟨0, 1⟩, { formula := some "=SUM(C1,A1)" })], by decide⟩
  have hAgree : ∀ c, (Request.cell ⟨0, 1⟩).Touches loopSheet c →
      g.get? c = loopSheet.grid.get? c := by
    rintro c ⟨x, rfl, hReach⟩
    rcases loopSheet_reaches hReach with rfl | rfl | rfl <;> rfl
  refine ⟨g, by decide, by simp, hAgree, ?_⟩
  exact (request_is_local loopSheet g (.cell ⟨0, 1⟩) (by simp) hAgree).1 {}

end Resolver
end Spreadsheet
