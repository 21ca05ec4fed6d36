import Spreadsheet.Proofs.Resolver.Memory

/-!
# Preparation

Before a request is answered, the resolver settles what the request depends on, deepest cells first.
Preparation keeps a faithful session faithful. When it succeeds, every root is settled or reaches a
cycle; when it fails, then with the failure of a cell that a root reaches and whose own references
all settle, or of the references of such a cell.
-/

set_option autoImplicit false

namespace Spreadsheet

open Evaluation

/-! ## The graph of references -/

/-- The formula of one cell refers to another cell. -/
def Refers (ctx : EvaluationContext) (c z : Coordinate) : Prop :=
  ∃ text f, Resolver.formulaOf (ctx.grid.get? c) = some text ∧ Recursion.tree text = .ok f ∧
    f.Asks ctx.rangeLimit z

def Reaches (ctx : EvaluationContext) : Coordinate → Coordinate → Prop :=
  Relation.ReflTransGen (Refers ctx)

def OnCycle (ctx : EvaluationContext) (c : Coordinate) : Prop :=
  Relation.TransGen (Refers ctx) c c

def ReachesCycle (ctx : EvaluationContext) (c : Coordinate) : Prop :=
  ∃ z, Reaches ctx c z ∧ OnCycle ctx z

section Graph

variable {ctx : EvaluationContext} {c z : Coordinate}

theorem Refers.isAddressable (h : Refers ctx c z) : z.IsAddressable := by
  obtain ⟨_, f, -, -, hAsks⟩ := h
  exact hAsks.isAddressable

theorem ReachesCycle.of_refers (h : Refers ctx c z) (hz : ReachesCycle ctx z) :
    ReachesCycle ctx c := by
  obtain ⟨y, hReach, hCycle⟩ := hz
  exact ⟨y, .head h hReach, hCycle⟩

theorem ReachesCycle.exists_refers (h : ReachesCycle ctx c) :
    ∃ z, Refers ctx c z ∧ ReachesCycle ctx z := by
  obtain ⟨y, hReach, hCycle⟩ := h
  rcases Relation.ReflTransGen.cases_head hReach with rfl | ⟨z, hz, hRest⟩
  · obtain ⟨z, hz, hBack⟩ := Relation.TransGen.head'_iff.mp hCycle
    exact ⟨z, hz, c, hBack, hCycle⟩
  · exact ⟨z, hz, y, hRest, hCycle⟩

theorem not_reachesCycle_of_refers (h : ∀ z, Refers ctx c z → ¬ ReachesCycle ctx z) :
    ¬ ReachesCycle ctx c := by
  intro hCycle
  obtain ⟨z, hz, hBelow⟩ := hCycle.exists_refers
  exact h z hz hBelow

theorem Reaches.eq_of_not_refers (hReach : Reaches ctx c z) (h : ∀ y, ¬ Refers ctx c y) :
    c = z := by
  rcases Relation.ReflTransGen.cases_head hReach with hSame | ⟨y, hFirst, -⟩
  · exact hSame
  · exact absurd hFirst (h y)

theorem OnCycle.reachesCycle (h : OnCycle ctx c) : ReachesCycle ctx c := ⟨c, .refl, h⟩

/-- A reference back to a cell that led here closes a cycle. -/
theorem reachesCycle_of_back (h : Refers ctx c z)
    (hBack : z = c ∨ Relation.TransGen (Refers ctx) z c) : ReachesCycle ctx c := by
  refine ReachesCycle.of_refers h (OnCycle.reachesCycle ?_)
  rcases hBack with rfl | hBack
  · exact .single h
  · exact hBack.tail h

end Graph

namespace Resolver

variable {ctx : EvaluationContext} {s t : Session} {c z : Coordinate} {text : String} {d : Nat}
  {met met' path : List Coordinate}

/-- The references of the formula that a text spells, if it spells one. -/
def textReferences (ctx : EvaluationContext) (text : String) : Except Failure (List Coordinate) :=
  match Recursion.tree text with
  | .ok f => f.references ctx.rangeLimit
  | .error _ => .ok []

theorem referencesOf_parse (text : String) :
    referencesOf ctx (Formula.parse text).toOption = lift (textReferences ctx text) := by
  unfold referencesOf textReferences Recursion.tree
  cases Formula.parse text <;> rfl

theorem mem_textReferences {cs : List Coordinate} (h : textReferences ctx text = .ok cs)
    (hText : formulaOf (ctx.grid.get? c) = some text) : z ∈ cs ↔ Refers ctx c z := by
  unfold textReferences at h
  cases hTree : Recursion.tree text with
  | ok f =>
    rw [hTree] at h
    rw [Formula.mem_references f h]
    constructor
    · exact fun hAsks => ⟨text, f, hText, hTree, hAsks⟩
    · rintro ⟨text', f', hText', hTree', hAsks⟩
      rw [hText] at hText'
      cases hText'
      rw [hTree] at hTree'
      cases hTree'
      exact hAsks
  | error e =>
    rw [hTree] at h
    cases h
    constructor
    · simp
    · rintro ⟨text', f', hText', hTree', -⟩
      rw [hText] at hText'
      cases hText'
      rw [hTree] at hTree'
      cases hTree'

/-! ## Single steps of preparation -/

theorem prepare_of_settled (h : c ∈ s.settled) : prepare ctx d met c s = .ok met s := by
  rw [prepare_eq, bind_of_ok (get_run s)]
  simp only [Std.HashMap.contains_iff_mem.mpr h, Bool.true_or, if_true]
  rfl

theorem prepare_of_met (h : c ∈ met) : prepare ctx d met c s = .ok met s := by
  rw [prepare_eq, bind_of_ok (get_run s)]
  simp only [List.contains_eq_mem, h, decide_true, Bool.or_true, if_true]
  rfl

theorem prepare_literal (h : c ∉ s.settled) (hMet : c ∉ met)
    (hText : formulaOf (ctx.grid.get? c) = none) :
    prepare ctx d met c s = .ok met ((s.noted (.lookup c)).kept c (ctx.grid.get? c)) := by
  rw [prepare_eq, bind_of_ok (get_run s)]
  simp only [Std.HashMap.contains_eq_false_iff_not_mem.mpr h, List.contains_eq_mem, hMet,
    decide_false, Bool.or_false, Bool.false_eq_true, if_false]
  rw [bind_of_ok (lookup_run c s)]
  simp only [hText]
  rfl

theorem prepare_succ (h : c ∉ s.settled) (hMet : c ∉ met)
    (hText : formulaOf (ctx.grid.get? c) = some text) :
    prepare ctx (d + 1) met c s =
      prepareFormula ctx (prepare ctx d) met c text (s.noted (.lookup c)) := by
  rw [prepare_eq, bind_of_ok (get_run s)]
  simp only [Std.HashMap.contains_eq_false_iff_not_mem.mpr h, List.contains_eq_mem, hMet,
    decide_false, Bool.or_false, Bool.false_eq_true, if_false]
  rw [bind_of_ok (lookup_run c s)]
  simp only [hText]

theorem areSettled_run (cs : List Coordinate) (s : Session) :
    areSettled cs s = .ok (cs.all (s.settled.contains ·)) s := rfl

/-! ## What preparation achieves -/

/-- The cell is settled, or is being prepared, or can only be settled on demand. -/
def Handled (ctx : EvaluationContext) (s : Session) (path : List Coordinate) (c : Coordinate) :
    Prop :=
  c ∈ s.settled ∨ c ∈ path ∨ ReachesCycle ctx c

/-- Preparation fails at a cell: its references cannot be read, or all of them settle and the cell
does not. -/
inductive Refused (ctx : EvaluationContext) (c : Coordinate) (e : Failure) : Prop
  | references {text : String} (hText : formulaOf (ctx.grid.get? c) = some text)
      (h : textReferences ctx text = .error e) : Refused ctx c e
  | cell (hReferences : ∀ z, Refers ctx c z → ∃ cell, Recursion.settle ctx [] z = .ok cell)
      (h : Recursion.settle ctx [] c = .error e) : Refused ctx c e

/-- A stage of preparation led from one session to another while the cells of `path` were being
prepared. -/
structure Prepared (ctx : EvaluationContext) (path met : List Coordinate) (s : Session)
    (met' : List Coordinate) (s' : Session) : Prop where
  faithful : s'.Faithful ctx
  grows : ∀ x ∈ s.settled, x ∈ s'.settled
  met_subset : met ⊆ met'
  handled : ∀ x ∈ met', Handled ctx s' path x

/-- A step prepares some roots, or fails at a cell that one of them reaches. -/
structure Prepares (ctx : EvaluationContext) (path met : List Coordinate) (s : Session)
    (roots : List Coordinate) (x : Step (List Coordinate)) : Prop where
  ok : ∀ met' s', x s = .ok met' s' →
    Prepared ctx path met s met' s' ∧ ∀ z ∈ roots, Handled ctx s' path z
  error : ∀ e s', x s = .error e s' →
    s'.Faithful ctx ∧ ∃ z ∈ roots, ∃ y, Reaches ctx z y ∧ Refused ctx y e

theorem Handled.mono (h : Handled ctx s path c) (hs : ∀ x ∈ s.settled, x ∈ t.settled) :
    Handled ctx t path c :=
  h.imp_left (hs c)

/-- The cells met so far may be prepared further while those of `path` wait. -/
structure Ready (ctx : EvaluationContext) (path met : List Coordinate) (s : Session) : Prop where
  faithful : s.Faithful ctx
  path_subset : path ⊆ met
  handled : ∀ x ∈ met, Handled ctx s path x

theorem Ready.prepared (h : Ready ctx path met s) : Prepared ctx path met s met s :=
  ⟨h.faithful, fun _ hx => hx, fun _ hx => hx, h.handled⟩

theorem Ready.noted (h : Ready ctx path met s) (m : Moment) : Ready ctx path met (s.noted m) :=
  ⟨h.faithful.noted m, h.path_subset, h.handled⟩

theorem Ready.cons (h : Ready ctx path met s) : Ready ctx (c :: path) (c :: met) s where
  faithful := h.faithful
  path_subset := List.cons_subset_cons c h.path_subset
  handled x hx := by
    rcases List.mem_cons.mp hx with rfl | hx
    · exact .inr (.inl List.mem_cons_self)
    · exact (h.handled x hx).imp_right fun hOr => hOr.imp_left (List.mem_cons_of_mem c)

theorem Prepared.ready (h : Prepared ctx path met s met' t) (hPath : path ⊆ met) :
    Ready ctx path met' t :=
  ⟨h.faithful, fun _ hx => h.met_subset (hPath hx), h.handled⟩

theorem Prepares.of_ok {roots : List Coordinate} {x : Step (List Coordinate)}
    (h : x s = .ok met' t) (hPrepared : Prepared ctx path met s met' t)
    (hRoots : ∀ z ∈ roots, Handled ctx t path z) : Prepares ctx path met s roots x where
  ok _ _ hRun := by
    rw [h] at hRun
    cases hRun
    exact ⟨hPrepared, hRoots⟩
  error _ _ hRun := by
    rw [h] at hRun
    cases hRun

theorem Prepares.of_error {roots : List Coordinate} {x : Step (List Coordinate)} {e : Failure}
    {y : Coordinate} (h : x s = .error e t) (hFaithful : t.Faithful ctx) (hz : z ∈ roots)
    (hReach : Reaches ctx z y) (hRefused : Refused ctx y e) :
    Prepares ctx path met s roots x where
  ok _ _ hRun := by
    rw [h] at hRun
    cases hRun
  error _ _ hRun := by
    rw [h] at hRun
    cases hRun
    exact ⟨hFaithful, z, hz, y, hReach, hRefused⟩

theorem Prepares.of_noted {roots : List Coordinate} {x y : Step (List Coordinate)} {m : Moment}
    (h : Prepares ctx path met (s.noted m) roots y) (hx : x s = y (s.noted m)) :
    Prepares ctx path met s roots x where
  ok met' t hRun := by
    obtain ⟨hPrepared, hRoots⟩ := h.ok met' t (hx ▸ hRun)
    exact ⟨⟨hPrepared.faithful, hPrepared.grows, hPrepared.met_subset, hPrepared.handled⟩, hRoots⟩
  error e t hRun := h.error e t (hx ▸ hRun)

/-- Roots are prepared one after the other. -/
theorem foldlM_prepares {roots : List Coordinate}
    {step : List Coordinate → Coordinate → Step (List Coordinate)}
    (hStep : ∀ z ∈ roots, ∀ met s, Ready ctx path met s →
      Prepares ctx path met s [z] (step met z))
    (h : Ready ctx path met s) : Prepares ctx path met s roots (roots.foldlM step met) := by
  induction roots generalizing met s with
  | nil => exact .of_ok rfl h.prepared (by simp)
  | cons z zs ih =>
    rw [List.foldlM_cons]
    have hFirst := hStep z List.mem_cons_self met s h
    cases hRun : step met z s with
    | error e t =>
      obtain ⟨hFaithful, z', hz', y, hReach, hRefused⟩ := hFirst.error e t hRun
      rw [List.mem_singleton] at hz'
      subst hz'
      exact .of_error (bind_of_error hRun) hFaithful List.mem_cons_self hReach hRefused
    | ok met' t =>
      obtain ⟨hPrepared, hHandled⟩ := hFirst.ok met' t hRun
      have hRest := ih (fun z hz => hStep z (List.mem_cons_of_mem _ hz))
        (hPrepared.ready h.path_subset)
      constructor
      · intro met'' u hAll
        rw [bind_of_ok hRun] at hAll
        obtain ⟨hPrepared', hHandled'⟩ := hRest.ok met'' u hAll
        refine ⟨⟨hPrepared'.faithful, fun x hx => hPrepared'.grows x (hPrepared.grows x hx),
          fun x hx => hPrepared'.met_subset (hPrepared.met_subset hx), hPrepared'.handled⟩, ?_⟩
        intro x hx
        rcases List.mem_cons.mp hx with rfl | hx
        · exact (hHandled x (by simp)).mono hPrepared'.grows
        · exact hHandled' x hx
      · intro e u hAll
        rw [bind_of_ok hRun] at hAll
        obtain ⟨hFaithful, z', hz', hReach⟩ := hRest.error e u hAll
        exact ⟨hFaithful, z', List.mem_cons_of_mem _ hz', hReach⟩

/-- Cells that waited for a cell no longer do once the cell is handled. -/
theorem Handled.narrow {x : Coordinate} (h : Handled ctx s (c :: path) x)
    (hs : ∀ x ∈ s.settled, x ∈ t.settled) (hc : Handled ctx t path c) : Handled ctx t path x := by
  rcases h with hSettled | hWaits | hCycle
  · exact .inl (hs x hSettled)
  · rcases List.mem_cons.mp hWaits with rfl | hPath
    · exact hc
    · exact .inr (.inl hPath)
  · exact .inr (.inr hCycle)

theorem Prepared.narrow {u : Session} (h : Prepared ctx (c :: path) (c :: met) s met' t)
    (hFaithful : u.Faithful ctx) (hs : ∀ x ∈ t.settled, x ∈ u.settled)
    (hc : Handled ctx u path c) : Prepared ctx path met s met' u where
  faithful := hFaithful
  grows x hx := hs x (h.grows x hx)
  met_subset _ hx := h.met_subset (List.mem_cons_of_mem c hx)
  handled x hx := (h.handled x hx).narrow hs hc

/-- A formula cell is computed from the memory alone when all its references are settled. -/
theorem compute_of_settled {tree : Option Formula} (ht : t.Faithful ctx)
    (hText : formulaOf (ctx.grid.get? c) = some text)
    (hTree : treeOf text tree = lift (Recursion.tree text))
    (hReferences : ∀ z, Refers ctx c z → z ∈ t.settled) :
    ∃ u, u.settled = t.settled ∧ compute ctx (resolve ctx d [c]) c text tree t =
      ended (settledCell c text (Recursion.textValue ctx (Recursion.settle ctx [c]) text)) u := by
  have hSettle : ∀ f, Recursion.tree text = .ok f → ∀ z, f.Asks ctx.rangeLimit z →
      Recursion.Outlasts ctx [c] z →
        Follows (·.settled = t.settled) (fun _ => False) (tooDeepIf False)
          (Recursion.settle ctx [c] z) (resolve ctx d [c] z) := by
    intro f hParse z hz hOutlasts _ u hu
    have hSettled := hReferences z ⟨text, f, hText, hParse, hz⟩
    obtain ⟨cell, hCell⟩ : ∃ cell, t.settled[z]? = some cell :=
      ⟨_, Std.HashMap.getElem?_eq_some_getElem hSettled⟩
    rw [hOutlasts.settle_eq (ht z _ hCell).2]
    rw [← hu] at hCell
    exact ⟨u, hu, .inl (resolve_of_settled hCell)⟩
  obtain ⟨u, hu, hRun | ⟨hShort, -⟩⟩ := compute_follows (fun _ _ h => h)
    Recursion.outlasts_nil hText hTree hSettle rfl
  · exact ⟨u, hu, hRun⟩
  · exact hShort.elim

/-- A cell whose references are all settled is computed and kept, or preparation fails at it. -/
theorem Prepared.compute {x : Step (List Coordinate)} (hMemoize : ctx.memoize = true)
    (h : Prepared ctx (c :: path) (c :: met) s met' t)
    (hText : formulaOf (ctx.grid.get? c) = some text)
    (hReferences : ∀ z, Refers ctx c z → z ∈ t.settled)
    (hx : x s = (do
      let cell ← compute ctx (resolve ctx d [c]) c text (Formula.parse text).toOption
      keep c (some cell)
      return met') t) : Prepares ctx path met s [c] x := by
  obtain ⟨u, hu, hCompute⟩ :=
    compute_of_settled (d := d) h.faithful hText (treeOf_parse text) hReferences
  have hSettle := Recursion.settle_formula (w := []) (by simp) hText
  have hFaithful : u.Faithful ctx := by
    intro z cell hz
    rw [hu] at hz
    exact h.faithful z cell hz
  cases hCell : settledCell c text
      (Recursion.textValue ctx (Recursion.settle ctx [c]) text) with
  | ok cell =>
    rw [hCell] at hCompute
    rw [Recursion.settledBy_of_ok hCell] at hSettle
    have hKept : c ∈ (u.kept c (some cell)).settled := by simp [Session.kept]
    have hGrows : ∀ x ∈ t.settled, x ∈ (u.kept c (some cell)).settled := by
      intro x hx
      rw [← hu] at hx
      simp [Session.kept, hx]
    rw [bind_of_ok hCompute] at hx
    refine .of_ok hx (h.narrow (hFaithful.kept hMemoize hSettle) hGrows (.inl hKept)) ?_
    simp [Handled]
  | error e =>
    rw [hCell] at hCompute
    rw [Recursion.settledBy_of_error hCell] at hSettle
    rw [bind_of_error hCompute] at hx
    refine .of_error hx hFaithful List.mem_cons_self .refl (.cell (fun z hz => ?_) hSettle)
    exact ⟨_, (h.faithful z _ (Std.HashMap.getElem?_eq_some_getElem (hReferences z hz))).2⟩

/-- A cell with an unsettled reference is above a cycle when its references are handled. -/
theorem reachesCycle_of_unsettled (hPath : ∀ x ∈ path, Relation.TransGen (Refers ctx) x c)
    (hz : Refers ctx c z) (hHandled : Handled ctx s (c :: path) z) (hNot : z ∉ s.settled) :
    ReachesCycle ctx c := by
  rcases hHandled with hSettled | hWaits | hCycle
  · exact absurd hSettled hNot
  · exact reachesCycle_of_back hz ((List.mem_cons.mp hWaits).imp_right (hPath z))
  · exact .of_refers hz hCycle

/-- Preparing a formula cell, given that its references can be prepared. -/
theorem prepareFormula_prepares
    {prepare : List Coordinate → Coordinate → Step (List Coordinate)}
    (hMemoize : ctx.memoize = true) (hText : formulaOf (ctx.grid.get? c) = some text)
    (h : Ready ctx path met s)
    (hPath : ∀ x ∈ path, Relation.TransGen (Refers ctx) x c)
    (hPrepare : ∀ z met s, Refers ctx c z → Ready ctx (c :: path) met s →
      Prepares ctx (c :: path) met s [z] (prepare met z)) :
    Prepares ctx path met s [c] (prepareFormula ctx prepare met c text) := by
  rw [prepareFormula_eq]
  simp only [referencesOf_parse]
  cases hReferences : textReferences ctx text with
  | error e =>
    exact .of_error rfl h.faithful List.mem_cons_self .refl (.references hText hReferences)
  | ok cs =>
    have hRefers : ∀ z, z ∈ cs ↔ Refers ctx c z := fun z => mem_textReferences hReferences hText
    have hFold : Prepares ctx (c :: path) (c :: met) s cs (cs.foldlM prepare (c :: met)) :=
      foldlM_prepares (fun z hz met s hs => hPrepare z met s ((hRefers z).mp hz) hs) h.cons
    rw [lift_ok, pure_bind]
    cases hRun : cs.foldlM prepare (c :: met) s with
    | error e t =>
      obtain ⟨hFaithful, z, hz, y, hReach, hRefused⟩ := hFold.error e t hRun
      exact .of_error (bind_of_error hRun) hFaithful List.mem_cons_self
        (.head ((hRefers z).mp hz) hReach) hRefused
    | ok met' t =>
      obtain ⟨hPrepared, hHandled⟩ := hFold.ok met' t hRun
      cases hAll : cs.all (t.settled.contains ·) with
      | true =>
        refine hPrepared.compute (d := ctx.nestingLimit - 1) hMemoize hText (fun z hz => ?_) ?_
        · exact Std.HashMap.contains_iff_mem.mp
            (List.all_eq_true.mp hAll z ((hRefers z).mpr hz))
        · rw [bind_of_ok hRun, bind_of_ok (areSettled_run cs t), hAll]
          rfl
      | false =>
        obtain ⟨z, hz, hNot⟩ : ∃ z ∈ cs, z ∉ t.settled := by
          simpa [List.all_eq_false] using hAll
        have hCycle : ReachesCycle ctx c :=
          reachesCycle_of_unsettled hPath ((hRefers z).mp hz) (hHandled z hz) hNot
        refine .of_ok ?_
          (hPrepared.narrow hPrepared.faithful (fun _ hx => hx) (.inr (.inr hCycle))) ?_
        · rw [bind_of_ok hRun, bind_of_ok (areSettled_run cs t), hAll]
          rfl
        · simp [Handled, hCycle]

/-- Preparing a cell while the cells of `path`, which all lead to it, are being prepared. -/
theorem prepare_prepares (hMemoize : ctx.memoize = true) (d : Nat) (h : Ready ctx path met s)
    (hPath : ∀ x ∈ path, Relation.TransGen (Refers ctx) x c)
    (hRoom : Recursion.room ctx path ≤ d) : Prepares ctx path met s [c] (prepare ctx d met c) := by
  induction d using Nat.strong_induction_on generalizing path met s c with
  | _ d ih =>
    by_cases hSettled : c ∈ s.settled
    · exact .of_ok (prepare_of_settled hSettled) h.prepared (by simp [Handled, hSettled])
    by_cases hMet : c ∈ met
    · exact .of_ok (prepare_of_met hMet) h.prepared (by simpa using h.handled c hMet)
    cases hText : formulaOf (ctx.grid.get? c) with
    | none =>
      have hCell := Recursion.settle_literal (w := []) (by simp) hText
      have hGrows : ∀ x ∈ s.settled,
          x ∈ ((s.noted (.lookup c)).kept c (ctx.grid.get? c)).settled := by
        intro x hx
        simp [Session.kept, hx]
      refine .of_ok (prepare_literal hSettled hMet hText)
        ⟨(h.faithful.noted _).kept hMemoize hCell, hGrows, fun _ hx => hx, fun x hx => ?_⟩ ?_
      · exact (h.handled x hx).mono hGrows
      · simp [Handled, Session.kept]
    | some text =>
      have hFresh : c ∉ path := fun hc => hMet (h.path_subset hc)
      have hLess := Recursion.room_cons_lt hFresh hText
      cases d with
      | zero => omega
      | succ d =>
        have hStep : ∀ z met s, Refers ctx c z → Ready ctx (c :: path) met s →
            Prepares ctx (c :: path) met s [z] (prepare ctx d met z) := by
          intro z met s hz hs
          refine ih d d.lt_succ_self hs (fun x hx => ?_) (by omega)
          rcases List.mem_cons.mp hx with rfl | hx
          · exact .single hz
          · exact (hPath x hx).tail hz
        exact (prepareFormula_prepares hMemoize hText (h.noted _) hPath hStep).of_noted
          (prepare_succ hSettled hMet hText)

end Resolver
end Spreadsheet
