import Spreadsheet.Proofs.Resolver.Journal
import Spreadsheet.Proofs.Resolver.Request
import Spreadsheet.Proofs.Resolver.Walk

/-!
# What a request does to a session

Every request goes through legal events only and leaves the same cells in progress. Settled cells
stay as they are. Which cells a request may ask for and which may wait for others is left open
here: while preparation walks no cell waits, and afterwards only cells above a cycle are computed.
-/

set_option autoImplicit false

namespace Spreadsheet

open Evaluation

namespace Resolver

variable {ctx : EvaluationContext} {s t u : Session} {w met roots : List Coordinate}
  {c z : Coordinate} {text : String} {U V K C : Coordinate → Prop}

/-! ## Sessions while cells wait -/

/-- The cells in progress are those that wait, and the memory holds what the journal says. -/
structure Standing (w : List Coordinate) (s : Session) : Prop where
  stack : Journal.stack s.journal = w
  kept : ∀ c, c ∈ s.settled ↔ .keep c ∈ s.journal
  unsettled : ∀ c ∈ w, c ∉ s.settled

theorem standing_empty : Standing [] {} where
  stack := rfl
  kept c := by simp
  unsettled c hc := by cases hc

theorem Standing.isOpen (h : Standing w s) (hc : Fresh s w c) : Journal.IsOpen c s.journal where
  unkept hKept := hc.unsettled ((h.kept c).mpr hKept)
  idle hMem := hc.idle (h.stack ▸ hMem)

theorem Standing.lookup (h : Standing w s) (c : Coordinate) : Standing w (s.noted (.lookup c)) where
  stack := h.stack
  kept z := by simp [Session.noted, h.kept]
  unsettled := h.unsettled

theorem Standing.call (h : Standing w s) (key : String) (arguments : List Value) :
    Standing w (s.noted (.call key arguments)) where
  stack := h.stack
  kept z := by simp [Session.noted, h.kept]
  unsettled := h.unsettled

theorem Standing.start (h : Standing w s) (hc : c ∉ s.settled) :
    Standing (c :: w) (s.noted (.start c)) where
  stack := congrArg (c :: ·) h.stack
  kept z := by simp [Session.noted, h.kept]
  unsettled z hz := by
    rcases List.mem_cons.mp hz with rfl | hz
    · exact hc
    · exact h.unsettled z hz

theorem Standing.finish (h : Standing (c :: w) s) : Standing w (s.noted (.finish c)) where
  stack := Journal.stack_finish h.stack
  kept z := by simp [Session.noted, h.kept]
  unsettled z hz := h.unsettled z (List.mem_cons_of_mem c hz)

theorem Standing.keep (h : Standing w s) (hc : c ∉ w) (cell : Option Cell) :
    Standing w (s.kept c cell) where
  stack := h.stack
  kept z := by
    rw [Session.mem_kept, h.kept]
    simp [Session.kept]
  unsettled z hz hSettled := by
    rcases Session.mem_kept.mp hSettled with rfl | hSettled
    · exact hc hz
    · exact h.unsettled z hz hSettled

/-! ## Advances -/

/-- One session led to another by legal events while some cells waited. -/
structure Advances (ctx : EvaluationContext) (U V : Coordinate → Prop) (w : List Coordinate)
    (s t : Session) : Prop where
  standing : Standing w t
  legal : Journal.Grows (Journal.IsLegal ctx U V) s.journal t.journal
  settled : ∀ {c : Coordinate} {cell : Option Cell}, s.settled[c]? = some cell →
    t.settled[c]? = some cell

theorem Standing.advances (h : Standing w s) : Advances ctx U V w s s :=
  ⟨h, .refl, fun hc => hc⟩

theorem Advances.trans (h : Advances ctx U V w s t) (h' : Advances ctx U V w t u) :
    Advances ctx U V w s u :=
  ⟨h'.standing, h.legal.trans h'.legal, fun hc => h'.settled (h.settled hc)⟩

theorem Advances.mem_settled (h : Advances ctx U V w s t) (hc : c ∈ s.settled) : c ∈ t.settled := by
  rw [Std.HashMap.mem_iff_isSome_getElem?] at hc ⊢
  obtain ⟨cell, hCell⟩ := Option.isSome_iff_exists.mp hc
  exact Option.isSome_iff_exists.mpr ⟨cell, h.settled hCell⟩

theorem Standing.advances_lookup (h : Standing w s) (hc : Fresh s w c) (hAsked : U c) :
    Advances ctx U V w s (s.noted (.lookup c)) :=
  ⟨h.lookup c, .single ⟨hAsked, h.isOpen hc⟩, fun hc => hc⟩

theorem Standing.advances_keep (h : Standing w s) (hc : Fresh s w c) (hOn : ctx.memoize = true)
    (cell : Option Cell) : Advances ctx U V w s (s.kept c cell) :=
  ⟨h.keep hc.idle cell, .single ⟨hOn, h.isOpen hc⟩, Session.kept_grows hc.unsettled⟩

theorem Standing.advances_answered (h : Standing w s) (hc : Fresh s w c) (cell : Option Cell) :
    Advances ctx U V w s (s.answered ctx.memoize c cell) := by
  unfold Session.answered
  split
  · rename_i hOn
    exact h.advances_keep hc hOn cell
  · exact h.advances

theorem MayStart.advances
    (hStart : Journal.MayStart ctx U V c s.journal)
    (hBody : Advances ctx U V (c :: w) (s.noted (.start c)) t) :
    Advances ctx U V w s (t.noted (.finish c)) where
  standing := hBody.standing.finish
  legal := by
    have hTop : (Journal.stack t.journal).head? = some c := by rw [hBody.standing.stack]; rfl
    exact ((Journal.Grows.single hStart).trans hBody.legal).note hTop
  settled := hBody.settled

/-! ## Resolving -/

/-- Cells that may be asked for when those in `K` are settled: the others may wait, and their
references may be asked for in turn. -/
structure Cover (ctx : EvaluationContext) (U V K C : Coordinate → Prop) : Prop where
  asked : ∀ c, C c → U c
  waits : ∀ c, C c → ¬ K c → V c
  refers : ∀ c z, C c → ¬ K c → Refers ctx c z → C z

theorem cover_of_closed (hV : ∀ x, U x → V x) (hClosed : ∀ x y, U x → Refers ctx x y → U y) :
    Cover ctx U V (fun _ => False) U where
  asked _ hx := hx
  waits x hx _ := hV x hx
  refers x y hx _ := hClosed x y hx

theorem cover_all (ctx : EvaluationContext) :
    Cover ctx (fun _ => True) (fun _ => True) (fun _ => False) (fun _ => True) :=
  cover_of_closed (fun _ _ => trivial) fun _ _ _ _ => trivial

/-- The passage of requests for covered cells. -/
def advancing (ctx : EvaluationContext) (U V K : Coordinate → Prop) (w : List Coordinate) :
    Passage Session := fun s _ t =>
  Standing w s → (∀ x ∈ w, V x) → (∀ x, K x → x ∈ s.settled) → Advances ctx U V w s t

theorem advancing_evaluates (w : List Coordinate) : Evaluates ctx (advancing ctx U V K w) where
  composes := {
    refl := fun s hs _ _ => hs.advances
    trans := by
      intro s t u o hFirst hSecond hs hw hK
      have hst := hFirst hs hw hK
      exact hst.trans (hSecond hst.standing hw fun x hx => hst.mem_settled (hK x hx)) }
  own := fun _ s hs _ _ => hs.advances
  parsing := fun s hs _ _ => hs.advances
  call := fun s key arguments hs _ _ => ⟨hs.call key arguments, .single trivial, fun hc => hc⟩

theorem advancing_tracks (h : Cover ctx U V K C) :
    Tracks ctx (fun _ c => C c) (fun _ _ => True) (advancing ctx U V K) where
  evaluates := advancing_evaluates
  circular s _ _ hs _ _ := hs.advances
  literal hc hFresh _ hs _ _ :=
    (hs.advances_lookup hFresh (h.asked _ hc)).trans
      ((hs.lookup _).advances_answered ⟨hFresh.unsettled, hFresh.idle⟩ _)
  tooDeep hc hFresh _ hs _ _ := hs.advances_lookup hFresh (h.asked _ hc)
  formula := by
    intro w c s t text v hc hFresh hText hBody _
    have hAdvances : Standing w s → (∀ x ∈ w, V x) → (∀ x, K x → x ∈ s.settled) →
        Advances ctx U V w s (t.noted (.finish c)) ∧ c ∉ t.settled := by
      intro hs hw hK
      have hNot : ¬ K c := fun hSettled => hFresh.unsettled (hK c hSettled)
      have hWaits := h.waits c hc hNot
      have hLookup := hs.lookup c
      have hStart : Journal.MayStart ctx U V c (s.noted (.lookup c)).journal :=
        { asked := h.asked c hc
          isOpen := hLookup.isOpen ⟨hFresh.unsettled, hFresh.idle⟩
          formula := ⟨text, hText⟩
          ready := .inl hWaits
          waiting := fun x hx => hw x (hLookup.stack ▸ hx) }
      have hWaiting : ∀ x ∈ c :: w, V x := by
        intro x hx
        rcases List.mem_cons.mp hx with rfl | hx
        · exact hWaits
        · exact hw x hx
      have hEnds := ends_ended.mp (hBody fun z hz => h.refers c z hc hNot hz)
        (hLookup.start hFresh.unsettled) hWaiting hK
      exact ⟨(hs.advances_lookup hFresh (h.asked c hc)).trans (MayStart.advances hStart hEnds),
        hEnds.standing.unsettled c List.mem_cons_self⟩
    cases settledCell c text v with
    | error e => exact fun hs hw hK => (hAdvances hs hw hK).1
    | ok cell =>
      intro hs hw hK
      obtain ⟨hRun, hNot⟩ := hAdvances hs hw hK
      exact hRun.trans (hRun.standing.advances_answered ⟨hNot, hFresh.idle⟩ _)

theorem resolve_advancing (h : Cover ctx U V K C) (d : Nat) (hc : C c) :
    Leads (advancing ctx U V K w) (resolve ctx d w c) :=
  (advancing_tracks h).resolve (fun _ _ _ _ _ _ _ _ => trivial) d hc

/-! ## Walking -/

theorem stack_calls {calls : List Moment} (hCalls : AreCalls calls) (j : List Moment) :
    Journal.stack (calls ++ j) = Journal.stack j := by
  induction calls with
  | nil => rfl
  | cons m calls ih =>
    obtain ⟨key, arguments, rfl⟩ := hCalls m List.mem_cons_self
    exact ih fun m hm => hCalls m (List.mem_cons_of_mem _ hm)

theorem grows_calls {calls : List Moment} (hCalls : AreCalls calls) (j : List Moment) :
    Journal.Grows (Journal.IsLegal ctx U V) j (calls ++ j) := by
  induction calls with
  | nil => exact .refl
  | cons m calls ih =>
    obtain ⟨key, arguments, rfl⟩ := hCalls m List.mem_cons_self
    exact .note (ih fun m hm => hCalls m (List.mem_cons_of_mem _ hm)) trivial

/-- While preparation walks no cell waits: what it computes starts with all references kept. -/
theorem Computes.advances {v : Except Failure Value} (h : Computes ctx c s v t)
    (hs : Standing [] s) (hc : c ∉ s.settled) (hAsked : U c)
    (hText : formulaOf (ctx.grid.get? c) = some text)
    (hAll : ∀ z, Refers ctx c z → z ∈ s.settled) : Advances ctx U V [] s t := by
  obtain ⟨hSettled, ⟨calls, hJournal, hCalls⟩, -⟩ := h
  have hStart : Journal.MayStart ctx U V c s.journal :=
    { asked := hAsked
      isOpen := hs.isOpen ⟨hc, by simp⟩
      formula := ⟨text, hText⟩
      ready := .inr fun z hz => (hs.kept z).mp (hAll z hz)
      waiting := by simp [hs.stack] }
  have hTop : Journal.stack (calls ++ .start c :: s.journal) = [c] := by
    rw [stack_calls hCalls, Journal.stack_start, hs.stack]
  have hFinish : (Journal.stack (calls ++ .start c :: s.journal)).head? = some c := by
    rw [hTop]
    rfl
  refine ⟨⟨?_, fun z => ?_, by simp⟩, ?_, fun hz => by rwa [hSettled]⟩
  · rw [hJournal, Journal.stack_finish hTop]
  · have hNone : Moment.keep z ∉ calls := by
      intro hMem
      obtain ⟨key, arguments, hCall⟩ := hCalls _ hMem
      cases hCall
    rw [hSettled, hs.kept, hJournal]
    simp [hNone]
  · rw [hJournal]
    exact ((Journal.Grows.single hStart).trans (grows_calls hCalls _)).note hFinish

theorem Enters.advances {refs : List Coordinate} (h : Enters ctx met s c text refs)
    (hs : Standing [] s) (hAsked : U c) (hClosed : ∀ x y, U x → Refers ctx x y → U y)
    (hBelow : Standing [] (s.noted (.lookup c)) → (∀ z ∈ refs, U z) →
      Advances ctx U V [] (s.noted (.lookup c)) t) : Advances ctx U V [] s t :=
  (hs.advances_lookup ⟨h.fresh.unsettled, by simp⟩ hAsked).trans
    (hBelow (hs.lookup c) fun z hz => hClosed c z hAsked (h.mem_references.mp hz))

theorem Walk.advances {r : Except Failure (List Coordinate)} (h : Walk ctx met s roots r t)
    (hOn : ctx.memoize = true) (hs : Standing [] s) (hRoots : ∀ z ∈ roots, U z)
    (hClosed : ∀ x y, U x → Refers ctx x y → U y) : Advances ctx U V [] s t := by
  induction h with
  | done => exact hs.advances
  | skip _ _ ih => exact ih hs fun z hz => hRoots z (List.mem_cons_of_mem _ hz)
  | @literal met cs s t c r hFresh hText rest ih =>
    have hNew : Fresh s [] c := ⟨hFresh.unsettled, by simp⟩
    have hLookup : Advances ctx U V [] s (s.noted (.lookup c)) :=
      hs.advances_lookup hNew (hRoots c List.mem_cons_self)
    have hKeep := hLookup.trans (hLookup.standing.advances_keep ⟨hNew.unsettled, hNew.idle⟩ hOn
      (ctx.grid.get? c))
    exact hKeep.trans (ih hKeep.standing fun z hz => hRoots z (List.mem_cons_of_mem _ hz))
  | unreadable hFresh =>
    exact hs.advances_lookup ⟨hFresh.unsettled, by simp⟩ (hRoots _ List.mem_cons_self)
  | stuck h _ ih => exact h.advances hs (hRoots _ List.mem_cons_self) hClosed ih
  | putOff h _ _ _ ihBelow ihRest =>
    have hBelow := h.advances hs (hRoots _ List.mem_cons_self) hClosed ihBelow
    exact hBelow.trans (ihRest hBelow.standing fun z hz => hRoots z (List.mem_cons_of_mem _ hz))
  | failed h below hAll hRun _ ih =>
    have hAsked := hRoots _ List.mem_cons_self
    have hBelow := h.advances hs hAsked hClosed ih
    exact hBelow.trans
      (hRun.advances hBelow.standing (h.not_settled below) hAsked h.formula hAll)
  | @settled met cs refs met' s t u x c text v cell r h below hAll hRun _ _ ihBelow ihRest =>
    have hAsked := hRoots c List.mem_cons_self
    have hBelow := h.advances hs hAsked hClosed ihBelow
    have hComputed := hBelow.trans
      (hRun.advances hBelow.standing (h.not_settled below) hAsked h.formula hAll)
    have hNew : Fresh u [] c := ⟨hRun.settled ▸ h.not_settled below, by simp⟩
    have hKept := hComputed.trans (hComputed.standing.advances_keep hNew hOn (some cell))
    exact hKept.trans (ihRest hKept.standing fun z hz => hRoots z (List.mem_cons_of_mem _ hz))

/-! ## Requests -/

/-- Only cells above a cycle need to wait once preparation has walked from all that is asked for. -/
theorem Walk.cover (h : Walk ctx [] s roots (.ok met) t)
    (hClosed : ∀ x y, U x → Refers ctx x y → U y) (hV : ∀ x, U x → ReachesCycle ctx x → V x) :
    Cover ctx U V (· ∈ t.settled) (fun x => U x ∧ (x ∈ t.settled ∨ x ∈ met)) where
  asked _ hx := hx.1
  waits x hx hNot := hV x hx.1
    (h.putOff_of_met rfl (hx.2.resolve_left hNot) (by simp) hNot).1
  refers x y hx hNot hxy := ⟨hClosed x y hx.1 hxy,
    (h.putOff_of_met rfl (hx.2.resolve_left hNot) (by simp) hNot).2 y hxy⟩

theorem Serves.advances {α : Type} {x : Step α} {address : Except Failure (Option String)}
    {a : Except Failure α} (h : Serves ctx roots address x s a t) (hs : Standing [] s)
    (hRoots : ∀ z ∈ roots, U z) (hClosed : ∀ x y, U x → Refers ctx x y → U y)
    (hV : ∀ x, U x → (ctx.memoize = true → ReachesCycle ctx x) → V x)
    (hx : ∀ K C, Cover ctx U V K C → (∀ z ∈ roots, C z) → Leads (advancing ctx U V K []) x) :
    Advances ctx U V [] s t := by
  have hRun : ∀ {K C : Coordinate → Prop} {b : Except Failure α} {s t : Session},
      Cover ctx U V K C → (∀ z ∈ roots, C z) → (∀ z, K z → z ∈ s.settled) → Standing [] s →
        x s = ended b t → Advances ctx U V [] s t := by
    intro K C b s t hCover hC hK hs hRun
    have hEnds := hx K C hCover hC s
    rw [hRun] at hEnds
    exact ends_ended.mp hEnds hs (by simp) hK
  cases h with
  | atOnce hOff hRun' =>
    have hCover := cover_of_closed (fun x hx => hV x hx (by simp [hOff])) hClosed
    exact hRun hCover hRoots (fun _ => False.elim) hs hRun'
  | refused hOn walk => exact walk.advances hOn hs hRoots hClosed
  | walked hOn walk _ hRun' =>
    have hWalk : Advances ctx U V [] s _ := walk.advances hOn hs hRoots hClosed
    have hCover := walk.cover hClosed fun x hx hCycle => hV x hx fun _ => hCycle
    refine hWalk.trans (hRun hCover (fun z hz => ⟨hRoots z hz, walk.roots_known rfl hz⟩)
      (fun _ hz => hz) hWalk.standing hRun')

section Requests

variable (hClosed : ∀ x y, U x → Refers ctx x y → U y)
  (hV : ∀ x, U x → (ctx.memoize = true → ReachesCycle ctx x) → V x)

include hClosed hV

theorem evaluate_advances (hFaithful : s.Faithful ctx) (hs : Standing [] s) {f : Formula}
    (hAsked : ∀ z, f.Asks ctx.rangeLimit z → U z) :
    Advances ctx U V [] s ((evaluate ctx f).final s) := by
  cases hReferences : f.references ctx.rangeLimit with
  | error e =>
    rw [final_of_error (evaluate_of_references_error hReferences s)]
    exact hs.advances
  | ok roots =>
    obtain ⟨a, t, hRun⟩ := exists_ended (evaluate ctx f) s
    rw [final_of_ended hRun]
    refine (evaluate_serves hFaithful hReferences hRun).advances hs
      (fun z hz => hAsked z ((f.mem_references hReferences).mp hz)) hClosed hV ?_
    intro K C hCover hC
    exact (advancing_evaluates []).formula fun z hz =>
      resolve_advancing hCover _ (hC z ((f.mem_references hReferences).mpr hz))

theorem evaluateCell_advances (hFaithful : s.Faithful ctx) (hs : Standing [] s) (hAsked : U c) :
    Advances ctx U V [] s ((evaluateCell ctx c).final s) := by
  obtain ⟨a, t, hRun⟩ := exists_ended (evaluateCell ctx c) s
  rw [final_of_ended hRun]
  refine (evaluateCell_serves hFaithful hRun).advances hs (by simpa using hAsked) hClosed hV ?_
  exact fun K C hCover hC => resolve_advancing hCover _ (hC c List.mem_cons_self)

theorem evaluateEntries_advances (hFaithful : s.Faithful ctx) (hs : Standing [] s)
    {entries : List (Coordinate × Cell)} (hAsked : ∀ entry ∈ entries, U entry.1) :
    Advances ctx U V [] s ((evaluateEntries ctx entries).final s) := by
  have hPass : ((evaluateEntries ctx entries).final s).Faithful ctx ∧
      Advances ctx U V [] s ((evaluateEntries ctx entries).final s) := by
    refine evaluateEntries_final (P := fun t => t.Faithful ctx ∧ Advances ctx U V [] s t)
      ⟨hFaithful, hs.advances⟩ fun entry hEntry t ht => ?_
    exact ⟨evaluateCell_final_faithful ht.1 entry.1,
      ht.2.trans (evaluateCell_advances hClosed hV ht.1 ht.2.standing (hAsked entry hEntry))⟩
  exact hPass.2

end Requests

/-- A request advances a session; one that is not prepared needs that all cells may wait. -/
theorem Request.advances (r : Request) (hFaithful : s.Faithful ctx) (hs : Standing [] s)
    (hAsked : ∀ c, r.Asks ctx c → U c) (hClosed : ∀ x y, U x → Refers ctx x y → U y)
    (hV : ∀ x, U x → (ctx.memoize = true → ReachesCycle ctx x) → V x)
    (hResolve : ∀ c, r = .resolve c → ∀ x, U x → V x) :
    Advances ctx U V [] s ((r.run ctx).final s) := by
  cases r with
  | value f =>
    rw [Request.run, final_map]
    exact evaluate_advances hClosed hV hFaithful hs hAsked
  | cell c =>
    rw [Request.run, final_map]
    exact evaluateCell_advances hClosed hV hFaithful hs (hAsked c rfl)
  | resolve c =>
    rw [Request.run, final_map]
    obtain ⟨a, t, hRun⟩ := exists_ended (resolveCell ctx c) s
    have hCover := cover_of_closed (hResolve c rfl) hClosed
    have hEnds := resolve_advancing (w := []) hCover ctx.nestingLimit (hAsked c rfl) s
    rw [final_of_ended hRun]
    rw [resolveCell_eq] at hRun
    rw [hRun] at hEnds
    exact ends_ended.mp hEnds hs (by simp) (fun _ => False.elim)
  | pass =>
    rw [Request.run, final_map]
    refine evaluateEntries_advances hClosed hV hFaithful hs fun entry hEntry => hAsked entry.1 ?_
    exact List.mem_map_of_mem hEntry

theorem Request.advances_any (r : Request) (hFaithful : s.Faithful ctx) (hs : Standing [] s) :
    Advances ctx (fun _ => True) (fun _ => True) [] s ((r.run ctx).final s) :=
  r.advances hFaithful hs (fun _ _ => trivial) (fun _ _ _ _ => trivial) (fun _ _ _ => trivial)
    fun _ _ _ _ => trivial

theorem after_standing (ctx : EvaluationContext) (requests : List Request) :
    Standing [] (after ctx requests) := by
  have hBoth : (after ctx requests).Faithful ctx ∧ Standing [] (after ctx requests) := by
    refine after_induction (P := fun s => s.Faithful ctx ∧ Standing [] s)
      ⟨Session.faithful_empty ctx, standing_empty⟩ (fun r s hs => ?_) requests
    exact ⟨r.final_faithful hs.1, (r.advances_any hs.1 hs.2).standing⟩
  exact hBoth.2

end Resolver
end Spreadsheet
