import Mathlib.Data.Finset.Insert
import Mathlib.Data.List.Infix
import Spreadsheet.Proofs.Resolver.Preparation

/-!
# What a journal says about the cells in progress

The cells whose formulas are being evaluated, read off a journal twice: as a stack, on which a
formula that ends takes its cell off the top if it finds it there, and as a set. Both agree as long
as every event is a legal one at its time, and then no cell is in progress that is kept.
-/

set_option autoImplicit false

namespace Spreadsheet

open Resolver

namespace Journal

/-- The cells in progress, the latest first. -/
def stack : List Moment → List Coordinate
  | [] => []
  | .start c :: earlier => c :: stack earlier
  | .finish c :: earlier =>
    if (stack earlier).head? = some c then (stack earlier).tail else stack earlier
  | .lookup _ :: earlier => stack earlier
  | .keep _ :: earlier => stack earlier
  | .call .. :: earlier => stack earlier

/-- The cells in progress, whatever their order. -/
def inProgress : List Moment → Finset Coordinate
  | [] => ∅
  | .start c :: earlier => insert c (inProgress earlier)
  | .finish c :: earlier => (inProgress earlier).erase c
  | .lookup _ :: earlier => inProgress earlier
  | .keep _ :: earlier => inProgress earlier
  | .call .. :: earlier => inProgress earlier

variable {ctx : EvaluationContext} {j j' k : List Moment} {m : Moment} {w : List Coordinate}
  {c : Coordinate}
  {U V : Coordinate → Prop} {Q : Moment → List Moment → Prop}

@[simp] theorem stack_nil : stack [] = [] := rfl

@[simp] theorem stack_start (c : Coordinate) : stack (.start c :: j) = c :: stack j := rfl

@[simp] theorem stack_lookup (c : Coordinate) : stack (.lookup c :: j) = stack j := rfl

@[simp] theorem stack_keep (c : Coordinate) : stack (.keep c :: j) = stack j := rfl

@[simp] theorem stack_call (key : String) (arguments : List Value) :
    stack (.call key arguments :: j) = stack j := rfl

theorem stack_finish (h : stack j = c :: w) : stack (.finish c :: j) = w := by
  rw [stack, h]
  simp

/-! ## Growing journals -/

/-- A journal grew by events that have a property at their time. -/
inductive Grows (Q : Moment → List Moment → Prop) (j : List Moment) : List Moment → Prop
  | refl : Grows Q j j
  | note {m : Moment} {j' : List Moment} (h : Grows Q j j') (hm : Q m j') : Grows Q j (m :: j')

theorem Grows.trans (h : Grows Q j j') (h' : Grows Q j' k) : Grows Q j k := by
  induction h' with
  | refl => exact h
  | note _ hm ih => exact .note ih hm

theorem Grows.single (hm : Q m j) : Grows Q j (m :: j) := .note .refl hm

theorem Grows.of_le (h : Grows Q j j') (hj : j <:+ k) (hk : k <:+ j') : Grows Q j k := by
  -- all of the growth up to `j'` is dropped, event by event, until `k` is reached
  induction h with
  | refl =>
    rw [hk.eq_of_length_le hj.length_le]
    exact .refl
  | note h hm ih =>
    rcases List.suffix_cons_iff.mp hk with rfl | hk
    · exact h.note hm
    · exact ih hk

theorem Grows.of_suffix (h : Grows Q j j') (hm : m :: k <:+ j') (hk : j <:+ k) : Q m k := by
  induction h with
  | refl =>
    have hLess := hm.length_le.trans hk.length_le
    simp at hLess
  | note _ hLast ih =>
    rcases List.suffix_cons_iff.mp hm with hSame | hEarlier
    · cases hSame
      exact hLast
    · exact ih hEarlier

/-! ## Legal events -/

/-- The cell is neither kept nor in progress. -/
structure IsOpen (c : Coordinate) (j : List Moment) : Prop where
  unkept : .keep c ∉ j
  idle : c ∉ stack j

/-- A formula may start. All its references are kept, unless its cell is one of those that may wait
for other cells. -/
structure MayStart (ctx : EvaluationContext) (U V : Coordinate → Prop) (c : Coordinate)
    (j : List Moment) : Prop where
  asked : U c
  isOpen : IsOpen c j
  formula : ∃ text, formulaOf (ctx.grid.get? c) = some text
  ready : V c ∨ ∀ z, Refers ctx c z → .keep z ∈ j
  waiting : ∀ x ∈ stack j, V x

/-- The events that a resolver goes through, where `U` says which cells it may ask for and `V` which
of them may wait for others. -/
def IsLegal (ctx : EvaluationContext) (U V : Coordinate → Prop) :
    Moment → List Moment → Prop
  | .lookup c, j => U c ∧ IsOpen c j
  | .start c, j => MayStart ctx U V c j
  | .finish c, j => (stack j).head? = some c
  | .keep c, j => ctx.memoize = true ∧ IsOpen c j
  | .call .., _ => True

/-- The stack and the set of the cells in progress agree, and hold formula cells that are not
kept. -/
structure IsSound (ctx : EvaluationContext) (j : List Moment) : Prop where
  nodup : (stack j).Nodup
  mem_inProgress : ∀ c, c ∈ inProgress j ↔ c ∈ stack j
  formula : ∀ c ∈ stack j, ∃ text, formulaOf (ctx.grid.get? c) = some text
  unkept : ∀ c ∈ stack j, .keep c ∉ j

theorem isSound_nil : IsSound ctx [] where
  nodup := .nil
  mem_inProgress c := by simp [inProgress]
  formula c hc := by cases hc
  unkept c hc := by cases hc

theorem IsSound.note (h : IsSound ctx j) (hm : IsLegal ctx U V m j) : IsSound ctx (m :: j) := by
  cases m with
  | lookup d => exact ⟨h.nodup, h.mem_inProgress, h.formula, fun c hc => by simp [h.unkept c hc]⟩
  | call key arguments =>
    exact ⟨h.nodup, h.mem_inProgress, h.formula, fun c hc => by simp [h.unkept c hc]⟩
  | keep d =>
    refine ⟨h.nodup, h.mem_inProgress, h.formula, fun c hc hKept => ?_⟩
    rcases List.mem_cons.mp hKept with hSame | hKept
    · cases hSame
      exact hm.2.idle hc
    · exact h.unkept c hc hKept
  | start d =>
    have hStart : MayStart ctx U V d j := hm
    refine ⟨List.nodup_cons.mpr ⟨hStart.isOpen.idle, h.nodup⟩, fun c => ?_, fun c hc => ?_,
      fun c hc => ?_⟩
    · simp [inProgress, h.mem_inProgress]
    · rcases List.mem_cons.mp hc with rfl | hc
      · exact hStart.formula
      · exact h.formula c hc
    · rcases List.mem_cons.mp hc with rfl | hc
      · simp [hStart.isOpen.unkept]
      · simp [h.unkept c hc]
  | finish d =>
    obtain ⟨w, hStack⟩ : ∃ w, stack j = d :: w := List.head?_eq_some_iff.mp hm
    have hNodup := h.nodup
    rw [hStack] at hNodup
    obtain ⟨hFresh, hRest⟩ := List.nodup_cons.mp hNodup
    have hLess : ∀ c ∈ w, c ∈ stack j := fun c hc => hStack ▸ List.mem_cons_of_mem d hc
    rw [← stack_finish hStack] at hRest hLess hFresh
    refine ⟨hRest, fun c => ?_, fun c hc => h.formula c (hLess c hc),
      fun c hc => by simp [h.unkept c (hLess c hc)]⟩
    rw [stack_finish hStack] at hFresh ⊢
    rw [inProgress, Finset.mem_erase, h.mem_inProgress, hStack, List.mem_cons]
    constructor
    · rintro ⟨hNe, hEq | hc⟩
      · exact absurd hEq hNe
      · exact hc
    · intro hc
      exact ⟨fun hEq => hFresh (hEq ▸ hc), .inr hc⟩

theorem Grows.isSound_last (h : Grows (IsLegal ctx U V) j j') (hj : IsSound ctx j) :
    IsSound ctx j' := by
  induction h with
  | refl => exact hj
  | note _ hm ih => exact ih.note hm

theorem Grows.isSound (h : Grows (IsLegal ctx U V) j j') (hj : ∀ k, k <:+ j → IsSound ctx k) :
    ∀ k, k <:+ j' → IsSound ctx k := by
  induction h with
  | refl => exact hj
  | note _ hm ih =>
    intro k hk
    rcases List.suffix_cons_iff.mp hk with rfl | hk
    · exact (ih _ List.suffix_rfl).note hm
    · exact ih k hk

end Journal
end Spreadsheet
