import Spreadsheet.Proofs.Function.Aggregate
import Spreadsheet.Proofs.Resolver.Range

/-!
# Aggregates over parts of a rectangle

When a line cuts a rectangle in two, the sum and the count of the whole are those of the parts added
up, its least and greatest number are the lesser and the greater of theirs, and the sum of both parts
at once is the sum of the whole. The members of the whole need not come in the order of the parts.
-/

set_option autoImplicit false

namespace Spreadsheet

open Evaluation

/-- The formula is a range between two addresses of these corners. -/
def Formula.Encloses (f : Formula) (a b : Coordinate) : Prop :=
  ∃ first last, f = .range first last ∧ Coordinate.ofAddress first = .ok a ∧
    Coordinate.ofAddress last = .ok b

namespace Recursion

variable {ctx : EvaluationContext} {A : Coordinate → Except Failure (Option Cell)} {f : Formula}
  {fs : List Formula} {v : Value} {vs : List Value} {name : String} {g : Function}

def valuesOf (ctx : EvaluationContext) (A : Coordinate → Except Failure (Option Cell))
    (fs : List Formula) : Except Failure (List Value) :=
  (Formula.evaluateAll (surroundings ctx A) fs).outcome ()

theorem valuesOf_cons (h : value ctx A f = .ok v) (hRest : valuesOf ctx A fs = .ok vs) :
    valuesOf ctx A (f :: fs) = .ok (v :: vs) := by
  obtain ⟨u, hFirst⟩ := exists_of_outcome_ok h
  obtain ⟨t, hOthers⟩ := exists_of_outcome_ok hRest
  rw [valuesOf, Formula.evaluateAll, outcome, bind_of_ok hFirst, bind_of_ok hOthers]
  rfl

theorem value_call (hFunction : ctx.functions.byName? name = some g)
    (hArguments : valuesOf ctx A fs = .ok vs) (hCall : g vs = .ok v) :
    value ctx A (.call name fs) = .ok v := by
  obtain ⟨u, hRun⟩ := exists_of_outcome_ok hArguments
  rw [value, Formula.evaluate]
  simp only [surroundings, hFunction]
  rw [← surroundings, outcome, bind_of_ok hRun]
  simp only [Formula.callFunction, hCall]
  rfl

end Recursion

namespace Resolver

variable {ctx : EvaluationContext} {s : Session} {fs : List Formula} {name : String} {g : Function}
  {v : Value} {shown : Coordinate → Value} {rs : List (Coordinate × Coordinate)}
  {whole part₁ part₂ : Formula} {a b a₁ b₁ a₂ b₂ : Coordinate}

def listOf (shown : Coordinate → Value) (r : Coordinate × Coordinate) : Value :=
  .list (((Coordinate.rectangle r.1 r.2).map shown).filter (!Builtin.isNull ·))

theorem references_of_encloses {f : Formula} (hLimit : ctx.rangeLimit = none)
    (h : f.Encloses a b) : f.references ctx.rangeLimit = .ok (Coordinate.rectangle a b) := by
  obtain ⟨first, last, rfl, ha, hb⟩ := h
  apply references_within (Formula.corners_eq_ok.mpr ⟨ha, hb⟩)
  rw [hLimit]
  rfl

theorem value_of_encloses {f : Formula} (hLimit : ctx.rangeLimit = none) (h : f.Encloses a b)
    (hShows : ∀ z ∈ Coordinate.rectangle a b, Shows ctx z (shown z)) :
    Recursion.value ctx (Recursion.settle ctx []) f = .ok (listOf shown (a, b)) := by
  obtain ⟨first, last, rfl, ha, hb⟩ := h
  apply value_of_shows (Formula.corners_eq_ok.mpr ⟨ha, hb⟩) ?_ hShows
  rw [hLimit]
  rfl

theorem references_of_ranges (hLimit : ctx.rangeLimit = none)
    (h : List.Forall₂ (fun f r => f.Encloses r.1 r.2) fs rs) :
    Formula.referencesOfAll ctx.rangeLimit fs =
      .ok (rs.flatMap fun r => Coordinate.rectangle r.1 r.2) := by
  induction h with
  | nil => rfl
  | cons hFirst _ ih =>
    rw [Formula.referencesOfAll, references_of_encloses hLimit hFirst, ih]
    rfl

theorem values_of_ranges (hLimit : ctx.rangeLimit = none)
    (h : List.Forall₂ (fun f r => f.Encloses r.1 r.2) fs rs)
    (hShows : ∀ r ∈ rs, ∀ z ∈ Coordinate.rectangle r.1 r.2, Shows ctx z (shown z)) :
    Recursion.valuesOf ctx (Recursion.settle ctx []) fs = .ok (rs.map (listOf shown)) := by
  induction h with
  | nil => rfl
  | cons hFirst _ ih =>
    obtain ⟨hHead, hTail⟩ := List.forall_mem_cons.mp hShows
    exact Recursion.valuesOf_cons (value_of_encloses hLimit hFirst hHead) (ih hTail)

theorem outcome_of_ranges (hLimit : ctx.rangeLimit = none) (hs : s.Faithful ctx)
    (hFunction : ctx.functions.byName? name = some g)
    (h : List.Forall₂ (fun f r => f.Encloses r.1 r.2) fs rs)
    (hShows : ∀ r ∈ rs, ∀ z ∈ Coordinate.rectangle r.1 r.2, Shows ctx z (shown z))
    (hCall : g (rs.map (listOf shown)) = .ok v) :
    (evaluate ctx (.call name fs)).outcome s = .ok v := by
  have hReferences : (Formula.call name fs).references ctx.rangeLimit =
      .ok (rs.flatMap fun r => Coordinate.rectangle r.1 r.2) := by
    rw [Formula.references, references_of_ranges hLimit h]
  have hClean : ∀ z ∈ rs.flatMap fun r => Coordinate.rectangle r.1 r.2,
      Recursion.CleanWithin ctx (depthOf ctx) z := by
    intro z hz
    obtain ⟨r, hr, hMember⟩ := List.mem_flatMap.mp hz
    exact (hShows r hr z hMember).cleanWithin
  rw [evaluate_of_clean hs hReferences hClean]
  exact Recursion.value_call hFunction (values_of_ranges hLimit h hShows) hCall

/-! ## The whole and its parts -/

structure HasAggregates (r : Registry) : Prop where
  sum : r.byName? "SUM" = some Builtin.sum
  count : r.byName? "COUNT" = some Builtin.count
  min : r.byName? "MIN" = some Builtin.min
  max : r.byName? "MAX" = some Builtin.max

def aggregate (ctx : EvaluationContext) (before : List Request) (name : String)
    (ranges : List Formula) : Except Failure Value :=
  (evaluate ctx (.call name ranges)).outcome (after ctx before)

/-- Some member of the rectangle settles to a whole number. -/
def HoldsNumber (ctx : EvaluationContext) (a b : Coordinate) : Prop :=
  ∃ z ∈ Coordinate.rectangle a b, ∃ n, Shows ctx z (.int n)

theorem Shows.unique {c : Coordinate} {u : Value} (h : Shows ctx c v) (hOther : Shows ctx c u) :
    v = u := by
  obtain ⟨cell, hCell, hReading⟩ := h
  obtain ⟨other, hSame, hReading'⟩ := hOther
  obtain rfl := hCell.unique hSame
  rw [hReading] at hReading'
  exact Option.some.inj hReading'

def wholesIn (shown : Coordinate → Value) (r : Coordinate × Coordinate) : List Int :=
  Value.wholes ((Coordinate.rectangle r.1 r.2).map shown)

theorem flatten_listOf (rs : List (Coordinate × Coordinate)) :
    Builtin.flatten (rs.map (listOf shown)) = rs.flatMap fun r =>
      ((Coordinate.rectangle r.1 r.2).map shown).filter (!Builtin.isNull ·) := by
  rw [Builtin.flatten, List.flatMap_map]
  rfl

theorem wholes_listOf (rs : List (Coordinate × Coordinate)) :
    Value.wholes (Builtin.flatten (rs.map (listOf shown))) = rs.flatMap (wholesIn shown) := by
  rw [flatten_listOf]
  induction rs with
  | nil => rfl
  | cons r rs ih =>
    rw [List.flatMap_cons, List.flatMap_cons, Value.wholes_append, ih, Value.wholes_filter]
    rfl

/-- The formulas are ranges of these corners, and their members hold whole numbers or nothing. -/
structure Reads (ctx : EvaluationContext) (shown : Coordinate → Value) (fs : List Formula)
    (rs : List (Coordinate × Coordinate)) : Prop where
  limit : ctx.rangeLimit = none
  functions : HasAggregates ctx.functions
  ranges : List.Forall₂ (fun f r => f.Encloses r.1 r.2) fs rs
  shows : ∀ r ∈ rs, ∀ z ∈ Coordinate.rectangle r.1 r.2, Shows ctx z (shown z)
  whole : ∀ r ∈ rs, ∀ z ∈ Coordinate.rectangle r.1 r.2, (shown z).IsWhole

section Reads

variable (h : Reads ctx shown fs rs) (before : List Request) {m : Int}

include h

theorem Reads.isWhole : ∀ v ∈ Builtin.flatten (rs.map (listOf shown)), v.IsWhole := by
  rw [flatten_listOf]
  intro v hv
  obtain ⟨r, hr, hMember⟩ := List.mem_flatMap.mp hv
  obtain ⟨z, hz, rfl⟩ := List.mem_map.mp (List.mem_of_mem_filter hMember)
  exact h.whole r hr z hz

theorem Reads.aggregate_eq (hFunction : ctx.functions.byName? name = some g)
    (hCall : g (rs.map (listOf shown)) = .ok v) : aggregate ctx before name fs = .ok v :=
  outcome_of_ranges h.limit (after_faithful ctx before) hFunction h.ranges h.shows hCall

theorem Reads.sum : aggregate ctx before "SUM" fs = .ok (.int (rs.flatMap (wholesIn shown)).sum) := by
  apply h.aggregate_eq before h.functions.sum
  rw [Builtin.sum_of_whole h.isWhole, wholes_listOf]

theorem Reads.count :
    aggregate ctx before "COUNT" fs = .ok (.int (rs.flatMap (wholesIn shown)).length) := by
  apply h.aggregate_eq before h.functions.count
  rw [Builtin.count_of_whole h.isWhole, wholes_listOf]

theorem Reads.min (hLeast : (rs.flatMap (wholesIn shown)).min? = some m) :
    aggregate ctx before "MIN" fs = .ok (.int m) := by
  apply h.aggregate_eq before h.functions.min
  rw [← wholes_listOf] at hLeast
  exact Builtin.min_of_whole h.isWhole hLeast

theorem Reads.max (hGreatest : (rs.flatMap (wholesIn shown)).max? = some m) :
    aggregate ctx before "MAX" fs = .ok (.int m) := by
  apply h.aggregate_eq before h.functions.max
  rw [← wholes_listOf] at hGreatest
  exact Builtin.max_of_whole h.isWhole hGreatest

end Reads

theorem wholesIn_perm (h : Coordinate.Splits a b a₁ b₁ a₂ b₂) :
    (wholesIn shown (a₁, b₁) ++ wholesIn shown (a₂, b₂)).Perm (wholesIn shown (a, b)) := by
  unfold wholesIn
  rw [← Value.wholes_append, ← List.map_append]
  exact Value.wholes_perm (h.perm.map shown)

theorem wholesIn_ne_nil (hShows : ∀ z ∈ Coordinate.rectangle a b, Shows ctx z (shown z))
    (h : HoldsNumber ctx a b) : wholesIn shown (a, b) ≠ [] := by
  obtain ⟨z, hz, n, hNumber⟩ := h
  have hMember : n ∈ wholesIn shown (a, b) := by
    rw [wholesIn, Value.mem_wholes, hNumber.unique (hShows z hz)]
    exact List.mem_map_of_mem hz
  exact List.ne_nil_of_mem hMember

/-- Every aggregate of the whole is put together from the same aggregate of the two parts. -/
structure Combines (ctx : EvaluationContext) (before : List Request) (whole part₁ part₂ : Formula) :
    Prop where
  sum : ∃ n₁ n₂ : Int, aggregate ctx before "SUM" [part₁] = .ok (.int n₁) ∧
    aggregate ctx before "SUM" [part₂] = .ok (.int n₂) ∧
    aggregate ctx before "SUM" [whole] = .ok (.int (n₁ + n₂)) ∧
    aggregate ctx before "SUM" [part₁, part₂] = aggregate ctx before "SUM" [whole] ∧
    aggregate ctx before "SUM" [part₂, part₁] = aggregate ctx before "SUM" [whole]
  count : ∃ n₁ n₂ : Nat, aggregate ctx before "COUNT" [part₁] = .ok (.int n₁) ∧
    aggregate ctx before "COUNT" [part₂] = .ok (.int n₂) ∧
    aggregate ctx before "COUNT" [whole] = .ok (.int (n₁ + n₂))

/-- So are the least and the greatest number, where there is a number in each part. -/
structure CombinesBounds (ctx : EvaluationContext) (before : List Request)
    (whole part₁ part₂ : Formula) : Prop where
  min : ∃ m₁ m₂ : Int, aggregate ctx before "MIN" [part₁] = .ok (.int m₁) ∧
    aggregate ctx before "MIN" [part₂] = .ok (.int m₂) ∧
    aggregate ctx before "MIN" [whole] = .ok (.int (Min.min m₁ m₂))
  max : ∃ m₁ m₂ : Int, aggregate ctx before "MAX" [part₁] = .ok (.int m₁) ∧
    aggregate ctx before "MAX" [part₂] = .ok (.int m₂) ∧
    aggregate ctx before "MAX" [whole] = .ok (.int (Max.max m₁ m₂))

/-- The whole and its parts, with what their members hold. -/
structure Partition (ctx : EvaluationContext) (shown : Coordinate → Value)
    (whole part₁ part₂ : Formula) (r r₁ r₂ : Coordinate × Coordinate) : Prop where
  whole : Reads ctx shown [whole] [r]
  first : Reads ctx shown [part₁] [r₁]
  second : Reads ctx shown [part₂] [r₂]
  perm : (wholesIn shown r₁ ++ wholesIn shown r₂).Perm (wholesIn shown r)

section Partition

variable {r r₁ r₂ : Coordinate × Coordinate} (h : Partition ctx shown whole part₁ part₂ r r₁ r₂)
  (before : List Request)

include h

theorem Partition.both : Reads ctx shown [part₁, part₂] [r₁, r₂] where
  limit := h.whole.limit
  functions := h.whole.functions
  ranges := by
    obtain ⟨hFirst, -⟩ := List.forall₂_cons.mp h.first.ranges
    exact .cons hFirst h.second.ranges
  shows := List.forall_mem_cons.mpr ⟨h.first.shows r₁ List.mem_cons_self, h.second.shows⟩
  whole := List.forall_mem_cons.mpr ⟨h.first.whole r₁ List.mem_cons_self, h.second.whole⟩

theorem Partition.swap : Partition ctx shown whole part₂ part₁ r r₂ r₁ where
  whole := h.whole
  first := h.second
  second := h.first
  perm := List.perm_append_comm.trans h.perm

theorem Partition.sum_both :
    aggregate ctx before "SUM" [part₁, part₂] = aggregate ctx before "SUM" [whole] := by
  rw [h.both.sum before, h.whole.sum before]
  simp only [List.flatMap_cons, List.flatMap_nil, List.append_nil, h.perm.sum_eq]

theorem Partition.combines : Combines ctx before whole part₁ part₂ where
  sum := by
    refine ⟨_, _, h.first.sum before, h.second.sum before, ?_, h.sum_both before,
      h.swap.sum_both before⟩
    rw [h.whole.sum before]
    simp only [List.flatMap_singleton, ← h.perm.sum_eq, List.sum_append]
  count := by
    refine ⟨_, _, h.first.count before, h.second.count before, ?_⟩
    rw [h.whole.count before]
    simp only [List.flatMap_singleton, ← h.perm.length_eq, List.length_append]
    rfl

theorem Partition.combinesBounds (hFirst : wholesIn shown r₁ ≠ [])
    (hSecond : wholesIn shown r₂ ≠ []) : CombinesBounds ctx before whole part₁ part₂ where
  min := by
    obtain ⟨m₁, h₁⟩ := Option.isSome_iff_exists.mp (List.isSome_min?_iff.mpr hFirst)
    obtain ⟨m₂, h₂⟩ := Option.isSome_iff_exists.mp (List.isSome_min?_iff.mpr hSecond)
    refine ⟨m₁, m₂, h.first.min before ?_, h.second.min before ?_, h.whole.min before ?_⟩
    · rwa [List.flatMap_singleton]
    · rwa [List.flatMap_singleton]
    · rw [List.flatMap_singleton]
      exact Builtin.min?_of_parts h.perm h₁ h₂
  max := by
    obtain ⟨m₁, h₁⟩ := Option.isSome_iff_exists.mp (List.isSome_max?_iff.mpr hFirst)
    obtain ⟨m₂, h₂⟩ := Option.isSome_iff_exists.mp (List.isSome_max?_iff.mpr hSecond)
    refine ⟨m₁, m₂, h.first.max before ?_, h.second.max before ?_, h.whole.max before ?_⟩
    · rwa [List.flatMap_singleton]
    · rwa [List.flatMap_singleton]
    · rw [List.flatMap_singleton]
      exact Builtin.max?_of_parts h.perm h₁ h₂

end Partition

/-- With no limit on ranges, and over members that settle to whole numbers or nothing, the aggregates
of a rectangle are those of the two parts into which a line cuts it, put together. -/
theorem aggregates_of_parts (hLimit : ctx.rangeLimit = none)
    (hFunctions : HasAggregates ctx.functions) (hWhole : whole.Encloses a b)
    (hFirst : part₁.Encloses a₁ b₁) (hSecond : part₂.Encloses a₂ b₂)
    (hSplits : Coordinate.Splits a b a₁ b₁ a₂ b₂)
    (hMembers : ∀ z ∈ Coordinate.rectangle a b, ∃ v, Shows ctx z v ∧ v.IsWhole)
    (before : List Request) :
    Combines ctx before whole part₁ part₂ ∧
      (HoldsNumber ctx a₁ b₁ → HoldsNumber ctx a₂ b₂ →
        CombinesBounds ctx before whole part₁ part₂) := by
  choose! shown hShown using hMembers
  have hReads : ∀ (f : Formula) (c d : Coordinate), f.Encloses c d →
      Coordinate.rectangle c d ⊆ Coordinate.rectangle a b → Reads ctx shown [f] [(c, d)] := by
    intro f c d hf hSubset
    refine ⟨hLimit, hFunctions, .cons hf .nil, ?_, ?_⟩
    · rw [List.forall_mem_singleton]
      exact fun z hz => (hShown z (hSubset hz)).1
    · rw [List.forall_mem_singleton]
      exact fun z hz => (hShown z (hSubset hz)).2
  have hPerm := hSplits.perm
  have hPartition : Partition ctx shown whole part₁ part₂ (a, b) (a₁, b₁) (a₂, b₂) := by
    refine ⟨hReads _ _ _ hWhole (List.Subset.refl _), hReads _ _ _ hFirst ?_,
      hReads _ _ _ hSecond ?_, wholesIn_perm hSplits⟩
    · exact fun z hz => hPerm.mem_iff.mp (List.mem_append_left _ hz)
    · exact fun z hz => hPerm.mem_iff.mp (List.mem_append_right _ hz)
  refine ⟨hPartition.combines before, fun h₁ h₂ => hPartition.combinesBounds before ?_ ?_⟩
  · exact wholesIn_ne_nil (hPartition.first.shows _ List.mem_cons_self) h₁
  · exact wholesIn_ne_nil (hPartition.second.shows _ List.mem_cons_self) h₂

/-- Numbers, a formula and an empty cell in two columns. -/
def columnSheet : EvaluationContext where
  grid := ⟨[(⟨0, 0⟩, { value := .int 2 }), (⟨0, 1⟩, { formula := some "=A1*3" }), (⟨1, 0⟩, {}),
    (⟨1, 1⟩, { value := .int (-1) })], by decide⟩
  functions := Builtin.registry

theorem aggregates_of_columns :
    columnSheet.rangeLimit = none ∧ HasAggregates columnSheet.functions ∧
      Coordinate.Splits ⟨0, 0⟩ ⟨1, 1⟩ ⟨1, 0⟩ ⟨0, 0⟩ ⟨0, 1⟩ ⟨1, 1⟩ ∧
      Combines columnSheet [.cell ⟨0, 1⟩] (.range "a1" "B2") (.range "A2" "A1")
        (.range "B1" "b02") ∧
      CombinesBounds columnSheet [.cell ⟨0, 1⟩] (.range "a1" "B2") (.range "A2" "A1")
        (.range "B1" "b02") := by
  have hFunctions : HasAggregates columnSheet.functions := ⟨by cbv, by cbv, by cbv, by cbv⟩
  have hSplits : Coordinate.Splits ⟨0, 0⟩ ⟨1, 1⟩ ⟨1, 0⟩ ⟨0, 0⟩ ⟨0, 1⟩ ⟨1, 1⟩ := by
    apply Coordinate.Splits.byColumn <;> constructor <;> decide
  have hWhole : (Formula.range "a1" "B2").Encloses ⟨0, 0⟩ ⟨1, 1⟩ := ⟨_, _, rfl, by cbv, by cbv⟩
  have hFirst : (Formula.range "A2" "A1").Encloses ⟨1, 0⟩ ⟨0, 0⟩ := ⟨_, _, rfl, by cbv, by cbv⟩
  have hSecond : (Formula.range "B1" "b02").Encloses ⟨0, 1⟩ ⟨1, 1⟩ := ⟨_, _, rfl, by cbv, by cbv⟩
  have hTwo : Shows columnSheet ⟨0, 0⟩ (.int 2) := ⟨some { value := .int 2 }, ⟨[], by cbv⟩, rfl⟩
  have hSix : Shows columnSheet ⟨0, 1⟩ (.int 6) :=
    ⟨some { value := .int 6, formula := some "=A1*3" }, ⟨[], by cbv⟩, rfl⟩
  have hNothing : Shows columnSheet ⟨1, 0⟩ .null := ⟨some {}, ⟨[], by cbv⟩, rfl⟩
  have hLess : Shows columnSheet ⟨1, 1⟩ (.int (-1)) :=
    ⟨some { value := .int (-1) }, ⟨[], by cbv⟩, rfl⟩
  have hMembers : ∀ z ∈ Coordinate.rectangle ⟨0, 0⟩ ⟨1, 1⟩,
      ∃ v, Shows columnSheet z v ∧ v.IsWhole := by
    have hList : Coordinate.rectangle ⟨0, 0⟩ ⟨1, 1⟩ = [⟨0, 0⟩, ⟨0, 1⟩, ⟨1, 0⟩, ⟨1, 1⟩] := by decide
    simp only [hList, List.forall_mem_cons, List.not_mem_nil, false_implies, implies_true,
      and_true]
    exact ⟨⟨_, hTwo, .int 2⟩, ⟨_, hSix, .int 6⟩, ⟨_, hNothing, .null⟩, ⟨_, hLess, .int (-1)⟩⟩
  obtain ⟨hCombines, hBounds⟩ := aggregates_of_parts rfl hFunctions hWhole hFirst hSecond hSplits
    hMembers [.cell ⟨0, 1⟩]
  refine ⟨rfl, hFunctions, hSplits, hCombines, hBounds ?_ ?_⟩
  · exact ⟨⟨0, 0⟩, by decide, 2, hTwo⟩
  · exact ⟨⟨0, 1⟩, by decide, 6, hSix⟩

end Resolver
end Spreadsheet
