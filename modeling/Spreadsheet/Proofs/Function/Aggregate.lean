import Mathlib
import Spreadsheet.Function.Builtin

/-!
# Aggregates of whole numbers

Over whole numbers and empty values, SUM, COUNT, MIN and MAX see nothing but the whole numbers: their
sum, how many they are, the least and the greatest of them. None of these depends on their order, and
each is known for a list that is put together from two lists when it is known for these.
-/

set_option autoImplicit false

namespace Spreadsheet

namespace Value

inductive IsWhole : Value → Prop
  | null : IsWhole .null
  | int (n : Int) : IsWhole (.int n)

def whole? : Value → Option Int
  | int n => some n
  | _ => none

def wholes (vs : List Value) : List Int := vs.filterMap whole?

theorem wholes_append (vs us : List Value) : wholes (vs ++ us) = wholes vs ++ wholes us :=
  List.filterMap_append

theorem wholes_perm {vs us : List Value} (h : vs.Perm us) : (wholes vs).Perm (wholes us) :=
  h.filterMap _

theorem wholes_filter (vs : List Value) :
    wholes (vs.filter (!Builtin.isNull ·)) = wholes vs := by
  induction vs with
  | nil => rfl
  | cons v vs ih =>
    cases v with
    | null => exact ih
    | int n => exact congrArg (n :: ·) ih
    | _ => exact ih

theorem mem_wholes {vs : List Value} {n : Int} : n ∈ wholes vs ↔ .int n ∈ vs := by
  rw [wholes, List.mem_filterMap]
  constructor
  · rintro ⟨v, hv, hn⟩
    cases v <;> cases hn
    exact hv
  · intro h
    exact ⟨.int n, h, rfl⟩

end Value

namespace Builtin

open Value

variable {arguments : List Value} {m : Int}

/-! ## What the aggregates compute -/

theorem asNumbers_of_whole (name : String) {vs : List Value} (h : ∀ v ∈ vs, v.IsWhole) :
    asNumbers name (vs.filter (!isNull ·)) = .ok ((wholes vs).map .int) := by
  induction vs with
  | nil => rfl
  | cons v vs ih =>
    obtain ⟨hFirst, hRest⟩ := List.forall_mem_cons.mp h
    cases hFirst with
    | null => exact ih hRest
    | int n =>
      rw [List.filter_cons_of_pos rfl, asNumbers]
      simp only [number?, ih hRest]
      rfl

theorem numbers_of_whole (name : String) (h : ∀ v ∈ flatten arguments, v.IsWhole) :
    numbers name arguments = .ok ((wholes (flatten arguments)).map .int) :=
  asNumbers_of_whole name h

theorem sum_ints (k : Int) (ns : List Int) :
    (ns.map Number.int).foldlM Number.add (.int k) = .ok (.int (k + ns.sum)) := by
  induction ns generalizing k with
  | nil => simp [pure, Except.pure]
  | cons n ns ih =>
    rw [List.map_cons, List.foldlM_cons]
    change (ns.map Number.int).foldlM Number.add (.int (k + n)) = _
    rw [ih, List.sum_cons, Int.add_assoc]

theorem sum_of_whole (h : ∀ v ∈ flatten arguments, v.IsWhole) :
    sum arguments = .ok (.int (wholes (flatten arguments)).sum) := by
  have hSum := sum_ints 0 (wholes (flatten arguments))
  rw [Int.zero_add] at hSum
  unfold sum
  rw [numbers_of_whole "SUM" h]
  change (do return Value.ofNumber (← numeric (Number.sum _))) = _
  rw [Number.sum, hSum]
  rfl

theorem length_numbers {vs : List Value} (h : ∀ x, .float x ∉ vs) :
    (vs.filter (·.number?.isSome)).length = (wholes vs).length := by
  induction vs with
  | nil => rfl
  | cons v vs ih =>
    have hRest := ih fun x hx => h x (List.mem_cons_of_mem v hx)
    cases v with
    | int n => exact congrArg (· + 1) hRest
    | float x => exact absurd List.mem_cons_self (h x)
    | _ => exact hRest

theorem count_of_no_float (h : ∀ x, .float x ∉ flatten arguments) :
    count arguments = .ok (.int (wholes (flatten arguments)).length) := by
  rw [count, length_numbers h]

theorem count_of_whole (h : ∀ v ∈ flatten arguments, v.IsWhole) :
    count arguments = .ok (.int (wholes (flatten arguments)).length) :=
  count_of_no_float fun _ hx => nomatch h _ hx

theorem best_ints {beats : Number → Number → Bool} {better : Int → Int → Int}
    (h : ∀ n k, (if beats (.int k) (.int n) then Number.int k else .int n) = .int (better n k))
    (n : Int) (ns : List Int) :
    best beats (.int n) (ns.map .int) = .int (ns.foldl better n) := by
  induction ns generalizing n with
  | nil => rfl
  | cons k ns ih =>
    rw [List.foldl_cons, ← ih, List.map_cons, best, List.foldl_cons, h]
    rfl

theorem best_lt (n k : Int) :
    (if (Number.int k).lt (.int n) then Number.int k else .int n) = .int (Min.min n k) := by
  rw [min_comm, min_def_lt]
  by_cases h : k < n
  · simp [Number.lt, h]
  · simp [Number.lt, h]

theorem best_gt (n k : Int) :
    (if (Number.int n).lt (.int k) then Number.int k else .int n) = .int (Max.max n k) := by
  rw [max_def_lt]
  by_cases h : n < k
  · simp [Number.lt, h]
  · simp [Number.lt, h]

theorem min_of_whole (h : ∀ v ∈ flatten arguments, v.IsWhole)
    (hLeast : (wholes (flatten arguments)).min? = some m) : min arguments = .ok (.int m) := by
  unfold min
  rw [numbers_of_whole "MIN" h]
  cases hWholes : wholes (flatten arguments) with
  | nil => simp [hWholes] at hLeast
  | cons n ns =>
    rw [hWholes, List.min?_cons', Option.some.injEq] at hLeast
    change Except.ok (Value.ofNumber (best _ (.int n) (ns.map .int))) = _
    rw [best_ints best_lt, hLeast]
    rfl

theorem max_of_whole (h : ∀ v ∈ flatten arguments, v.IsWhole)
    (hGreatest : (wholes (flatten arguments)).max? = some m) : max arguments = .ok (.int m) := by
  unfold max
  rw [numbers_of_whole "MAX" h]
  cases hWholes : wholes (flatten arguments) with
  | nil => simp [hWholes] at hGreatest
  | cons n ns =>
    rw [hWholes, List.max?_cons', Option.some.injEq] at hGreatest
    change Except.ok (Value.ofNumber (best _ (.int n) (ns.map .int))) = _
    rw [best_ints best_gt, hGreatest]
    rfl

/-! ## Two parts of a list -/

variable {ns ns₁ ns₂ : List Int} {m₁ m₂ : Int}

theorem min?_of_parts (h : (ns₁ ++ ns₂).Perm ns) (h₁ : ns₁.min? = some m₁)
    (h₂ : ns₂.min? = some m₂) : ns.min? = some (Min.min m₁ m₂) := by
  rw [List.min?_eq_some_iff] at h₁ h₂ ⊢
  constructor
  · rw [← h.mem_iff, List.mem_append]
    rcases min_choice m₁ m₂ with hMin | hMin
    · rw [hMin]
      exact .inl h₁.1
    · rw [hMin]
      exact .inr h₂.1
  · intro k hk
    rw [← h.mem_iff, List.mem_append] at hk
    rcases hk with hk | hk
    · exact (min_le_left m₁ m₂).trans (h₁.2 k hk)
    · exact (min_le_right m₁ m₂).trans (h₂.2 k hk)

theorem max?_of_parts (h : (ns₁ ++ ns₂).Perm ns) (h₁ : ns₁.max? = some m₁)
    (h₂ : ns₂.max? = some m₂) : ns.max? = some (Max.max m₁ m₂) := by
  rw [List.max?_eq_some_iff] at h₁ h₂ ⊢
  constructor
  · rw [← h.mem_iff, List.mem_append]
    rcases max_choice m₁ m₂ with hMax | hMax
    · rw [hMax]
      exact .inl h₁.1
    · rw [hMax]
      exact .inr h₂.1
  · intro k hk
    rw [← h.mem_iff, List.mem_append] at hk
    rcases hk with hk | hk
    · exact (h₁.2 k hk).trans (le_max_left m₁ m₂)
    · exact (h₂.2 k hk).trans (le_max_right m₁ m₂)

end Builtin
end Spreadsheet
