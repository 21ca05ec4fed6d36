import Spreadsheet.Proofs.Function.Aggregate
import Spreadsheet.Proofs.Function.Arguments
import Spreadsheet.Proofs.Number.Quotient

/-!
# Aggregates of one argument list

SUM, AVERAGE, MIN and MAX see the same values of an argument list and refuse it together. Where they
see whole numbers only, COUNT is how many these are, AVERAGE is their sum divided by that, and their
sum lies between COUNT times the least and COUNT times the greatest of them. COUNT is never refused.
-/

set_option autoImplicit false

namespace Spreadsheet

/-- Nothing, a whole number, a text or a truth value. -/
inductive Value.IsEntry : Value → Prop
  | null : IsEntry .null
  | int (n : Int) : IsEntry (.int n)
  | text (s : String) : IsEntry (.text s)
  | bool (b : Bool) : IsEntry (.bool b)

namespace Builtin

open Value

variable {α β : Type} {arguments others : List Value} {name : String} {ns : List Int}

/-! ## What the aggregates see -/

/-- The aggregates do the same with two argument lists. -/
structure AreAlike (arguments others : List Value) : Prop where
  sum : Builtin.sum others = Builtin.sum arguments
  average : Builtin.average others = Builtin.average arguments
  min : Builtin.min others = Builtin.min arguments
  max : Builtin.max others = Builtin.max arguments
  count : Builtin.count others = Builtin.count arguments

theorem numbers_congr (h : present others = present arguments) (name : String) :
    numbers name others = numbers name arguments :=
  congrArg (asNumbers name) h

theorem count_eq_present (arguments : List Value) :
    count arguments = .ok (.int ((present arguments).filter (·.number?.isSome)).length) := by
  -- An empty value is no number, so COUNT need not leave it out.
  have hFilter : (flatten arguments).filter (fun v => v.number?.isSome && !isNull v) =
      (flatten arguments).filter (·.number?.isSome) := by
    refine List.filter_congr fun v _ => ?_
    cases v <;> rfl
  rw [present, List.filter_filter, hFilter]
  rfl

theorem areAlike_of_present (h : present others = present arguments) :
    AreAlike arguments others := by
  constructor
  · unfold sum
    rw [numbers_congr h]
  · unfold average
    rw [numbers_congr h]
  · unfold min
    rw [numbers_congr h]
  · unfold max
    rw [numbers_congr h]
  · rw [count_eq_present, count_eq_present, h]

theorem flatten_of_entries {vs : List Value} (h : ∀ v ∈ vs, v.IsEntry) : flatten vs = vs := by
  induction vs with
  | nil => rfl
  | cons v vs ih =>
    obtain ⟨hFirst, hRest⟩ := List.forall_mem_cons.mp h
    have hFlat : flatten (v :: vs) = flatten [v] ++ flatten vs := flatten_append [v] vs
    rw [hFlat, ih hRest]
    cases hFirst <;> rfl

theorem present_list {vs : List Value} (h : ∀ v ∈ vs, v.IsEntry) :
    present [.list vs] = present vs := by
  rw [present, present, flatten_of_entries h, flatten, List.flatMap_singleton]

/-! ## Refusals -/

/-- A function reports that it failed, under its name. -/
def Refuses (name : String) (outcome : Except FunctionFault α) : Prop :=
  ∃ message, outcome = .error (.formula (.functionFailed name message))

theorem Refuses.bind {outcome : Except FunctionFault α} (h : Refuses name outcome)
    (f : α → Except FunctionFault β) : Refuses name (outcome >>= f) := by
  obtain ⟨message, rfl⟩ := h
  exact ⟨message, rfl⟩

theorem not_refuses_ok (a : α) : ¬ Refuses name (.ok a : Except FunctionFault α) := nofun

theorem not_refuses_numeric (outcome : Except NumericFault α) (f : α → β) :
    ¬ Refuses name ((numeric outcome).map f) := by
  cases outcome <;> exact nofun

theorem asNumbers_refuses (name : String) {vs : List Value} (hEntries : ∀ v ∈ vs, v.IsEntry)
    (h : ∃ v ∈ vs, v.number? = none) : Refuses name (asNumbers name vs) := by
  induction vs with
  | nil => simp at h
  | cons v vs ih =>
    obtain ⟨hFirst, hRest⟩ := List.forall_mem_cons.mp hEntries
    rw [asNumbers]
    cases hNumber : v.number? with
    | none =>
      have hWritable : v.isWritable = true := by
        cases hFirst with
        | int n => cases hNumber
        | _ => rfl
      dsimp only
      rw [if_pos hWritable]
      exact ⟨_, rfl⟩
    | some n =>
      obtain ⟨u, hu, hOther⟩ := h
      have hLater : u ∈ vs := by
        rcases List.mem_cons.mp hu with rfl | hLater
        · rw [hNumber] at hOther
          cases hOther
        · exact hLater
      obtain ⟨message, hMessage⟩ := ih hRest ⟨u, hLater, hOther⟩
      rw [hMessage]
      exact ⟨message, rfl⟩

theorem isEntry_of_present (h : ∀ v ∈ flatten arguments, v.IsEntry) :
    ∀ v ∈ present arguments, v.IsEntry :=
  fun v hv => h v (List.mem_filter.mp hv).1

theorem numbers_refuses (name : String) (hEntries : ∀ v ∈ flatten arguments, v.IsEntry)
    (h : ∃ v ∈ present arguments, ∀ n, v ≠ .int n) : Refuses name (numbers name arguments) := by
  refine asNumbers_refuses name (isEntry_of_present hEntries) ?_
  obtain ⟨v, hv, hOther⟩ := h
  refine ⟨v, hv, ?_⟩
  cases isEntry_of_present hEntries v hv with
  | int n => exact absurd rfl (hOther n)
  | _ => rfl

/-! ## Whole numbers -/

theorem isWhole_of_present (h : ∀ v ∈ present arguments, ∃ n, v = .int n) :
    ∀ v ∈ flatten arguments, v.IsWhole := by
  intro v hv
  cases hNull : isNull v with
  | true =>
    cases v <;> cases hNull
    exact .null
  | false =>
    obtain ⟨n, rfl⟩ := h v (List.mem_filter.mpr ⟨hv, by rw [hNull]; rfl⟩)
    exact .int n

theorem present_of_whole (h : ∀ v ∈ flatten arguments, v.IsWhole) :
    present arguments = (wholes (flatten arguments)).map .int := by
  have hHolds : Holds arguments _ := numbers_eq_ok_iff.mp (numbers_of_whole "" h)
  rw [Holds, List.map_map] at hHolds
  exact hHolds

theorem wholes_present (arguments : List Value) :
    wholes (present arguments) = wholes (flatten arguments) :=
  wholes_filter _

section Whole

variable (h : ∀ v ∈ flatten arguments, v.IsWhole) (hNumbers : wholes (flatten arguments) = ns)

include h hNumbers

theorem average_of_whole (hSome : ns ≠ []) :
    average arguments =
      (numeric ((Number.int ns.sum).div (.int ns.length))).map Value.ofNumber := by
  have hSum := sum_ints 0 ns
  rw [Int.zero_add] at hSum
  have hListed : ¬ (ns.map Number.int).isEmpty = true := by
    rw [List.isEmpty_map, List.isEmpty_iff]
    exact hSome
  unfold average
  rw [numbers_of_whole "AVERAGE" h, hNumbers]
  change (if (ns.map Number.int).isEmpty = true then _ else _) = _
  rw [if_neg hListed, Number.sum, hSum, List.length_map]
  change (do return Value.ofNumber (← numeric ((Number.int ns.sum).div (.int ns.length)))) = _
  cases (Number.int ns.sum).div (.int ns.length) <;> rfl

theorem refuse_of_none (hNone : ns = []) : Refuses "AVERAGE" (average arguments) ∧
    Refuses "MIN" (min arguments) ∧ Refuses "MAX" (max arguments) := by
  subst hNone
  unfold average min max
  rw [numbers_of_whole "AVERAGE" h, numbers_of_whole "MIN" h, numbers_of_whole "MAX" h, hNumbers]
  exact ⟨⟨_, rfl⟩, ⟨_, rfl⟩, ⟨_, rfl⟩⟩

theorem bounds_of_whole (hSome : ns ≠ []) :
    ∃ least greatest, min arguments = .ok (.int least) ∧ max arguments = .ok (.int greatest) ∧
      least ∈ ns ∧ greatest ∈ ns ∧ (∀ n ∈ ns, least ≤ n ∧ n ≤ greatest) ∧
      least * ns.length ≤ ns.sum ∧ ns.sum ≤ greatest * ns.length := by
  obtain ⟨least, hLeast⟩ := Option.isSome_iff_exists.mp (List.isSome_min?_iff.mpr hSome)
  obtain ⟨greatest, hGreatest⟩ := Option.isSome_iff_exists.mp (List.isSome_max?_iff.mpr hSome)
  obtain ⟨hLeastMem, hBelow⟩ := List.min?_eq_some_iff.mp hLeast
  obtain ⟨hGreatestMem, hAbove⟩ := List.max?_eq_some_iff.mp hGreatest
  refine ⟨least, greatest, min_of_whole h (by rw [hNumbers, hLeast]),
    max_of_whole h (by rw [hNumbers, hGreatest]), hLeastMem, hGreatestMem,
    fun n hn => ⟨hBelow n hn, hAbove n hn⟩, ?_, ?_⟩
  · have hSum := List.card_nsmul_le_sum ns least hBelow
    rwa [nsmul_eq_mul, mul_comm] at hSum
  · have hSum := List.sum_le_card_nsmul ns greatest hAbove
    rwa [nsmul_eq_mul, mul_comm] at hSum

end Whole

/-- SUM, COUNT, AVERAGE, MIN and MAX of arguments among which there are these whole numbers. -/
structure AgreeOn (arguments : List Value) (ns : List Int) : Prop where
  sum : Builtin.sum arguments = .ok (.int ns.sum)
  count : Builtin.count arguments = .ok (.int ns.length)
  average_refuses : Refuses "AVERAGE" (Builtin.average arguments) ↔ ns.length = 0
  min_refuses : Refuses "MIN" (Builtin.min arguments) ↔ ns.length = 0
  max_refuses : Refuses "MAX" (Builtin.max arguments) ↔ ns.length = 0
  average : ns.length ≠ 0 → Builtin.average arguments =
    (numeric ((Number.int ns.sum).div (.int ns.length))).map Value.ofNumber
  average_overflow : ns.length ≠ 0 →
    (Builtin.average arguments = .error (.numeric .quotientBeyondFloat) ↔
      Binary64.overflow ≤ |(ns.sum / ns.length : ℚ)|)
  bounds : ns.length ≠ 0 →
    ∃ least greatest, Builtin.min arguments = .ok (.int least) ∧
      Builtin.max arguments = .ok (.int greatest) ∧ least ∈ ns ∧ greatest ∈ ns ∧
      (∀ n ∈ ns, least ≤ n ∧ n ≤ greatest) ∧
      least * ns.length ≤ ns.sum ∧ ns.sum ≤ greatest * ns.length

theorem agreeOn_of_whole (h : ∀ v ∈ flatten arguments, v.IsWhole)
    (hNumbers : wholes (flatten arguments) = ns) : AgreeOn arguments ns := by
  have hAverage := average_of_whole h hNumbers
  have hBounds := bounds_of_whole h hNumbers
  have hNone := refuse_of_none h hNumbers
  simp only [ne_eq, ← List.length_eq_zero_iff] at hAverage hBounds hNone
  constructor
  · rw [sum_of_whole h, hNumbers]
  · rw [count_of_whole h, hNumbers]
  · refine ⟨not_imp_not.mp fun hSome => ?_, fun hEmpty => (hNone hEmpty).1⟩
    rw [hAverage hSome]
    exact not_refuses_numeric _ _
  · refine ⟨not_imp_not.mp fun hSome => ?_, fun hEmpty => (hNone hEmpty).2.1⟩
    obtain ⟨least, -, hMin, -⟩ := hBounds hSome
    rw [hMin]
    exact not_refuses_ok _
  · refine ⟨not_imp_not.mp fun hSome => ?_, fun hEmpty => (hNone hEmpty).2.2⟩
    obtain ⟨-, greatest, -, hMax, -⟩ := hBounds hSome
    rw [hMax]
    exact not_refuses_ok _
  · exact hAverage
  · intro hSome
    have hCount : (ns.length : Int) ≠ 0 := by exact_mod_cast hSome
    have hQuotient := Number.div_ints_eq_error_iff ns.sum hCount
    rw [Int.cast_natCast] at hQuotient
    rw [hAverage hSome, ← hQuotient]
    cases (Number.int ns.sum).div (.int ns.length) <;> simp [numeric, Except.map]
  · exact hBounds

/-- The aggregates depend on the values that are present only, in their order: not on how these are
grouped into lists, nor on empty values between them. SUM refuses an argument list just when one of
these is no whole number, and then AVERAGE, MIN and MAX do so too. COUNT is how many whole numbers
there are in any case. If SUM does not refuse, the five agree on the whole numbers that are present. -/
theorem aggregates_agree (h : ∀ v ∈ flatten arguments, v.IsEntry) :
    (∀ others, present others = present arguments → AreAlike arguments others) ∧
      (∀ before vs after, (∀ v ∈ vs, v.IsEntry) →
        AreAlike (before ++ vs ++ after) (before ++ [.list vs] ++ after) ∧
          AreAlike (before ++ after) (before ++ [.null] ++ after)) ∧
      (Refuses "SUM" (sum arguments) ↔ ∃ v ∈ present arguments, ∀ n, v ≠ .int n) ∧
      (Refuses "SUM" (sum arguments) → Refuses "AVERAGE" (average arguments) ∧
        Refuses "MIN" (min arguments) ∧ Refuses "MAX" (max arguments)) ∧
      count arguments = .ok (.int (wholes (present arguments)).length) ∧
      (¬ Refuses "SUM" (sum arguments) →
        ∃ ns, present arguments = ns.map .int ∧ AgreeOn arguments ns) := by
  have hWhole (hNone : ¬ ∃ v ∈ present arguments, ∀ n, v ≠ .int n) :
      ∀ v ∈ flatten arguments, v.IsWhole := by
    push Not at hNone
    exact isWhole_of_present hNone
  have hSum : Refuses "SUM" (sum arguments) ↔ ∃ v ∈ present arguments, ∀ n, v ≠ .int n := by
    refine ⟨fun hRefuses => ?_, fun hOther => (numbers_refuses "SUM" h hOther).bind _⟩
    by_contra hNone
    rw [sum_of_whole (hWhole hNone)] at hRefuses
    exact not_refuses_ok _ hRefuses
  have hNoFloat : ∀ x, .float x ∉ flatten arguments := fun _ hx => nomatch h _ hx
  refine ⟨fun others => areAlike_of_present, fun before vs after hEntries => ⟨?_, ?_⟩, hSum,
    fun hRefuses => ?_, ?_, fun hRuns => ?_⟩
  · apply areAlike_of_present
    simp only [present_append, present_list hEntries]
  · apply areAlike_of_present
    simp only [present_append]
    exact congrArg (· ++ present after) (List.append_nil _)
  · have hOther := hSum.mp hRefuses
    exact ⟨(numbers_refuses "AVERAGE" h hOther).bind _, (numbers_refuses "MIN" h hOther).bind _,
      (numbers_refuses "MAX" h hOther).bind _⟩
  · rw [wholes_present]
    exact count_of_no_float hNoFloat
  · have hNumbers := hWhole (mt hSum.mpr hRuns)
    exact ⟨_, present_of_whole hNumbers, agreeOn_of_whole hNumbers rfl⟩

/-- Numbers with empty values among them and after them, some of them in a list. -/
def patchyArguments : List Value := [.list [.int 7, .null, .int (-2)], .int 4, .null]

theorem aggregates_agree_on_patchyArguments :
    (∀ v ∈ flatten patchyArguments, v.IsEntry) ∧ sum patchyArguments = .ok (.int 9) ∧
      count patchyArguments = .ok (.int 3) ∧ min patchyArguments = .ok (.int (-2)) ∧
      max patchyArguments = .ok (.int 7) ∧
      average patchyArguments = (numeric ((Number.int 9).div (.int 3))).map Value.ofNumber := by
  have hFlat : flatten patchyArguments = [.int 7, .null, .int (-2), .int 4, .null] := rfl
  have hEntries : ∀ v ∈ flatten patchyArguments, v.IsEntry := by
    simp only [hFlat, List.forall_mem_cons]
    exact ⟨.int 7, .null, .int (-2), .int 4, .null, List.forall_mem_nil _⟩
  have hPresent : present patchyArguments = [7, -2, 4].map Value.int := rfl
  obtain ⟨-, -, hSum, -, -, hAgree⟩ := aggregates_agree hEntries
  have hRuns : ¬ Refuses "SUM" (sum patchyArguments) := by
    rw [hSum, hPresent]
    simp
  obtain ⟨ns, hNumbers, hAgree⟩ := hAgree hRuns
  obtain rfl : ns = [7, -2, 4] :=
    List.map_injective_iff.mpr (fun _ _ => Value.int.inj) (hNumbers.symm.trans hPresent)
  obtain ⟨least, greatest, hMin, hMax, hLeast, hGreatest, hBetween, -, -⟩ :=
    hAgree.bounds (by decide)
  have hSeven := hBetween 7 (by decide)
  have hLess := hBetween (-2) (by decide)
  simp only [List.mem_cons, List.not_mem_nil, or_false] at hLeast hGreatest
  obtain rfl : least = -2 := by omega
  obtain rfl : greatest = 7 := by omega
  exact ⟨hEntries, hAgree.sum, hAgree.count, hMin, hMax, hAgree.average (by decide)⟩

end Builtin
end Spreadsheet
