import Mathlib.Data.List.Chain
import Spreadsheet.KeyOrder

/-!
# Keys that have an order

Keys can be put in order exactly when any two of them can. Neighbours tell that for a whole list,
because what can be put in order with one key can be put in order with each other.
-/

set_option autoImplicit false

namespace Spreadsheet.Key

variable {a b c : Key} {ks : List Key}

theorem comparable_comm (a b : Key) : a.comparable b = b.comparable a := by
  cases a <;> cases b <;> rfl

theorem comparable_trans (hab : a.comparable b = true) (hbc : b.comparable c = true) :
    a.comparable c = true := by
  cases a <;> cases b <;> cases hab <;> cases c <;> cases hbc <;> rfl

/-- Any two of the keys can be put in order. -/
def AreOrdered (ks : List Key) : Prop := ks.Pairwise fun a b => a.comparable b = true

instance : DecidablePred AreOrdered := fun ks => inferInstanceAs (Decidable (ks.Pairwise _))

theorem firstUnordered_eq_none : firstUnordered ks = none ↔ AreOrdered ks := by
  have hTrans : IsTrans Key fun a b => a.comparable b = true := ⟨fun _ _ _ => comparable_trans⟩
  rw [AreOrdered, ← List.isChain_iff_pairwise]
  fun_induction firstUnordered ks with
  | case1 a b ks h ih => simp [ih, comparable_comm a b, h]
  | case2 a b ks h => simp [comparable_comm a b, h]
  | case3 ks hShort =>
    match ks, hShort with
    | [], _ => simp
    | [a], _ => simp
    | a :: b :: ks, hShort => exact absurd rfl (hShort a b ks)

theorem of_firstUnordered (h : firstUnordered ks = some (a, b)) :
    a ∈ ks ∧ b ∈ ks ∧ a.comparable b = false := by
  fun_induction firstUnordered ks with
  | case1 c d ks _ ih =>
    obtain ⟨ha, hb, hNone⟩ := ih h
    exact ⟨List.mem_cons_of_mem c ha, List.mem_cons_of_mem c hb, hNone⟩
  | case2 c d ks hNone =>
    cases h
    exact ⟨by simp, by simp, Bool.eq_false_iff.mpr hNone⟩
  | case3 => cases h

/-- Keys with an order are sorted. -/
theorem exists_sort (h : AreOrdered ks) : ∃ sorted, sort ks = .ok sorted ∧ sorted.Perm ks := by
  rw [sort, firstUnordered_eq_none.mpr h]
  exact ⟨_, rfl, List.mergeSort_perm ks _⟩

theorem exists_sort_error (h : ¬ AreOrdered ks) :
    ∃ a ∈ ks, ∃ b ∈ ks, a.comparable b = false ∧ sort ks = .error (a, b) := by
  obtain ⟨⟨a, b⟩, hPair⟩ := Option.ne_none_iff_exists'.mp (mt firstUnordered_eq_none.mp h)
  obtain ⟨ha, hb, hNone⟩ := of_firstUnordered hPair
  refine ⟨a, ha, b, hb, hNone, ?_⟩
  rw [sort, hPair]

end Spreadsheet.Key
