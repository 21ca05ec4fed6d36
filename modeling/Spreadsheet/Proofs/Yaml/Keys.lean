import Mathlib.Data.List.Basic
import Spreadsheet.Yaml.Document

/-!
# The keys of a document

However the mappings of a document are written and merged, no two keys of a mapping that is read
from it are the same.
-/

set_option autoImplicit false

namespace Spreadsheet

/-- No two keys are the same. -/
def Key.AreDistinct (ks : List Key) : Prop := ks.Pairwise fun a b => a.same b = false

/-- In every mapping inside the value the keys are distinct. -/
inductive Value.HasDistinctKeys : Value → Prop
  | scalar {v : Value} (hList : ∀ vs, v ≠ .list vs) (hDict : ∀ es, v ≠ .dict es) : HasDistinctKeys v
  | list {vs : List Value} (h : ∀ v ∈ vs, HasDistinctKeys v) : HasDistinctKeys (.list vs)
  | dict {es : List (Key × Value)} (hKeys : Key.AreDistinct (es.map (·.1)))
      (h : ∀ e ∈ es, HasDistinctKeys e.2) : HasDistinctKeys (.dict es)

theorem Value.HasDistinctKeys.of_mem {es : List (Key × Value)} {e : Key × Value}
    (h : HasDistinctKeys (.dict es)) (he : e ∈ es) : e.2.HasDistinctKeys := by
  cases h with
  | scalar _ hDict => exact absurd rfl (hDict es)
  | dict _ h => exact h e he

theorem Value.HasDistinctKeys.keys {es : List (Key × Value)} (h : HasDistinctKeys (.dict es)) :
    Key.AreDistinct (es.map (·.1)) := by
  cases h with
  | scalar _ hDict => exact absurd rfl (hDict es)
  | dict hKeys _ => exact hKeys

section SetEntry

variable {same : Key → Key → Bool} {k : Key} {v : Value} {es : List (Key × Value)}

/-- Setting an entry leaves the keys as they are, or adds a key at the end that none of them is. -/
theorem setEntryBy_keys (same : Key → Key → Bool) (k : Key) (v : Value) (es : List (Key × Value)) :
    (setEntryBy same k v es).map (·.1) = es.map (·.1) ∨
      (setEntryBy same k v es).map (·.1) = es.map (·.1) ++ [k] ∧
        ∀ k' ∈ es.map (·.1), same k' k = false := by
  induction es with
  | nil => exact .inr ⟨rfl, nofun⟩
  | cons e es ih =>
    obtain ⟨k', v'⟩ := e
    rw [setEntryBy]
    split_ifs with hSame
    · exact .inl rfl
    · simp only [List.map_cons, List.cons_append, List.cons.injEq, true_and, List.forall_mem_cons]
      exact ih.imp_right fun ⟨hKeys, hNew⟩ => ⟨hKeys, Bool.eq_false_iff.mpr hSame, hNew⟩

theorem of_mem_setEntryBy {e : Key × Value} (h : e ∈ setEntryBy same k v es) :
    e.2 = v ∨ e ∈ es := by
  induction es with
  | nil => exact .inl (congrArg Prod.snd (List.mem_singleton.mp h))
  | cons e' es ih =>
    obtain ⟨k', v'⟩ := e'
    rw [setEntryBy] at h
    split_ifs at h
    · rcases List.mem_cons.mp h with rfl | h
      · exact .inl rfl
      · exact .inr (List.mem_cons_of_mem _ h)
    · rcases List.mem_cons.mp h with rfl | h
      · exact .inr List.mem_cons_self
      · exact (ih h).imp_right (List.mem_cons_of_mem _)

end SetEntry

namespace Yaml

theorem areDistinct_putEntry {es : List (Key × Value)} (h : Key.AreDistinct (es.map (·.1)))
    (k : Key) (v : Value) : Key.AreDistinct ((putEntry k v es).map (·.1)) := by
  rw [putEntry]
  rcases setEntryBy_keys (fun a b => a.same b || (a.isNan && b.isNan)) k v es with
    hKeys | ⟨hKeys, hNew⟩
  · rwa [hKeys]
  · rw [hKeys, Key.AreDistinct, List.pairwise_append]
    refine ⟨h, List.pairwise_singleton _ _, fun k' hk' k'' hk'' => ?_⟩
    rw [List.mem_singleton.mp hk'']
    exact (Bool.or_eq_false_iff.mp (hNew k' hk')).1

theorem hasDistinctKeys_dictionary {entries : List (Key × Value)}
    (h : ∀ e ∈ entries, e.2.HasDistinctKeys) : (dictionary entries).HasDistinctKeys := by
  have hPut : ∀ (entries es : List (Key × Value)), (∀ e ∈ entries, e.2.HasDistinctKeys) →
      (Value.dict es).HasDistinctKeys →
      (Value.dict (entries.foldl (fun es e => putEntry e.1 e.2 es) es)).HasDistinctKeys := by
    intro entries
    induction entries with
    | nil => exact fun es _ hes => hes
    | cons e entries ih =>
      intro es h hes
      obtain ⟨he, hRest⟩ := List.forall_mem_cons.mp h
      refine ih _ hRest (.dict (areDistinct_putEntry hes.keys e.1 e.2) fun e' he' => ?_)
      rcases of_mem_setEntryBy he' with hValue | he'
      · rwa [hValue]
      · exact hes.of_mem he'
  exact hPut entries [] h (.dict .nil nofun)

namespace Found

variable {α β : Type}

theorem inside_eq_ok {a : Found α} {x : α} : inside a = .ok x ↔ a = .ok x := by
  cases a <;> simp [inside, Except.mapError]

theorem both_eq_ok {a : Found α} {b : Found β} {p : α × β} :
    both a b = .ok p ↔ a = .ok p.1 ∧ b = .ok p.2 := by
  cases a <;> cases b <;> simp [both, Prod.ext_iff]

theorem map_eq_ok {f : α → β} {a : Found α} {y : β} :
    a.map f = .ok y ↔ ∃ x, a = .ok x ∧ f x = y := by
  cases a <;> simp [Except.map]

theorem forall_mem_cons {p : α → Prop} {a : Found α} {as : Found (List α)} {xs : List α}
    (h : cons a as = .ok xs) (ha : ∀ x, a = .ok x → p x) (has : ∀ ys, as = .ok ys → ∀ x ∈ ys, p x) :
    ∀ x ∈ xs, p x := by
  obtain ⟨⟨x, ys⟩, hBoth, rfl⟩ := map_eq_ok.mp h
  obtain ⟨hx, hys⟩ := both_eq_ok.mp hBoth
  exact List.forall_mem_cons.mpr ⟨ha x hx, has ys hys⟩

theorem forall_mem_append {p : α → Prop} {as bs : Found (List α)} {xs : List α}
    (h : append as bs = .ok xs) (has : ∀ ys, as = .ok ys → ∀ x ∈ ys, p x)
    (hbs : ∀ ys, bs = .ok ys → ∀ x ∈ ys, p x) : ∀ x ∈ xs, p x := by
  obtain ⟨⟨ys, zs⟩, hBoth, rfl⟩ := map_eq_ok.mp h
  obtain ⟨hys, hzs⟩ := both_eq_ok.mp hBoth
  exact List.forall_mem_append.mpr ⟨has ys hys, hbs zs hzs⟩

end Found

theorem hasDistinctKeys_plain {text : String} {v : Value} (h : plain text = .ok (.value v)) :
    v.HasDistinctKeys := by
  simp only [plain] at h
  split_ifs at h
  on_goal 6 =>
    split at h
    on_goal 3 => split at h
  all_goals cases h <;> exact .scalar nofun nofun

theorem hasDistinctKeys_scalarValue {isPlain : Bool} {text : String} {v : Value}
    (h : scalarValue isPlain text = .ok v) : v.HasDistinctKeys := by
  rw [scalarValue] at h
  split_ifs at h
  · cases h
    exact .scalar nofun nofun
  · split at h
    · cases h
      exact hasDistinctKeys_plain (by assumption)
    · cases h
    · cases h

mutual

theorem hasDistinctKeys_valueOf : ∀ (n : Node) (v : Value), valueOf n = .ok v → v.HasDistinctKeys
  | .scalar _ _, _, h => hasDistinctKeys_scalarValue (by rwa [valueOf] at h)
  | .sequence items, v, h => by
    rw [valueOf, Found.inside_eq_ok] at h
    obtain ⟨vs, hItems, rfl⟩ := Found.map_eq_ok.mp h
    exact .list (hasDistinctKeys_valuesOf items vs hItems)
  | .mapping entries, v, h => by
    rw [valueOf] at h
    split_ifs at h
    · obtain ⟨es, hEntries, rfl⟩ := Found.map_eq_ok.mp (Found.inside_eq_ok.mp h)
      exact hasDistinctKeys_dictionary (Found.forall_mem_append hEntries
        (hasDistinctKeys_mergedOf entries) (hasDistinctKeys_entriesOf entries))
    · cases h

theorem hasDistinctKeys_valuesOf : ∀ (ns : List Node) (vs : List Value), valuesOf ns = .ok vs →
    ∀ v ∈ vs, v.HasDistinctKeys
  | [], vs, h => by
    rw [valuesOf] at h
    cases h
    exact List.forall_mem_nil _
  | n :: ns, vs, h => by
    rw [valuesOf] at h
    exact Found.forall_mem_cons h (hasDistinctKeys_valueOf n) (hasDistinctKeys_valuesOf ns)

theorem hasDistinctKeys_entriesOf : ∀ (ns : List (Node × Node)) (es : List (Key × Value)),
    entriesOf ns = .ok es → ∀ e ∈ es, e.2.HasDistinctKeys
  | [], es, h => by
    rw [entriesOf] at h
    cases h
    exact List.forall_mem_nil _
  | (k, n) :: rest, es, h => by
    rw [entriesOf] at h
    split_ifs at h
    · exact hasDistinctKeys_entriesOf rest es h
    · refine Found.forall_mem_cons h (fun e he => ?_) (hasDistinctKeys_entriesOf rest)
      exact hasDistinctKeys_valueOf n e.2 (Found.both_eq_ok.mp he).2

theorem hasDistinctKeys_mergedOf : ∀ (ns : List (Node × Node)) (es : List (Key × Value)),
    mergedOf ns = .ok es → ∀ e ∈ es, e.2.HasDistinctKeys
  | [], es, h => by
    rw [mergedOf] at h
    cases h
    exact List.forall_mem_nil _
  | (k, n) :: rest, es, h => by
    rw [mergedOf] at h
    split_ifs at h
    · exact Found.forall_mem_append h (hasDistinctKeys_takenFrom n) (hasDistinctKeys_mergedOf rest)
    · exact hasDistinctKeys_mergedOf rest es h

theorem hasDistinctKeys_takenFrom : ∀ (n : Node) (es : List (Key × Value)),
    takenFrom n = .ok es → ∀ e ∈ es, e.2.HasDistinctKeys
  | .scalar _ _, es, h => by
    rw [takenFrom] at h
    cases h
    exact List.forall_mem_nil _
  | .sequence items, es, h => by
    rw [takenFrom] at h
    exact hasDistinctKeys_takenFromAll items es h
  | .mapping entries, es, h => by
    rw [takenFrom] at h
    exact Found.forall_mem_append h (hasDistinctKeys_mergedOf entries)
      (hasDistinctKeys_entriesOf entries)

theorem hasDistinctKeys_takenFromAll : ∀ (ns : List Node) (es : List (Key × Value)),
    takenFromAll ns = .ok es → ∀ e ∈ es, e.2.HasDistinctKeys
  | [], es, h => by
    rw [takenFromAll] at h
    cases h
    exact List.forall_mem_nil _
  | n :: rest, es, h => by
    rw [takenFromAll] at h
    exact Found.forall_mem_append h (hasDistinctKeys_takenFromAll rest)
      (hasDistinctKeys_takenFrom n)

end

theorem hasDistinctKeys_read {text : List Char} {v : Value} (h : read text = .ok v) :
    v.HasDistinctKeys := by
  unfold read at h
  cases hNode : Node.ofTokens (tokenize (unifyBreaks text)) with
  | error fault =>
    rw [hNode] at h
    cases h
  | ok n? =>
    rw [hNode] at h
    cases n? with
    | none =>
      cases h
      exact .scalar nofun nofun
    | some n =>
      cases hValue : valueOf n with
      | error located =>
        simp [hValue, bind, Except.bind, Except.mapError] at h
      | ok w =>
        simp only [hValue, bind, Except.bind, Except.mapError] at h
        cases h
        exact hasDistinctKeys_valueOf n _ hValue

end Yaml
end Spreadsheet
