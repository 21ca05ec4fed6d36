import Spreadsheet.Function.Builtin

/-!
# The numbers among the arguments

Functions of numbers see their arguments with the lists among them opened and the empty values left
out. They take the numbers that are left if all of it is numbers, and fail otherwise.
-/

set_option autoImplicit false

namespace Spreadsheet

namespace Value

theorem number?_eq_some_iff {v : Value} {n : Number} : v.number? = some n ↔ v = ofNumber n := by
  cases v <;> cases n <;> simp [number?, ofNumber]

theorem ofNumber_inj {n k : Number} : ofNumber n = ofNumber k ↔ n = k := by
  cases n <;> cases k <;> simp [ofNumber]

end Value

namespace Builtin

/-- The arguments with the lists among them opened and the empty values left out. -/
def present (arguments : List Value) : List Value := (flatten arguments).filter (!isNull ·)

/-- The arguments hold these numbers, some of them in lists, and nothing else but empty values. -/
def Holds (arguments : List Value) (ns : List Number) : Prop :=
  present arguments = ns.map Value.ofNumber

variable {arguments others : List Value} {ns ms : List Number} {name : String}

theorem flatten_append (arguments others : List Value) :
    flatten (arguments ++ others) = flatten arguments ++ flatten others :=
  List.flatMap_append

theorem present_append (arguments others : List Value) :
    present (arguments ++ others) = present arguments ++ present others := by
  rw [present, flatten_append, List.filter_append]
  rfl

theorem asNumbers_eq_ok_iff {vs : List Value} :
    asNumbers name vs = .ok ns ↔ vs = ns.map Value.ofNumber := by
  induction vs generalizing ns with
  | nil => cases ns <;> simp [asNumbers]
  | cons v vs ih =>
    rw [asNumbers]
    cases hNumber : v.number? with
    | none =>
      have hOther : v :: vs ≠ ns.map Value.ofNumber := by
        intro h
        obtain ⟨n, ns', rfl, hn, -⟩ := List.map_eq_cons_iff.mp h.symm
        rw [Value.number?_eq_some_iff.mpr hn.symm] at hNumber
        cases hNumber
      simp only [hOther, iff_false]
      split <;> exact nofun
    | some n =>
      obtain rfl := Value.number?_eq_some_iff.mp hNumber
      cases ns with
      | nil => cases asNumbers name vs <;> simp
      | cons k ks =>
        rw [List.map_cons, List.cons.injEq, Value.ofNumber_inj, ← ih]
        cases asNumbers name vs <;> simp

theorem numbers_eq_ok_iff : numbers name arguments = .ok ns ↔ Holds arguments ns :=
  asNumbers_eq_ok_iff

theorem holds_ofNumber (n : Number) : Holds [.ofNumber n] [n] := by cases n <;> rfl

theorem Holds.append (h : Holds arguments ns) (h' : Holds others ms) :
    Holds (arguments ++ others) (ns ++ ms) := by
  rw [Holds, present_append, h, h', List.map_append]

theorem Holds.of_append (h : Holds (arguments ++ others) ns) : ∃ ms, Holds arguments ms := by
  rw [Holds, present_append] at h
  obtain ⟨ms, _, -, hFirst, -⟩ := List.map_eq_append_iff.mp h.symm
  exact ⟨ms, hFirst.symm⟩

theorem exists_error_of_not_holds (name : String) (h : ∀ ns, ¬ Holds arguments ns) :
    ∃ fault, numbers name arguments = .error fault := by
  cases hNumbers : numbers name arguments with
  | ok ns => exact absurd (numbers_eq_ok_iff.mp hNumbers) (h ns)
  | error fault => exact ⟨fault, rfl⟩

end Builtin
end Spreadsheet
