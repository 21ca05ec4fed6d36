import Spreadsheet.Proofs.Evaluation.Follows

/-!
# What a value rests on

A formula has a value only when every one of its nodes finds what it needs: addresses that are read,
ranges within the limit, functions that exist, and cells without an error. Nothing that a formula
mentions is skipped.
-/

set_option autoImplicit false

namespace Spreadsheet

namespace Evaluation

variable {α β : Type}

theorem exists_of_outcome_bind {x : Evaluation Unit α} {k : α → Evaluation Unit β} {b : β}
    (h : (x >>= k).outcome () = .ok b) :
    ∃ a, x.outcome () = .ok a ∧ (k a).outcome () = .ok b := by
  cases hx : x () with
  | ok a u =>
    rw [outcome, bind_of_ok hx] at h
    exact ⟨a, outcome_of_ok hx, h⟩
  | error e u =>
    rw [outcome_of_error (bind_of_error hx)] at h
    cases h

end Evaluation

open Evaluation

def errorOf (cell : Option Cell) : Option String := cell.bind (·.error)

namespace Formula

/-- The cell at a coordinate settles without an error. -/
def Offers (env : Surroundings Unit) (c : Coordinate) : Prop :=
  ∃ cell, (env.settle c).outcome () = .ok cell ∧ errorOf cell = none

/-- A node finds what it needs. -/
def IsSupported (env : Surroundings Unit) : Formula → Prop
  | cell address => ∃ c, Coordinate.ofAddress address = .ok c ∧ Offers env c
  | range first last => ∃ a b, corners first last = .ok (a, b) ∧
      exceeds env.rangeLimit a b = false ∧ ∀ c ∈ Coordinate.rectangle a b, Offers env c
  | call function _ => ∃ f, env.functions.byName? function = some f
  | _ => True

variable {env : Surroundings Unit}

theorem errorOf_eq_none_of_valueOf {address : String} {cell : Option Cell} {v : Value}
    (h : (valueOf address cell : Evaluation Unit Value).outcome () = .ok v) :
    errorOf cell = none := by
  cases cell with
  | none => rfl
  | some x =>
    unfold valueOf at h
    cases hError : x.error with
    | none => simp [errorOf, hError]
    | some cause =>
      simp only [hError] at h
      cases h

theorem offers_of_members {cs : List Coordinate} {vs : List Value}
    (h : (members env cs).outcome () = .ok vs) : ∀ c ∈ cs, Offers env c := by
  induction cs generalizing vs with
  | nil => simp
  | cons c cs ih =>
    rw [members] at h
    obtain ⟨cell, hCell, h⟩ := exists_of_outcome_bind h
    obtain ⟨v, hValue, h⟩ := exists_of_outcome_bind h
    obtain ⟨us, hRest, -⟩ := exists_of_outcome_bind h
    intro d hd
    rcases List.mem_cons.mp hd with rfl | hd
    · exact ⟨cell, hCell, errorOf_eq_none_of_valueOf hValue⟩
    · exact ih hRest d hd

mutual

/-- Every node of a formula that has a value finds what it needs. -/
theorem isSupported_of_evaluate (f : Formula) {v : Value}
    (h : (f.evaluate env).outcome () = .ok v) : ∀ g ∈ f.nodes, g.IsSupported env := by
  cases f with
  | text quoted => simp [nodes, IsSupported]
  | number digits => simp [nodes, IsSupported]
  | cell address =>
    rw [evaluate] at h
    obtain ⟨c, hAddress, h⟩ := exists_of_outcome_bind h
    obtain ⟨cell, hCell, hValue⟩ := exists_of_outcome_bind h
    rw [outcome_lift] at hAddress
    simp only [nodes, List.mem_singleton, forall_eq]
    exact ⟨c, hAddress, cell, hCell, errorOf_eq_none_of_valueOf hValue⟩
  | range first last =>
    rw [evaluate] at h
    obtain ⟨⟨a, b⟩, hCorners, h⟩ := exists_of_outcome_bind h
    rw [outcome_lift] at hCorners
    simp only [nodes, List.mem_singleton, forall_eq]
    cases hLimit : exceeds env.rangeLimit a b with
    | true =>
      simp only [hLimit, if_true] at h
      split at h <;> cases h
    | false =>
      simp only [hLimit, Bool.false_eq_true, if_false] at h
      obtain ⟨vs, hMembers, -⟩ := exists_of_outcome_bind h
      exact ⟨a, b, hCorners, hLimit, offers_of_members hMembers⟩
  | negative f =>
    rw [evaluate] at h
    obtain ⟨v, hValue, -⟩ := exists_of_outcome_bind h
    rw [nodes, List.forall_mem_cons]
    exact ⟨trivial, isSupported_of_evaluate f hValue⟩
  | call function arguments =>
    rw [evaluate] at h
    rw [nodes, List.forall_mem_cons]
    cases hFunction : env.functions.byName? function with
    | none =>
      rw [hFunction] at h
      cases h
    | some g =>
      simp only [hFunction] at h
      obtain ⟨vs, hArguments, -⟩ := exists_of_outcome_bind h
      exact ⟨⟨g, hFunction⟩, isSupported_of_evaluateAll arguments hArguments⟩
  | binary operation left right =>
    rw [evaluate] at h
    obtain ⟨v, hLeft, h⟩ := exists_of_outcome_bind h
    obtain ⟨a, -, h⟩ := exists_of_outcome_bind h
    obtain ⟨w, hRight, -⟩ := exists_of_outcome_bind h
    rw [nodes, List.forall_mem_cons, List.forall_mem_append]
    exact ⟨trivial, isSupported_of_evaluate left hLeft, isSupported_of_evaluate right hRight⟩

theorem isSupported_of_evaluateAll (fs : List Formula) {vs : List Value}
    (h : (evaluateAll env fs).outcome () = .ok vs) : ∀ g ∈ nodesOfAll fs, g.IsSupported env := by
  cases fs with
  | nil => simp [nodesOfAll]
  | cons f fs =>
    rw [evaluateAll] at h
    obtain ⟨v, hFirst, h⟩ := exists_of_outcome_bind h
    obtain ⟨us, hRest, -⟩ := exists_of_outcome_bind h
    rw [nodesOfAll, List.forall_mem_append]
    exact ⟨isSupported_of_evaluate f hFirst, isSupported_of_evaluateAll fs hRest⟩

end

/-- A formula that has a value asks only for cells without an error. -/
theorem Asks.offers {f : Formula} {c : Coordinate}
    (h : ∀ g ∈ f.nodes, g.IsSupported env) (hAsks : f.Asks env.rangeLimit c) : Offers env c := by
  obtain ⟨g, hg, hNames⟩ := hAsks
  have hNode := h g hg
  cases g with
  | cell address =>
    obtain ⟨d, hAddress, hOffers⟩ := hNode
    have hSame : Coordinate.ofAddress address = .ok c := hNames
    rw [hAddress] at hSame
    cases hSame
    exact hOffers
  | range first last =>
    obtain ⟨a, b, hCorners, -, hMembers⟩ := hNode
    obtain ⟨a', b', hCorners', -, hMember⟩ := hNames
    rw [hCorners] at hCorners'
    cases hCorners'
    exact hMembers c hMember
  | _ => exact hNames.elim

theorem exists_coordinate_of_mem_addresses {f : Formula} {a : String}
    (h : ∀ g ∈ f.nodes, g.IsSupported env) (ha : a ∈ f.addresses) :
    ∃ c, Coordinate.ofAddress a = .ok c := by
  obtain ⟨g, hg, hOwn⟩ := List.mem_flatMap.mp ha
  have hNode := h g hg
  cases g with
  | cell address =>
    obtain ⟨c, hAddress, -⟩ := hNode
    obtain rfl : a = address := by simpa [ownAddresses] using hOwn
    exact ⟨c, hAddress⟩
  | range first last =>
    obtain ⟨b, c, hCorners, -⟩ := hNode
    obtain ⟨hFirst, hLast⟩ := corners_eq_ok.mp hCorners
    have hEither : a = first ∨ a = last := by simpa [ownAddresses] using hOwn
    rcases hEither with rfl | rfl
    · exact ⟨b, hFirst⟩
    · exact ⟨c, hLast⟩
  | _ => cases hOwn

end Formula
end Spreadsheet
