import Spreadsheet.Cell
import Mathlib

/-!
# Entries of a grid

A grid holds one cell at each of its coordinates, so looking a coordinate up and being an entry say
the same, and the order of the entries does not matter for it.
-/

set_option autoImplicit false

namespace Spreadsheet

theorem lookup_eq_some_iff_mem {es : List (Coordinate × Cell)} (h : (es.map (·.1)).Nodup)
    {c : Coordinate} {cell : Cell} : es.lookup c = some cell ↔ (c, cell) ∈ es := by
  induction es with
  | nil => simp
  | cons e es ih =>
    obtain ⟨d, x⟩ := e
    simp only [List.map_cons, List.nodup_cons] at h
    rw [List.lookup_cons, List.mem_cons]
    by_cases hc : c = d
    · subst hc
      have hOnly : (c, cell) ∉ es := fun hMem => h.1 (List.mem_map_of_mem hMem)
      simp [hOnly, eq_comm]
    · have hNot : (c == d) = false := by simpa using hc
      simp [hNot, hc, ih h.2]

/-- Two cells at one coordinate are the same cell. -/
theorem eq_of_mem_of_nodup {es : List (Coordinate × Cell)} (h : (es.map (·.1)).Nodup)
    {c : Coordinate} {x y : Cell} (hx : (c, x) ∈ es) (hy : (c, y) ∈ es) : x = y := by
  rw [← lookup_eq_some_iff_mem h] at hx hy
  rw [hx] at hy
  cases hy
  rfl

namespace Grid

theorem get?_eq_some_iff {g : Grid} {c : Coordinate} {cell : Cell} :
    g.get? c = some cell ↔ (c, cell) ∈ g.entries :=
  lookup_eq_some_iff_mem g.nodup

theorem mem_coordinates_iff {g : Grid} {c : Coordinate} :
    c ∈ g.coordinates ↔ ∃ cell, g.get? c = some cell := by
  simp [coordinates, get?_eq_some_iff]

theorem get?_eq_of_perm {g g' : Grid} (h : g'.entries.Perm g.entries) (c : Coordinate) :
    g'.get? c = g.get? c := by
  ext cell
  rw [get?_eq_some_iff, get?_eq_some_iff, h.mem_iff]

end Grid
end Spreadsheet
