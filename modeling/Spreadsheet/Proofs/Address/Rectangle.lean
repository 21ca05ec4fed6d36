import Spreadsheet.Proofs.Address.Readable

/-!
# Rectangles

The rectangle between two corners is listed row by row, each coordinate once, and it does not matter
which pair of opposite corners names it. A line between two rows or two columns cuts it into two
rectangles; together they have the same coordinates, in another order if the line is between columns.
-/

set_option autoImplicit false

namespace Spreadsheet.Coordinate

/-! ## The order row by row -/

/-- Strictly before in the order row by row. -/
def Precedes (a b : Coordinate) : Prop :=
  a.row < b.row ∨ a.row = b.row ∧ a.column < b.column

theorem le_iff {a b : Coordinate} :
    a.le b = true ↔ a.row < b.row ∨ a.row = b.row ∧ a.column ≤ b.column := by
  simp [le]

theorem le_trans {a b c : Coordinate} (hab : a.le b = true) (hbc : b.le c = true) :
    a.le c = true := by
  rw [le_iff] at hab hbc ⊢
  omega

theorem le_total (a b : Coordinate) : (a.le b || b.le a) = true := by
  rw [Bool.or_eq_true, le_iff, le_iff]
  omega

theorem precedes_of_le {a b : Coordinate} (h : a.le b = true) (hNe : a ≠ b) : a.Precedes b := by
  rw [le_iff] at h
  rw [Ne, Coordinate.mk.injEq] at hNe
  rw [Precedes]
  omega

theorem Precedes.le {a b : Coordinate} (h : a.Precedes b) : a.le b = true := by
  rw [Precedes] at h
  rw [le_iff]
  omega

theorem Precedes.trans {a b c : Coordinate} (hab : a.Precedes b) (hbc : b.Precedes c) :
    a.Precedes c := by
  rw [Precedes] at hab hbc ⊢
  omega

theorem precedes_or_eq (a b : Coordinate) : a.Precedes b ∨ a = b ∨ b.Precedes a := by
  rw [Precedes, Precedes, Coordinate.mk.injEq]
  omega

theorem Precedes.ne {a b : Coordinate} (h : a.Precedes b) : a ≠ b := by
  rintro rfl
  unfold Precedes at h
  omega

/-! ## Listing a rectangle -/

theorem pairwise_span (p q : Int) : (span p q).Pairwise (· < ·) := by
  apply List.pairwise_map.mpr
  apply List.pairwise_lt_range.imp
  omega

theorem length_span {p q : Int} (h : p ≤ q) : ((span p q).length : Int) = q - p + 1 := by
  rw [span, List.length_map, List.length_range]
  omega

theorem pairwise_rectangle (a b : Coordinate) : (rectangle a b).Pairwise Precedes := by
  apply List.pairwise_flatMap.mpr
  constructor
  · intro r _
    apply List.pairwise_map.mpr
    exact (pairwise_span _ _).imp fun h => .inr ⟨rfl, h⟩
  · apply (pairwise_span _ _).imp
    intro r r' h c hc d hd
    obtain ⟨k, -, rfl⟩ := List.mem_map.mp hc
    obtain ⟨l, -, rfl⟩ := List.mem_map.mp hd
    exact .inl h

theorem length_rectangle (a b : Coordinate) :
    ((rectangle a b).length : Int) = rectangleSize a b := by
  have hRows := length_span (min_le_max : min a.row b.row ≤ max a.row b.row)
  have hColumns := length_span (min_le_max : min a.column b.column ≤ max a.column b.column)
  rw [rectangleSize, ← hRows, ← hColumns, rectangle, List.length_flatMap]
  simp

/-- The pairs of opposite corners of the rectangle between two corners. -/
def oppositeCorners (a b : Coordinate) : List (Coordinate × Coordinate) :=
  [(a, b), (b, a), (⟨a.row, b.column⟩, ⟨b.row, a.column⟩), (⟨b.row, a.column⟩, ⟨a.row, b.column⟩)]

variable {a b a' b' a₁ b₁ a₂ b₂ : Coordinate}

theorem bounds_of_mem_oppositeCorners (h : (a', b') ∈ oppositeCorners a b) :
    (min a'.row b'.row = min a.row b.row ∧ max a'.row b'.row = max a.row b.row) ∧
      min a'.column b'.column = min a.column b.column ∧
      max a'.column b'.column = max a.column b.column := by
  simp only [oppositeCorners, List.mem_cons, Prod.mk.injEq, List.not_mem_nil, or_false] at h
  rcases h with ⟨rfl, rfl⟩ | ⟨rfl, rfl⟩ | ⟨rfl, rfl⟩ | ⟨rfl, rfl⟩
  · exact ⟨⟨rfl, rfl⟩, rfl, rfl⟩
  · exact ⟨⟨min_comm _ _, max_comm _ _⟩, min_comm _ _, max_comm _ _⟩
  · exact ⟨⟨rfl, rfl⟩, min_comm _ _, max_comm _ _⟩
  · exact ⟨⟨min_comm _ _, max_comm _ _⟩, rfl, rfl⟩

theorem rectangle_of_mem_oppositeCorners (h : (a', b') ∈ oppositeCorners a b) :
    rectangle a' b' = rectangle a b := by
  obtain ⟨⟨hTop, hBottom⟩, hLeft, hRight⟩ := bounds_of_mem_oppositeCorners h
  rw [rectangle, rectangle, hTop, hBottom, hLeft, hRight]

theorem rectangleSize_of_mem_oppositeCorners (h : (a', b') ∈ oppositeCorners a b) :
    rectangleSize a' b' = rectangleSize a b := by
  rw [← length_rectangle, ← length_rectangle, rectangle_of_mem_oppositeCorners h]

/-- Between two numbers, both included, whichever of them is the greater. -/
def IsBetween (p q n : Int) : Prop := p ≤ n ∧ n ≤ q ∨ q ≤ n ∧ n ≤ p

theorem isBetween_iff {p q n : Int} : IsBetween p q n ↔ min p q ≤ n ∧ n ≤ max p q := by
  unfold IsBetween
  omega

theorem one_le_rectangleSize (a b : Coordinate) : 1 ≤ rectangleSize a b := by
  have hRows : 0 < max a.row b.row - min a.row b.row + 1 := by omega
  have hColumns : 0 < max a.column b.column - min a.column b.column + 1 := by omega
  exact Int.mul_pos hRows hColumns

/-- A rectangle is listed row by row, each coordinate between its corners once, and alike from
every pair of opposite corners. -/
theorem rectangle_lists_exactly (a b : Coordinate) :
    (rectangle a b).Pairwise Precedes ∧ (rectangle a b).Nodup ∧
    (∀ c, c ∈ rectangle a b ↔
      IsBetween a.row b.row c.row ∧ IsBetween a.column b.column c.column) ∧
    ((rectangle a b).length : Int) = rectangleSize a b ∧ 1 ≤ (rectangle a b).length ∧
    rectangle b a = rectangle a b ∧
    rectangle ⟨a.row, b.column⟩ ⟨b.row, a.column⟩ = rectangle a b ∧
    rectangle ⟨b.row, a.column⟩ ⟨a.row, b.column⟩ = rectangle a b := by
  have hOrder := pairwise_rectangle a b
  have hLength := length_rectangle a b
  have hSize := one_le_rectangleSize a b
  refine ⟨hOrder, hOrder.imp Precedes.ne, fun c => ?_, hLength, by omega, ?_, ?_, ?_⟩
  · rw [mem_rectangle, isBetween_iff, isBetween_iff]
  all_goals exact rectangle_of_mem_oppositeCorners (by simp [oppositeCorners])

/-! ## Cutting a rectangle -/

/-- The numbers between `p` and `q` are the ones between `p₁` and `q₁` and, above them, the ones
between `p₂` and `q₂`. -/
structure Divides (p q p₁ q₁ p₂ q₂ : Int) : Prop where
  bottom : min p₁ q₁ = min p q
  next : min p₂ q₂ = max p₁ q₁ + 1
  top : max p₂ q₂ = max p q

/-- The same numbers lie between `p'` and `q'` as between `p` and `q`. -/
structure Spans (p q p' q' : Int) : Prop where
  bottom : min p' q' = min p q
  top : max p' q' = max p q

/-- A line between two rows, or between two columns, cuts the rectangle between two corners into the
rectangles between two other pairs of corners. -/
inductive Splits (a b a₁ b₁ a₂ b₂ : Coordinate) : Prop
  | byRow (hRows : Divides a.row b.row a₁.row b₁.row a₂.row b₂.row)
      (hFirst : Spans a.column b.column a₁.column b₁.column)
      (hSecond : Spans a.column b.column a₂.column b₂.column) : Splits a b a₁ b₁ a₂ b₂
  | byColumn (hColumns : Divides a.column b.column a₁.column b₁.column a₂.column b₂.column)
      (hFirst : Spans a.row b.row a₁.row b₁.row)
      (hSecond : Spans a.row b.row a₂.row b₂.row) : Splits a b a₁ b₁ a₂ b₂

theorem span_append {p m q : Int} (hp : p ≤ m + 1) (hq : m ≤ q) :
    span p m ++ span (m + 1) q = span p q := by
  have hLength : (q - p + 1).toNat = (m - p + 1).toNat + (q - (m + 1) + 1).toNat := by omega
  rw [span, span, span, hLength, List.range_add, List.map_append, List.map_map]
  congr 1
  apply List.map_congr_left
  intro k _
  simp only [Function.comp_apply]
  omega

theorem Divides.span_eq {p q p₁ q₁ p₂ q₂ : Int} (h : Divides p q p₁ q₁ p₂ q₂) :
    span (min p₁ q₁) (max p₁ q₁) ++ span (min p₂ q₂) (max p₂ q₂) = span (min p q) (max p q) := by
  obtain ⟨hBottom, hNext, hTop⟩ := h
  have hFirst : min p₁ q₁ ≤ max p₁ q₁ := min_le_max
  have hSecond : min p₂ q₂ ≤ max p₂ q₂ := min_le_max
  rw [hNext, span_append, hBottom, hTop]
  · omega
  · omega

/-- Cut along a row, the parts follow one another; cut along a column, each row of the whole is a
row of the one part and then a row of the other. -/
theorem Splits.perm (h : Splits a b a₁ b₁ a₂ b₂) :
    (rectangle a₁ b₁ ++ rectangle a₂ b₂).Perm (rectangle a b) := by
  cases h with
  | byRow hRows hFirst hSecond =>
    rw [rectangle, rectangle, rectangle, hFirst.bottom, hFirst.top, hSecond.bottom, hSecond.top,
      ← List.flatMap_append, hRows.span_eq]
  | byColumn hColumns hFirst hSecond =>
    rw [rectangle, rectangle, rectangle, hFirst.bottom, hFirst.top, hSecond.bottom, hSecond.top,
      ← hColumns.span_eq]
    simp only [List.map_append]
    exact List.flatMap_append_perm _ _ _

end Spreadsheet.Coordinate
