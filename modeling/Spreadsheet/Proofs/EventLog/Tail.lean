import Spreadsheet.EventLog
import Mathlib

/-!
# The tail of a file of lines

The last bytes of a file start in the middle of a line or right after one. What is read of them
starts after the first line break among them, so it is made of whole lines: of as many lines at the
end of the file as lie wholly after that break.
-/

set_option autoImplicit false

namespace Spreadsheet.EventLog

/-- Some lines at the end of a file lie wholly after the first line break among its last `count`
bytes, or the file is not longer than that. No lines lie anywhere. -/
def LieInTail (count : Nat) (file lines : List UInt8) : Prop :=
  file.length ≤ count ∨ lines = [] ∨
    ∃ part between, file.drop (file.length - count) = part ++ 0x0a :: (between ++ lines) ∧
      0x0a ∉ part

def IsLine (l : List UInt8) : Prop := ∃ body, l = body ++ [0x0a] ∧ 0x0a ∉ body

section Tail

variable {α : Type} {f : α → List UInt8} {as kept others : List α} {w part : List UInt8}

theorem eq_nil_of_flatMap (h : ∀ a ∈ as, IsLine (f a)) (hNone : as.flatMap f = []) : as = [] := by
  cases as with
  | nil => rfl
  | cons a as =>
    obtain ⟨body, hLine, -⟩ := h a List.mem_cons_self
    rw [List.flatMap_cons, hLine] at hNone
    simp at hNone

/-- Bytes at the end of a file of lines are none, or the end of a line and the lines after it. -/
theorem suffix_flatMap_cases (h : ∀ a ∈ as, IsLine (f a)) (hw : w <:+ as.flatMap f) :
    w = [] ∨ ∃ part kept, w = part ++ 0x0a :: kept.flatMap f ∧ 0x0a ∉ part ∧ kept <:+ as := by
  induction as with
  | nil => exact .inl (List.suffix_nil.mp hw)
  | cons a as ih =>
    obtain ⟨hFirst, hRest⟩ := List.forall_mem_cons.mp h
    have hAfter (hSuffix : w <:+ as.flatMap f) : w = [] ∨
        ∃ part kept, w = part ++ 0x0a :: kept.flatMap f ∧ 0x0a ∉ part ∧ kept <:+ a :: as := by
      rcases ih hRest hSuffix with hNone | ⟨part, kept, hCut, hPart, hKept⟩
      · exact .inl hNone
      · exact .inr ⟨part, kept, hCut, hPart, hKept.trans (List.suffix_cons a as)⟩
    -- The bytes start within the first line, right after it, or further on.
    obtain ⟨before, hw⟩ := hw
    rw [List.flatMap_cons] at hw
    rcases List.append_eq_append_iff.mp hw with ⟨last, hLine, rfl⟩ | ⟨more, -, hSuffix⟩
    · obtain ⟨body, hBody, hBreak⟩ := hFirst
      rcases List.eq_nil_or_concat' last with rfl | ⟨part, b, rfl⟩
      · exact hAfter (List.suffix_refl _)
      · rw [hBody, ← List.append_assoc] at hLine
        obtain ⟨rfl, hLast⟩ := List.append_inj' hLine rfl
        cases hLast
        refine .inr ⟨part, as, ?_, ?_, List.suffix_cons a as⟩
        · rw [List.append_assoc]
          rfl
        · exact fun hMem => hBreak (List.mem_append_right before hMem)
    · exact hAfter ⟨more, hSuffix.symm⟩

theorem dropWhile_cut {b : UInt8} {r : List UInt8} (hPart : b ∉ part) :
    (part ++ b :: r).dropWhile (· != b) = b :: r := by
  rw [List.dropWhile_append_of_pos, List.dropWhile_cons_of_neg (by simp)]
  intro x hx
  have hOther : x ≠ b := by
    rintro rfl
    exact hPart hx
  simpa using hOther

/-- The first break cuts bytes in one way only. -/
theorem cut_unique {b : UInt8} {part' r r' : List UInt8}
    (h : part ++ b :: r = part' ++ b :: r') (hPart : b ∉ part) (hPart' : b ∉ part') : r = r' := by
  have hDrop := congrArg (List.dropWhile (· != b)) h
  rw [dropWhile_cut hPart, dropWhile_cut hPart'] at hDrop
  exact (List.cons.inj hDrop).2

theorem suffix_of_flatMap {between : List UInt8} (h : ∀ a ∈ as, IsLine (f a)) (hKept : kept <:+ as)
    (hOthers : others <:+ as) (hBytes : kept.flatMap f = between ++ others.flatMap f) :
    others <:+ kept := by
  rcases List.suffix_or_suffix_of_suffix hOthers hKept with hShorter | ⟨extra, rfl⟩
  · exact hShorter
  · have hLength := congrArg List.length hBytes
    rw [List.flatMap_append, List.length_append, List.length_append] at hLength
    have hExtra : extra.flatMap f = [] := List.length_eq_zero_iff.mp (by omega)
    have hNone := eq_nil_of_flatMap
      (fun a ha => h a (hOthers.subset (List.mem_append_left kept ha))) hExtra
    rw [hNone, List.nil_append]

/-- The tail of a file of lines is made of the most lines at its end that lie in it. -/
theorem tail_flatMap (h : ∀ a ∈ as, IsLine (f a)) (count : Nat) :
    ∃ kept, kept <:+ as ∧ tail count (as.flatMap f) = kept.flatMap f ∧
      LieInTail count (as.flatMap f) (kept.flatMap f) ∧
      ∀ others, others <:+ as → LieInTail count (as.flatMap f) (others.flatMap f) →
        others <:+ kept := by
  unfold tail
  by_cases hShort : (as.flatMap f).length ≤ count
  · rw [if_pos hShort]
    exact ⟨as, List.suffix_refl as, rfl, .inl hShort, fun others hOthers _ => hOthers⟩
  · rw [if_neg hShort]
    set last := (as.flatMap f).drop ((as.flatMap f).length - count) with hLast
    have hSuffix : last <:+ as.flatMap f := List.drop_suffix _ _
    rcases suffix_flatMap_cases h hSuffix with hNone | ⟨part, kept, hCut, hPart, hKept⟩
    · refine ⟨[], List.nil_suffix, ?_, .inr (.inl rfl), ?_⟩
      · rw [hNone]
        rfl
      · intro others hOthers hIn
        rcases hIn with hIn | hIn | ⟨part, between, hIn, -⟩
        · exact absurd hIn hShort
        · rw [eq_nil_of_flatMap (fun a ha => h a (hOthers.subset ha)) hIn]
        · rw [← hLast, hNone] at hIn
          simp at hIn
    · refine ⟨kept, hKept, ?_, .inr (.inr ⟨part, [], hCut, hPart⟩), ?_⟩
      · have hBreak : last.contains 0x0a = true := by
          rw [hCut]
          simp
        rw [if_pos hBreak, hCut, dropWhile_cut hPart, List.drop_succ_cons, List.drop_zero]
      · intro others hOthers hIn
        rcases hIn with hIn | hIn | ⟨part', between, hIn, hPart'⟩
        · exact absurd hIn hShort
        · rw [eq_nil_of_flatMap (fun a ha => h a (hOthers.subset ha)) hIn]
          exact List.nil_suffix
        · rw [← hLast, hCut] at hIn
          exact suffix_of_flatMap h hKept hOthers (cut_unique hIn hPart hPart')

end Tail

end Spreadsheet.EventLog
