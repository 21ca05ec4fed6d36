import Spreadsheet.Files
import Mathlib

/-!
# Adding to the end of a file

Bytes that are added to the end of a file leave the way to it as it was: no directory goes away, and
the place of the file does not become one.
-/

set_option autoImplicit false

namespace Spreadsheet.Files

variable {files files' : Files} {path : Path} {l m place : Location} {bytes more : List UInt8}

/-- The path leads to a place for a file. The bytes are those of the file there; they are none where
there is no file yet. -/
def Holds (files : Files) (path : Path) (bytes : List UInt8) : Prop :=
  ∃ place, files.locate path = .ok place ∧ files.isDirectory place = false ∧
    (files.bytesAt? place).getD [] = bytes

/-! ## Setting the bytes at a place -/

theorem mem_places_setBytes {contents : List (Location × List UInt8)} :
    m ∈ (setBytes l bytes contents).map (·.1) ↔ m = l ∨ m ∈ contents.map (·.1) := by
  induction contents with
  | nil => simp [setBytes]
  | cons entry rest ih =>
    rw [setBytes]
    split_ifs with hSame
    · simp [hSame]
    · rw [List.map_cons, List.mem_cons, ih, List.map_cons, List.mem_cons]
      tauto

theorem lookup_setBytes (l : Location) (bytes : List UInt8)
    (contents : List (Location × List UInt8)) :
    (setBytes l bytes contents).lookup l = some bytes := by
  induction contents with
  | nil => simp [setBytes]
  | cons entry rest ih =>
    rw [setBytes]
    split_ifs with hSame
    · simp
    · have hOther : (l == entry.1) = false := beq_eq_false_iff_ne.mpr (Ne.symm hSame)
      rw [List.lookup_cons, hOther, ih]

theorem isDirectory_iff : files.isDirectory l = true ↔
    l <+: files.workingDirectory ∨ (∃ m ∈ files.directories, l <+: m) ∨
      ∃ m ∈ files.contents.map (·.1), l <+: m ∧ l ≠ m := by
  simp [isDirectory, or_assoc]

/-- The directories after the bytes at a place were set: those before, and those above the place. -/
theorem isDirectory_setBytes :
    ({ files with contents := setBytes place bytes files.contents } : Files).isDirectory l = true ↔
      files.isDirectory l = true ∨ l <+: place ∧ l ≠ place := by
  simp only [isDirectory_iff, mem_places_setBytes]
  constructor
  · rintro (hWorking | hMade | ⟨m, rfl | hMem, hAbove⟩)
    · exact .inl (.inl hWorking)
    · exact .inl (.inr (.inl hMade))
    · exact .inr hAbove
    · exact .inl (.inr (.inr ⟨m, hMem, hAbove⟩))
  · rintro ((hWorking | hMade | ⟨m, hMem, hAbove⟩) | hAbove)
    · exact .inl hWorking
    · exact .inr (.inl hMade)
    · exact .inr (.inr ⟨m, .inr hMem, hAbove⟩)
    · exact .inr (.inr ⟨place, .inl rfl, hAbove⟩)

/-! ## Following paths -/

theorem follow_of_directories {names : List String}
    (hKept : ∀ l, files.isDirectory l = true → files'.isDirectory l = true)
    (h : files.follow path l names = .ok place) : files'.follow path l names = .ok place := by
  induction names generalizing l with
  | nil => exact h
  | cons name names ih =>
    rw [follow, enter] at h
    rw [follow, enter]
    by_cases hDirectory : files.isDirectory l = true
    · rw [if_pos hDirectory] at h
      rw [if_pos (hKept l hDirectory)]
      by_cases hLong : nameLimit < name.utf8ByteSize
      · rw [if_pos hLong] at h
        cases h
      · rw [if_neg hLong] at h ⊢
        exact ih h
    · rw [if_neg hDirectory] at h
      cases h

/-- A path leads where it did when no directory has gone away. -/
theorem locate_of_directories (hWorking : files'.workingDirectory = files.workingDirectory)
    (hKept : ∀ l, files.isDirectory l = true → files'.isDirectory l = true)
    (h : files.locate path = .ok place) : files'.locate path = .ok place := by
  unfold locate at h ⊢
  cases hText : checkText path path.text with
  | error fault =>
    rw [hText] at h
    cases h
  | ok _ =>
    rw [hText] at h
    have hStart : files'.start path = files.start path := by rw [start, start, hWorking]
    rw [hStart]
    exact follow_of_directories hKept h

/-! ## Adding bytes -/

/-- Bytes can be added to the file that a path leads to, and they come after those that were there
before. -/
theorem Holds.append (h : files.Holds path bytes) (more : List UInt8) :
    ∃ files', files.append path more = .ok files' ∧ files'.Holds path (bytes ++ more) := by
  obtain ⟨place, hLocated, hDirectory, rfl⟩ := h
  set old := (files.bytesAt? place).getD [] with hOld
  set longer : Files :=
    { files with contents := setBytes place (old ++ more) files.contents } with hLonger
  have hKept : ∀ l, files.isDirectory l = true → longer.isDirectory l = true := fun l hl =>
    isDirectory_setBytes.mpr (.inl hl)
  refine ⟨longer, ?_, place, locate_of_directories (by rfl) hKept hLocated, ?_, ?_⟩
  · rw [Files.append, hLocated]
    simp only [bind, Except.bind, hDirectory]
    rfl
  · -- Only what lies strictly above the place can have become a directory.
    rw [Bool.eq_false_iff, Ne, hLonger, isDirectory_setBytes, hDirectory]
    simp
  · rw [bytesAt?, hLonger, lookup_setBytes, Option.getD_some]

end Spreadsheet.Files
