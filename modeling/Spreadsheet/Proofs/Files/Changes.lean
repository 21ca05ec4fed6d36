import Spreadsheet.Proofs.Files.Append

/-!
# How files change

Bytes that are added to a file change nothing else, making directories changes no file, and removing
a directory takes away just the files below it. Where a file can be added in a directory depends on
that directory, on the length of the path and on what stands there already.
-/

set_option autoImplicit false

namespace Spreadsheet

/-! ## The text of a path -/

namespace Path

/-- The text of a path with one more name goes on from the text without it, unless that stands for
the place where paths start. -/
theorem text_child (p : Path) (name : String) :
    p.text = "." ∧ (p.child name).text = name ∨ (p.child name).text = p.text ++ name ∨
      (p.child name).text = p.text ++ "/" ++ name := by
  obtain ⟨root, names⟩ := p
  have hChild : ((⟨root, names⟩ : Path).child name).text =
      root ++ String.intercalate "/" (names ++ [name]) := by
    rw [child, text, if_neg (by simp)]
  by_cases hNames : names = []
  · subst hNames
    rw [List.nil_append, String.intercalate_singleton] at hChild
    by_cases hRoot : root = ""
    · subst hRoot
      exact .inl ⟨rfl, by rw [hChild, String.empty_append]⟩
    · refine .inr (.inl ?_)
      rw [hChild, text, if_neg (by simp [hRoot]), String.intercalate_nil, String.append_empty]
  · refine .inr (.inr ?_)
    rw [hChild, String.intercalate_append_of_ne_nil hNames (List.cons_ne_nil _ _),
      String.intercalate_singleton, text, if_neg (by simp [hNames])]
    simp only [String.append_assoc]

end Path

namespace Files

variable {files files' : Files} {path : Path} {l m place : Location} {more : List UInt8}
  {name : String}

theorem checkText_eq_ok {text : String} : checkText path text = .ok () ↔
    '\x00' ∉ text.toList ∧ text.utf8ByteSize ≤ pathLimit := by
  rw [checkText]
  split_ifs with hNull hLong
  · simp_all
  · simp_all
  · simp_all

theorem checkText_of_child (h : checkText (path.child name) (path.child name).text = .ok ()) :
    checkText path path.text = .ok () := by
  rw [checkText_eq_ok] at h ⊢
  obtain ⟨hNull, hLong⟩ := h
  rcases path.text_child name with ⟨hText, -⟩ | hText | hText
  · rw [hText]
    exact ⟨by decide, by decide⟩
  · rw [hText, String.toList_append, List.mem_append] at hNull
    rw [hText, String.utf8ByteSize_append] at hLong
    exact ⟨fun h => hNull (.inl h), by omega⟩
  · rw [hText, String.append_assoc, String.toList_append, List.mem_append] at hNull
    rw [hText, String.append_assoc, String.utf8ByteSize_append] at hLong
    exact ⟨fun h => hNull (.inl h), by omega⟩

theorem checkText_child (h : checkText path path.text = .ok ()) (hName : '\x00' ∉ name.toList)
    (hLong : (path.child name).text.utf8ByteSize ≤ pathLimit) :
    checkText (path.child name) (path.child name).text = .ok () := by
  rw [checkText_eq_ok] at h ⊢
  refine ⟨?_, hLong⟩
  rcases path.text_child name with ⟨-, hText⟩ | hText | hText
  · rwa [hText]
  · rw [hText, String.toList_append, List.mem_append]
    exact not_or.mpr ⟨h.1, hName⟩
  · rw [hText, String.toList_append, String.toList_append, List.mem_append, List.mem_append]
    exact not_or.mpr ⟨not_or.mpr ⟨h.1, by decide⟩, hName⟩

/-! ## The place of a file in a directory -/

/-- A directory at the end of a path, and the place of a file with a name in it. -/
structure Offers (files : Files) (path : Path) (name : String) (place : Location) : Prop where
  directory : ∃ l, files.locate path = .ok l ∧ files.isDirectory l = true ∧ place = l ++ [name]
  /-- The text of the path to the file is one that can be looked up. -/
  length : (path.child name).text.utf8ByteSize ≤ pathLimit
  /-- No directory has taken the name. -/
  vacant : files.isDirectory place = false

theorem follow_cons_eq_ok {names : List String} : files.follow path l (name :: names) = .ok place ↔
    files.isDirectory l = true ∧ name.utf8ByteSize ≤ nameLimit ∧
      files.follow path (step l name) names = .ok place := by
  rw [follow, enter]
  by_cases hDirectory : files.isDirectory l = true
  · by_cases hLong : nameLimit < name.utf8ByteSize
    · rw [if_pos hDirectory, if_pos hLong]
      constructor
      · rintro ⟨⟩
      · rintro ⟨-, hShort, -⟩
        exact absurd hShort (Nat.not_le.mpr hLong)
    · rw [if_pos hDirectory, if_neg hLong]
      exact ⟨fun h => ⟨hDirectory, Nat.not_lt.mp hLong, h⟩, fun h => h.2.2⟩
  · rw [if_neg hDirectory]
    constructor
    · rintro ⟨⟩
    · intro h
      exact absurd h.1 hDirectory

/-- The last name is followed from the place that the others lead to. The paths are only named by
faults. -/
theorem follow_concat_eq_ok {child : Path} {names : List String} :
    files.follow child l (names ++ [name]) = .ok place ↔
      ∃ m, files.follow path l names = .ok m ∧ files.isDirectory m = true ∧
        name.utf8ByteSize ≤ nameLimit ∧ step m name = place := by
  induction names generalizing l with
  | nil =>
    rw [List.nil_append, follow_cons_eq_ok]
    simp [follow]
  | cons first names ih =>
    rw [List.cons_append, follow_cons_eq_ok, ih]
    simp only [follow_cons_eq_ok]
    tauto

theorem locate_eq_ok : files.locate path = .ok place ↔ checkText path path.text = .ok () ∧
    files.follow path (files.start path) path.names = .ok place := by
  rw [locate]
  cases hText : checkText path path.text with
  | error fault => exact ⟨nofun, fun h => nomatch h.1⟩
  | ok _ => exact ⟨fun h => ⟨rfl, h⟩, fun h => h.2⟩

/-- A name that stands for itself and can be looked up. -/
structure IsFileName (name : String) : Prop where
  here : name ≠ "."
  above : name ≠ ".."
  length : name.utf8ByteSize ≤ nameLimit
  text : '\x00' ∉ name.toList

theorem IsFileName.step_eq (h : IsFileName name) (l : Location) : step l name = l ++ [name] := by
  rw [step, if_neg (by simpa using h.here), if_neg (by simpa using h.above)]

theorem offers_iff (h : IsFileName name) : files.Offers path name place ↔
    files.locate (path.child name) = .ok place ∧ files.isDirectory place = false := by
  have hStart : files.start (path.child name) = files.start path := rfl
  have hFollow : files.follow (path.child name) (files.start (path.child name))
      (path.child name).names = .ok place ↔ ∃ m,
        files.follow path (files.start path) path.names = .ok m ∧ files.isDirectory m = true ∧
          name.utf8ByteSize ≤ nameLimit ∧ step m name = place := by
    rw [hStart]
    exact follow_concat_eq_ok
  rw [locate_eq_ok, hFollow]
  constructor
  · rintro ⟨⟨l, hLocated, hDirectory, rfl⟩, hLong, hVacant⟩
    obtain ⟨hText, hLeads⟩ := locate_eq_ok.mp hLocated
    exact ⟨⟨checkText_child hText h.text hLong, l, hLeads, hDirectory, h.length, h.step_eq l⟩,
      hVacant⟩
  · rintro ⟨⟨hText, l, hLeads, hDirectory, -, rfl⟩, hVacant⟩
    exact ⟨⟨l, locate_eq_ok.mpr ⟨checkText_of_child hText, hLeads⟩, hDirectory, h.step_eq l⟩,
      (checkText_eq_ok.mp hText).2, hVacant⟩

/-! ## Adding bytes -/

/-- Bytes come after those at a place, where there need not have been any, and nothing else is
different. -/
structure Gains (files files' : Files) (place : Location) (more : List UInt8) : Prop where
  here : files'.bytesAt? place = some ((files.bytesAt? place).getD [] ++ more)
  elsewhere : ∀ l, l ≠ place → files'.bytesAt? l = files.bytesAt? l
  directories : files'.directories = files.directories
  workingDirectory : files'.workingDirectory = files.workingDirectory

theorem lookup_setBytes_of_ne (h : l ≠ place) (contents : List (Location × List UInt8)) :
    (setBytes place more contents).lookup l = contents.lookup l := by
  have hOther : (l == place) = false := beq_eq_false_iff_ne.mpr h
  induction contents with
  | nil => rw [setBytes, List.lookup_cons, hOther]
  | cons entry rest ih =>
    rw [setBytes]
    split_ifs with hSame
    · rw [List.lookup_cons, List.lookup_cons, hSame, hOther]
    · rw [List.lookup_cons, List.lookup_cons, ih]

theorem gains_of_append (hLocated : files.locate path = .ok place)
    (hVacant : files.isDirectory place = false) (more : List UInt8) :
    ∃ files', files.append path more = .ok files' ∧ files.Gains files' place more := by
  refine ⟨{ files with
    contents := setBytes place ((files.bytesAt? place).getD [] ++ more) files.contents }, ?_, ?_⟩
  · rw [Files.append, hLocated]
    simp only [bind, Except.bind, hVacant]
    rfl
  · exact ⟨lookup_setBytes _ _ _, fun l hl => lookup_setBytes_of_ne hl _, rfl, rfl⟩

theorem append_fails (h : ¬ ∃ place, files.locate path = .ok place ∧ files.isDirectory place = false)
    (more : List UInt8) : ∃ fault, files.append path more = .error fault := by
  cases hLocated : files.locate path with
  | error fault => exact ⟨fault, by rw [Files.append, hLocated]; rfl⟩
  | ok place =>
    have hDirectory : files.isDirectory place = true :=
      Bool.of_not_eq_false fun hVacant => h ⟨place, hLocated, hVacant⟩
    refine ⟨.isDirectory path, ?_⟩
    rw [Files.append, hLocated]
    simp only [bind, Except.bind, hDirectory]
    rfl

/-! ## Directories -/

theorem bytesAt?_makeOne (h : files.makeOne path = .ok files') :
    files'.bytesAt? l = files.bytesAt? l := by
  unfold makeOne at h
  cases hText : checkText path path.text with
  | error fault =>
    rw [hText] at h
    cases h
  | ok _ =>
    rw [hText] at h
    simp only [bind, Except.bind] at h
    split at h
    · cases h
    · split at h
      · cases h
      · split at h
        · cases h
        · split_ifs at h
          cases h
          rfl

theorem bytesAt?_madeAt {made : Except FileFault Files}
    (h : ∀ files', made = .ok files' → files'.bytesAt? l = files.bytesAt? l) :
    (files.madeAt path made).1.bytesAt? l = files.bytesAt? l := by
  unfold madeAt
  split
  · exact h _ rfl
  · split <;> rfl

theorem bytesAt?_makeUpTo (count : Nat) :
    (files.makeUpTo path count).1.bytesAt? l = files.bytesAt? l := by
  induction count with
  | zero => rfl
  | succ count ih =>
    unfold makeUpTo
    dsimp only
    split
    · split
      · rename_i files' hAbove
        rw [hAbove] at ih
        exact (bytesAt?_madeAt fun _ => bytesAt?_makeOne).trans ih
      · exact ih
    · exact bytesAt?_madeAt fun _ => bytesAt?_makeOne

/-- Making directories leaves every file as it was. -/
theorem bytesAt?_makeDirectory : (files.makeDirectory path).1.bytesAt? l = files.bytesAt? l :=
  bytesAt?_makeUpTo _

theorem lookup_filter (p : Location → Bool) (contents : List (Location × List UInt8)) :
    (contents.filter fun entry => p entry.1).lookup l = if p l then contents.lookup l else none := by
  induction contents with
  | nil => simp
  | cons entry rest ih =>
    rw [List.filter_cons, List.lookup_cons]
    by_cases hSame : l = entry.1
    · subst hSame
      split_ifs with hKept
      · rw [List.lookup_cons, beq_self_eq_true]
      · rw [ih, if_neg hKept]
    · have hOther : (l == entry.1) = false := beq_eq_false_iff_ne.mpr hSame
      rw [hOther, ← ih]
      split_ifs
      · rw [List.lookup_cons, hOther]
      · rfl

/-- Removing a directory leaves a file as it was or takes it away. -/
theorem bytesAt?_removeDirectory (files : Files) (path : Path) (l : Location) :
    (files.removeDirectory path).bytesAt? l = files.bytesAt? l ∨
      (files.removeDirectory path).bytesAt? l = none := by
  rw [removeDirectory]
  cases files.locate path with
  | error fault => exact .inl rfl
  | ok m =>
    have hLookup := lookup_filter (l := l) (fun place => !m.isPrefixOf place) files.contents
    change List.lookup l (files.contents.filter _) = _ ∨ List.lookup l (files.contents.filter _) = _
    rw [hLookup]
    split_ifs
    · exact .inl rfl
    · exact .inr rfl

end Files
end Spreadsheet
