import Spreadsheet.CommandLine.Run
import Spreadsheet.Proofs.Address.Rectangle
import Spreadsheet.Proofs.Formula.Mentions

/-!
# The references of a formula, printed

The command that prints what a formula refers to explains what it cannot read of the formula and of
its ranges. Addresses on their own are printed as they are written, in upper case, and are read for
the first time when the lines are put in order, where nothing explains that one of them cannot be
read.
-/

set_option autoImplicit false

namespace Spreadsheet.CommandLine

open Formula Lexer

/-! ## Lines in order -/

def ComesBefore (p q : Coordinate × String) : Prop := p.1.Precedes q.1 ∨ p.1 = q.1 ∧ p.2 < q.2

section

variable {p q r : Coordinate × String}

theorem mentionLe_iff : mentionLe p q = true ↔ p.1.Precedes q.1 ∨ p.1 = q.1 ∧ p.2 ≤ q.2 := by
  rw [mentionLe]
  by_cases hSame : p.1 = q.1
  · have hNot : ¬ p.1.Precedes q.1 := fun h => h.ne hSame
    rw [if_pos hSame, Text.notAfter_iff]
    tauto
  · rw [if_neg hSame]
    constructor
    · intro h
      exact .inl (Coordinate.precedes_of_le h hSame)
    · rintro (h | ⟨h, -⟩)
      · exact h.le
      · exact absurd h hSame

theorem mentionLe_trans (hpq : mentionLe p q = true) (hqr : mentionLe q r = true) :
    mentionLe p r = true := by
  rw [mentionLe_iff] at hpq hqr ⊢
  rcases hpq with hpq | ⟨hpq, hText⟩
  · rcases hqr with hqr | ⟨hqr, -⟩
    · exact .inl (hpq.trans hqr)
    · exact .inl (hqr ▸ hpq)
  · rcases hqr with hqr | ⟨hqr, hText'⟩
    · exact .inl (hpq ▸ hqr)
    · exact .inr ⟨hpq.trans hqr, String.le_trans hText hText'⟩

theorem mentionLe_total (p q : Coordinate × String) : (mentionLe p q || mentionLe q p) = true := by
  rw [Bool.or_eq_true, mentionLe_iff, mentionLe_iff]
  rcases Coordinate.precedes_or_eq p.1 q.1 with h | h | h
  · exact .inl (.inl h)
  · rcases String.le_total p.2 q.2 with hText | hText
    · exact .inl (.inr ⟨h, hText⟩)
    · exact .inr (.inr ⟨h.symm, hText⟩)
  · exact .inr (.inl h)

theorem comesBefore_of_le (h : mentionLe p q = true) (hNe : p ≠ q) : ComesBefore p q := by
  rcases mentionLe_iff.mp h with hBefore | ⟨hSame, hText⟩
  · exact .inl hBefore
  · refine .inr ⟨hSame, lt_of_le_of_ne hText fun hText => hNe ?_⟩
    exact Prod.ext hSame hText

end

variable {m : String} {ms : List String} {c : Coordinate}

def placing (mention : String) : Except Failure (Coordinate × String) :=
  return (← startOf mention, mention)

/-- Either every mention has its place, or one of them fails the command. -/
theorem places_or_fails (ms : List String) :
    (∃ placed : List (Coordinate × String), ms.mapM placing = .ok placed ∧ placed.map (·.2) = ms ∧
      ∀ p ∈ placed, startOf p.2 = .ok p.1) ∨
    ∃ m ∈ ms, ∃ e, startOf m = .error e ∧ ms.mapM placing = .error e := by
  induction ms with
  | nil => exact .inl ⟨[], rfl, rfl, List.forall_mem_nil _⟩
  | cons m ms ih =>
    rw [List.mapM_cons, placing]
    cases hStart : startOf m with
    | error e => exact .inr ⟨m, List.mem_cons_self, e, hStart, rfl⟩
    | ok c =>
      rcases ih with ⟨placed, hPlaced, hTexts, hStarts⟩ | ⟨n, hn, e, hError, hFails⟩
      · refine .inl ⟨(c, m) :: placed, by rw [hPlaced]; rfl, ?_, ?_⟩
        · rw [List.map_cons, hTexts]
        · exact List.forall_mem_cons.mpr ⟨hStart, hStarts⟩
      · exact .inr ⟨n, List.mem_cons_of_mem m hn, e, hError, by rw [hFails]; rfl⟩

/-- The mentions stand in strict order, each once and at its place. -/
structure InPlace (ms : List String) (placed : List (Coordinate × String)) : Prop where
  order : placed.Pairwise ComesBefore
  place : ∀ p ∈ placed, startOf p.2 = .ok p.1
  lines : ∀ m, m ∈ ms ↔ ∃ c, (c, m) ∈ placed

theorem inOrder_or_fails (hOnce : ms.Nodup) :
    (∃ placed, inOrder ms = .ok (placed.map (·.2)) ∧ InPlace ms placed) ∨
    ∃ m ∈ ms, ∃ e, startOf m = .error e ∧ inOrder ms = .error e := by
  have hOrder : inOrder ms =
      (ms.mapM placing).map fun placed => (placed.mergeSort mentionLe).map (·.2) := by
    rw [inOrder]
    change ((ms.mapM placing) >>= _) = _
    cases ms.mapM placing <;> rfl
  rcases places_or_fails ms with ⟨placed, hPlaced, hTexts, hStarts⟩ | ⟨m, hm, e, hError, hFails⟩
  · rw [hPlaced] at hOrder
    have hNodup : (placed.mergeSort mentionLe).Nodup := by
      rw [← hTexts] at hOnce
      exact (List.mergeSort_perm placed mentionLe).nodup_iff.mpr (List.Nodup.of_map _ hOnce)
    have hTrans (p q r : Coordinate × String) (hpq : mentionLe p q = true)
        (hqr : mentionLe q r = true) : mentionLe p r = true := mentionLe_trans hpq hqr
    have hSorted := List.pairwise_mergeSort hTrans mentionLe_total placed
    refine .inl ⟨_, hOrder, ?_, ?_, ?_⟩
    · exact (hSorted.and hNodup).imp fun h => comesBefore_of_le h.1 h.2
    · intro p hp
      exact hStarts p (List.mem_mergeSort.mp hp)
    · simp [← hTexts]
  · rw [hFails] at hOrder
    exact .inr ⟨m, hm, e, hError, hOrder⟩

/-! ## Lines of addresses -/

theorem startOf_of_spells (h : Spells .cell m.toList) : startOf m = Coordinate.ofAddress m := by
  have hNone : ∀ k ∈ ([] : List Char).head?, (k != ':') = false := nofun
  have hRun := takeWhile_run (ne_colon_of_mem h) hNone
  rw [List.append_nil] at hRun
  rw [startOf, hRun, String.ofList_toList]

theorem withoutSequences_of_not_mem {cs : List Char} (h : '\x1b' ∉ cs) :
    withoutSequences 0 cs = cs := by
  induction cs with
  | nil => rfl
  | cons c cs ih =>
    rw [List.mem_cons, not_or] at h
    have hNone : sequenceLength (c :: cs) = 0 := by
      rw [sequenceLength]
      rintro cs' ⟨⟩
      exact h.1 rfl
    rw [withoutSequences, hNone, ih h.2]

theorem unifyLineEnds_of_not_mem {cs : List Char} (h : '\r' ∉ cs) : unifyLineEnds cs = cs := by
  induction cs with
  | nil => rfl
  | cons c cs ih =>
    rw [List.mem_cons, not_or] at h
    have hOther : (c == '\r') = false := beq_eq_false_iff_ne.mpr (Ne.symm h.1)
    rw [unifyLineEnds, hOther, Bool.false_and, if_neg Bool.false_ne_true, ih h.2]

theorem toList_listing (lines : List String) :
    (listing lines).toList = lines.flatMap fun line => line.toList ++ ['\n'] := by
  induction lines with
  | nil => rfl
  | cons line lines ih =>
    rw [List.flatMap_cons, ← ih, listing, listing, List.map_cons, String.join_cons]
    simp

theorem plainText_listing {lines : List String} (h : ∀ m ∈ lines, Spells .cell m.toList) :
    plainText (listing lines) = listing lines := by
  have hPlain : ∀ k ∈ (listing lines).toList, k = '\n' ∨ isInner k = true := by
    intro k hk
    rw [toList_listing, List.mem_flatMap] at hk
    obtain ⟨m, hm, hk⟩ := hk
    rcases List.mem_append.mp hk with hk | hk
    · obtain ⟨letters, digits, -, -, hLetters, hDigits, hAddress⟩ := h m hm
      rw [hAddress, List.mem_append] at hk
      rcases hk with hk | hk
      · exact .inr (by simp [isInner, hLetters k hk])
      · exact .inr (by simp [isInner, hDigits k hk])
    · exact .inl (List.mem_singleton.mp hk)
  have hEscape : '\x1b' ∉ (listing lines).toList := fun hk => by
    rcases hPlain _ hk with h | h <;> revert h <;> decide
  have hReturn : '\r' ∉ (listing lines).toList := fun hk => by
    rcases hPlain _ hk with h | h <;> revert h <;> decide
  rw [plainText, withoutSequences_of_not_mem hEscape, unifyLineEnds_of_not_mem hReturn,
    String.ofList_toList]

/-! ## The command -/

variable {f g : Formula} {placed : List (Coordinate × String)} {ending : Ending}

theorem spells_of_displays (hSpelled : g.IsSpelled) (h : g.Displays true m) :
    Spells .cell m.toList := by
  cases g with
  | cell address =>
    rw [displays_cell.mp h]
    exact spells_upper hSpelled
  | range first last =>
    obtain ⟨a, b, hCorners, c, hc, rfl⟩ := displays_members.mp h
    have hNames : (range first last).Names none c := (names_range hCorners).mpr hc
    exact Coordinate.spells_address hNames.isAddressable.isInGrid
  | _ =>
    obtain ⟨own, hOwn, hm⟩ := h
    cases hOwn
    cases hm

theorem isPlaced_of_shown (hShown : g.IsShown true)
    (hCell : ∀ address, g = cell address → ∃ c, Coordinate.ofAddress address = .ok c) :
    g.IsPlaced := by
  intro a ha
  cases g with
  | cell address =>
    obtain rfl := List.mem_singleton.mp ha
    exact hCell a rfl
  | range first last =>
    obtain ⟨ends, hCorners⟩ := isShown_members.mp hShown
    obtain ⟨hFirst, hLast⟩ := corners_eq_ok.mp hCorners
    rcases List.mem_cons.mp ha with rfl | ha
    · exact ⟨ends.1, hFirst⟩
    · obtain rfl := List.mem_singleton.mp ha
      exact ⟨ends.2, hLast⟩
  | _ => cases ha

/-- The cells that stand on their own are written like their coordinates, in letters of any case. -/
def HasCanonicalCells (f : Formula) : Prop :=
  ∀ address, cell address ∈ f.nodes → ∀ c, Coordinate.ofAddress address = .ok c →
    Text.upper address = c.address

def FailsInRange (f : Formula) (e : Failure) : Prop :=
  ∃ before first last after, f.nodes = before ++ range first last :: after ∧
    (∀ h ∈ before, h.IsShown true) ∧ corners first last = .error e

structure Explains (ending : Ending) (message : String) : Prop where
  code : ending.exitCode = 1
  output : ending.output = plainText ("Error: " ++ message ++ "\n")

/-- The run prints the addresses of mentions in order, by which all cells are listed that the
formula asks for; written canonically, each is listed once. -/
structure Lists (f : Formula) (ending : Ending) (placed : List (Coordinate × String)) : Prop where
  code : ending.exitCode = 0
  output : ending.output = listing (placed.map (·.2))
  order : placed.Pairwise ComesBefore
  place : ∀ p ∈ placed, Coordinate.ofAddress p.2 = .ok p.1
  lines : ∀ m, (∃ g ∈ f.nodes, g.Displays true m) ↔ ∃ c, (c, m) ∈ placed
  cells : ∀ c, f.Asks none c ↔ ∃ m, (c, m) ∈ placed
  once : HasCanonicalCells f → ∃ cs : List Coordinate,
    ending.output = listing (cs.map (·.address)) ∧ cs.Pairwise Coordinate.Precedes ∧
    ∀ c, c ∈ cs ↔ f.Asks none c

/-- How the command ends on the text of a formula. -/
inductive RefsOutcome (text : String) (ending : Ending) : Prop
  | misspelled {fault : SyntaxFault} (hParse : parse text = .error fault)
      (hExplains : Explains ending fault.message) : RefsOutcome text ending
  | refused {f : Formula} {fault : FormulaFault} (hParse : parse text = .ok f)
      (hRange : FailsInRange f (.formula fault)) (hExplains : Explains ending fault.message) :
      RefsOutcome text ending
  | broken {f : Formula} {e : Failure} (hParse : parse text = .ok f) (hRange : FailsInRange f e)
      (hOther : ∀ fault, e ≠ .formula fault) (hEnding : ending = .broken (.evaluation e)) :
      RefsOutcome text ending
  /-- Nothing explains that a cell on its own cannot be read, whatever the reason. -/
  | escaped {f : Formula} {address : String} {e : Failure} (hParse : parse text = .ok f)
      (hRanges : ∀ g ∈ f.nodes, g.IsShown true) (hCell : cell address ∈ f.nodes)
      (hAddress : Coordinate.ofAddress (Text.upper address) = .error e)
      (hEnding : ending = .broken (.evaluation e)) : RefsOutcome text ending
  | listed {f : Formula} {placed : List (Coordinate × String)} (hParse : parse text = .ok f)
      (hPlaced : ∀ g ∈ f.nodes, g.IsPlaced) (hLists : Lists f ending placed) :
      RefsOutcome text ending

/-- Where cells are written canonically, the lines are the addresses of the coordinates. -/
theorem eq_address_of_canonical (hSpelled : f.IsSpelled) (hCanonical : HasCanonicalCells f)
    (hDisplays : ∃ g ∈ f.nodes, g.Displays true m) (hRead : Coordinate.ofAddress m = .ok c) :
    m = c.address := by
  obtain ⟨g, hg, hDisplays⟩ := hDisplays
  cases g with
  | cell address =>
    obtain rfl := displays_cell.mp hDisplays
    apply hCanonical address hg c
    exact (ofAddress_upper_eq_ok (hSpelled.of_mem_nodes hg)).mp hRead
  | range first last =>
    obtain ⟨a, b, hCorners, d, hd, rfl⟩ := displays_members.mp hDisplays
    have hNames : (range first last).Names none d := (names_range hCorners).mpr hd
    rw [Coordinate.ofAddress_address hNames.isAddressable, Except.ok.injEq] at hRead
    rw [hRead]
  | _ =>
    obtain ⟨own, hOwn, hm⟩ := hDisplays
    cases hOwn
    cases hm

/-- The mentions are the ones of the formula, and they stand in order. -/
structure Arranged (f : Formula) (placed : List (Coordinate × String)) : Prop where
  spelled : f.IsSpelled
  readable : ∀ g ∈ f.nodes, g.IsPlaced
  order : placed.Pairwise ComesBefore
  place : ∀ p ∈ placed, startOf p.2 = .ok p.1
  lines : ∀ m, (∃ g ∈ f.nodes, g.Displays true m) ↔ ∃ c, (c, m) ∈ placed

section Arranged

variable (h : Arranged f placed)

include h

theorem Arranged.spells : ∀ p ∈ placed, Spells .cell p.2.toList := by
  intro p hp
  obtain ⟨g, hg, hDisplays⟩ := (h.lines p.2).mpr ⟨p.1, hp⟩
  exact spells_of_displays (h.spelled.of_mem_nodes hg) hDisplays

theorem Arranged.read : ∀ p ∈ placed, Coordinate.ofAddress p.2 = .ok p.1 := by
  intro p hp
  rw [← startOf_of_spells (h.spells p hp)]
  exact h.place p hp

theorem Arranged.cells (c : Coordinate) : f.Asks none c ↔ ∃ m, (c, m) ∈ placed := by
  have hMem : ∀ m, m ∈ placed.map (·.2) ↔ ∃ g ∈ f.nodes, g.Displays true m := by
    simp [h.lines]
  rw [asks_of_conveys (fun g hg => (h.readable g hg).conveys_members) hMem]
  simp only [mem_named]
  constructor
  · rintro ⟨m, hm, hRead⟩
    obtain ⟨p, hp, rfl⟩ := List.mem_map.mp hm
    rw [h.read p hp, Except.ok.injEq] at hRead
    exact ⟨p.2, hRead ▸ hp⟩
  · rintro ⟨m, hm⟩
    exact ⟨m, List.mem_map.mpr ⟨(c, m), hm, rfl⟩, h.read (c, m) hm⟩

theorem Arranged.output : (Ending.finished (listing (placed.map (·.2)))).output =
    listing (placed.map (·.2)) := by
  apply plainText_listing
  exact List.forall_mem_map.mpr h.spells

theorem Arranged.once (hCanonical : HasCanonicalCells f) : ∃ cs : List Coordinate,
    placed.map (·.2) = cs.map (·.address) ∧ cs.Pairwise Coordinate.Precedes ∧
      ∀ c, c ∈ cs ↔ f.Asks none c := by
  have hAddress : ∀ p ∈ placed, p.2 = p.1.address := fun p hp =>
    eq_address_of_canonical h.spelled hCanonical ((h.lines p.2).mpr ⟨p.1, hp⟩) (h.read p hp)
  refine ⟨placed.map (·.1), ?_, ?_, fun c => ?_⟩
  · rw [List.map_map]
    exact List.map_congr_left hAddress
  · apply List.pairwise_map.mpr
    apply h.order.imp_of_mem
    -- two lines of one coordinate would have the same text
    intro p q hp hq hBefore
    rcases hBefore with hBefore | ⟨hSame, hText⟩
    · exact hBefore
    · rw [hAddress p hp, hAddress q hq, hSame] at hText
      exact absurd hText (lt_irrefl _)
  · rw [h.cells]
    simp

theorem Arranged.lists : Lists f (.finished (listing (placed.map (·.2)))) placed := by
  refine ⟨rfl, h.output, h.order, h.read, h.lines, h.cells, fun hCanonical => ?_⟩
  obtain ⟨cs, hLines, hOrder, hMem⟩ := h.once hCanonical
  rw [h.output, hLines]
  exact ⟨cs, rfl, hOrder, hMem⟩

end Arranged

/-- Where every mention has its place, everything in the formula can be read. -/
theorem isPlaced_of_inPlace (hSpelled : f.IsSpelled) (hShown : ∀ g ∈ f.nodes, g.IsShown true)
    (hMem : ∀ m, m ∈ ms ↔ ∃ g ∈ f.nodes, g.Displays true m) (hInPlace : InPlace ms placed) :
    ∀ g ∈ f.nodes, g.IsPlaced := by
  intro g hg
  apply isPlaced_of_shown (hShown g hg)
  rintro address rfl
  have hSpells : Spells .cell address.toList := hSpelled.of_mem_nodes hg
  obtain ⟨c, hc⟩ := (hInPlace.lines _).mp ((hMem _).mpr ⟨_, hg, displays_cell.mpr rfl⟩)
  have hStart := hInPlace.place _ hc
  rw [startOf_of_spells (spells_upper hSpells)] at hStart
  exact ⟨c, (ofAddress_upper_eq_ok hSpells).mp hStart⟩

/-- A mention without a place comes from a cell that stands on its own. -/
theorem cell_of_unplaced {e : Failure} (hSpelled : f.IsSpelled)
    (hShown : ∀ g ∈ f.nodes, g.IsShown true) (hDisplays : ∃ g ∈ f.nodes, g.Displays true m)
    (hStart : startOf m = .error e) : ∃ address, cell address ∈ f.nodes ∧
      Coordinate.ofAddress (Text.upper address) = .error e := by
  obtain ⟨g, hg, hDisplays⟩ := hDisplays
  rw [startOf_of_spells (spells_of_displays (hSpelled.of_mem_nodes hg) hDisplays)] at hStart
  by_cases hCell : ∃ address, g = cell address
  · obtain ⟨address, rfl⟩ := hCell
    rw [displays_cell.mp hDisplays] at hStart
    exact ⟨address, hg, hStart⟩
  · -- the members of a range have addresses, which always have a place
    have hPlaced : g.IsPlaced :=
      isPlaced_of_shown (hShown g hg) fun address h => absurd ⟨address, h⟩ hCell
    obtain ⟨ds, hReads⟩ := hPlaced.conveys_members.readable m hDisplays
    rw [named, hStart] at hReads
    cases hReads

theorem refs_outcome (reader : Yaml.Reader) (files : Files) (settings : Settings)
    (log : Option EventLog) (text : String) :
    RefsOutcome text (carryOut reader files settings log (.refs text true)).ending := by
  change RefsOutcome text (refsEnding text true)
  cases hParse : parse text with
  | error fault =>
    rw [refsEnding, hParse]
    exact .misspelled hParse ⟨rfl, rfl⟩
  | ok f =>
    have hSpelled := isSpelled_of_parse hParse
    cases hMentions : f.mentionedOnce true with
    | error e =>
      have hRange : FailsInRange f e := mentionedOnce_eq_error hMentions
      cases e with
      | formula fault =>
        have hEnding : refsEnding text true = .explained fault.message := by
          simp only [refsEnding, hParse, hMentions]
        rw [hEnding]
        exact .refused hParse hRange ⟨rfl, rfl⟩
      | numeric fault | tooDeep =>
        refine .broken hParse hRange nofun ?_
        simp only [refsEnding, hParse, hMentions]
    | ok ms =>
      obtain ⟨hShown, hOrdered, hMem⟩ := mentionedOnce_eq_ok hMentions
      have hOnce : ms.Nodup := hOrdered.imp ne_of_lt
      rcases inOrder_or_fails hOnce with ⟨placed, hOrder, hInPlace⟩ | ⟨m, hm, e, hStart, hOrder⟩
      · have hEnding : refsEnding text true = .finished (listing (placed.map (·.2))) := by
          simp only [refsEnding, hParse, hMentions, hOrder]
        have hPlaced := isPlaced_of_inPlace hSpelled hShown hMem hInPlace
        have hArranged : Arranged f placed := by
          refine ⟨hSpelled, hPlaced, hInPlace.order, hInPlace.place, fun m => ?_⟩
          rw [← hMem, hInPlace.lines]
        rw [hEnding]
        exact .listed hParse hPlaced hArranged.lists
      · have hEnding : refsEnding text true = .broken (.evaluation e) := by
          simp only [refsEnding, hParse, hMentions, hOrder]
        obtain ⟨address, hCell, hAddress⟩ :=
          cell_of_unplaced hSpelled hShown ((hMem m).mp hm) hStart
        exact .escaped hParse hShown hCell hAddress hEnding

/-- The row zero of a cell on its own fails the command, and one cell in two spellings is printed
twice. -/
theorem lone_cells_are_not_checked :
    refsEnding "A0" true = .broken (.evaluation (.formula (.rowZero "A0"))) ∧
      (refsEnding "A1+A01" true).exitCode = 0 ∧ (refsEnding "A1+A01" true).output = "A01\nA1\n" ∧
      Coordinate.ofAddress "A01" = Coordinate.ofAddress "A1" := by
  have hZero : refsEnding "A0" true = .broken (.evaluation (.formula (.rowZero "A0"))) := by cbv
  have hTwice : refsEnding "A1+A01" true = .finished "A01\nA1\n" := by cbv
  rw [hTwice]
  refine ⟨hZero, rfl, ?_, ?_⟩
  · cbv
  · cbv

end Spreadsheet.CommandLine
