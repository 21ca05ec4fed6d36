import Spreadsheet.Proofs.Address.RoundTrip
import Spreadsheet.Proofs.Formula.Rendering
import Spreadsheet.Proofs.Text.Order

/-!
# What a formula mentions

The mentions of a formula are gathered node by node, and the first node whose range cannot be read
ends the gathering. Read again, they denote the coordinates that the reference walk lists, whether a
range is mentioned by its members or by its two corners.
-/

set_option autoImplicit false

namespace Spreadsheet

open Lexer

namespace Coordinate

/-- The row of an address counts from one and has few enough digits to be read. -/
def RowIsWellFormed (address : String) : Prop :=
  ∀ column row, splitAddress address.toList = some (column, row) →
    row.length ≤ Decimal.digitLimit ∧ 1 ≤ Decimal.ofDigits row

instance (address : String) : Decidable (RowIsWellFormed address) :=
  decidable_of_iff (∀ split ∈ splitAddress address.toList,
    split.2.length ≤ Decimal.digitLimit ∧ 1 ≤ Decimal.ofDigits split.2)
    ⟨fun h column row => h (column, row), fun h split => h split.1 split.2⟩

theorem ofAddress_of_spells {address : String} (h : Spells .cell address.toList)
    (hRow : RowIsWellFormed address) : ∃ c, ofAddress address = .ok c := by
  obtain ⟨letters, row, hNonempty, hRowNonempty, hLetters, hDigits, hAddress⟩ := h
  have hSplit := splitAddress_of_letters hNonempty hLetters hRowNonempty hDigits
  rw [← hAddress] at hSplit
  obtain ⟨hLength, hPositive⟩ := hRow letters row hSplit
  obtain ⟨n, hn⟩ := Nat.exists_eq_add_of_le' hPositive
  refine ⟨⟨n, columnIndex letters⟩, ?_⟩
  simp only [ofAddress, hSplit, Decimal.read, if_pos hLength, hn]

end Coordinate

namespace Formula

variable {expand : Bool} {f g : Formula} {first last m : String} {ms : List String}
  {c : Coordinate} {cs : List Coordinate} {e : Failure}

/-! ## Node by node -/

theorem mentions_gathers : Gathers (mentions expand) (mentionsOfAll expand) := by
  constructor <;> intros <;> rfl

/-- What a node mentions apart from its parts. -/
def ownMentions (expand : Bool) (g : Formula) : Except Failure (List String) :=
  atReference (mentions expand) g

def Displays (expand : Bool) (g : Formula) (m : String) : Prop :=
  ∃ own, g.ownMentions expand = .ok own ∧ m ∈ own

def IsShown (expand : Bool) (g : Formula) : Prop := ∃ own, g.ownMentions expand = .ok own

/-! ## Cells and ranges -/

theorem displays_cell {address : String} :
    (cell address).Displays expand m ↔ m = Text.upper address := by
  simp [Displays, ownMentions, atReference, mentions]

theorem ownMentions_range : (range first last).ownMentions true =
    (corners first last).map fun ends => (Coordinate.rectangle ends.1 ends.2).map (·.address) := by
  rw [ownMentions, atReference, mentions]
  cases corners first last <;> rfl

theorem displays_members : (range first last).Displays true m ↔
    ∃ a b, corners first last = .ok (a, b) ∧ ∃ c ∈ Coordinate.rectangle a b, c.address = m := by
  rw [Displays, ownMentions_range]
  cases corners first last with
  | error e => simp [Except.map]
  | ok ends =>
    obtain ⟨a, b⟩ := ends
    simp [Except.map]

theorem isShown_corners (g : Formula) : g.IsShown false := by
  cases g <;> exact ⟨_, rfl⟩

theorem isShown_members :
    (range first last).IsShown true ↔ ∃ ends, corners first last = .ok ends := by
  rw [IsShown, ownMentions_range]
  cases corners first last <;> simp [Except.map]

/-- Only a range whose corners are refused cannot be shown. -/
theorem ownMentions_error (h : g.ownMentions expand = .error e) :
    ∃ first last, g = range first last ∧ corners first last = .error e := by
  cases expand with
  | false =>
    obtain ⟨own, hOwn⟩ := isShown_corners g
    rw [hOwn] at h
    cases h
  | true =>
    cases g with
    | range first last =>
      rw [ownMentions_range] at h
      cases hCorners : corners first last with
      | error e' =>
        rw [hCorners] at h
        cases h
        exact ⟨first, last, rfl, hCorners⟩
      | ok ends =>
        rw [hCorners] at h
        cases h
    | _ => cases h

/-! ## The mentions, each once -/

theorem mentionedOnce_eq (f : Formula) (expand : Bool) : f.mentionedOnce expand =
    (gathered (ownMentions expand) f.nodes).map fun all =>
      (all.mergeSort fun a b => !decide (b < a)).eraseReps := by
  rw [mentionedOnce, mentions_gathers.eq_gathered]
  change _ = (gathered (atReference (mentions expand)) f.nodes).map _
  cases gathered (atReference (mentions expand)) f.nodes <;> rfl

theorem mentionedOnce_eq_ok (h : f.mentionedOnce expand = .ok ms) :
    (∀ g ∈ f.nodes, g.IsShown expand) ∧ ms.Pairwise (· < ·) ∧
      ∀ m, m ∈ ms ↔ ∃ g ∈ f.nodes, g.Displays expand m := by
  rw [mentionedOnce_eq] at h
  cases hAll : gathered (ownMentions expand) f.nodes with
  | error e =>
    rw [hAll] at h
    cases h
  | ok all =>
    rw [hAll] at h
    cases h
    obtain ⟨hShown, hMem⟩ := gathered_eq_ok hAll
    refine ⟨hShown, Text.pairwise_sortedOnce all, fun m => ?_⟩
    rw [Text.mem_sortedOnce, hMem]
    rfl

/-- The first range that cannot be read ends it. -/
theorem mentionedOnce_eq_error (h : f.mentionedOnce expand = .error e) :
    ∃ before first last after, f.nodes = before ++ range first last :: after ∧
      (∀ g ∈ before, g.IsShown expand) ∧ corners first last = .error e := by
  rw [mentionedOnce_eq] at h
  cases hAll : gathered (ownMentions expand) f.nodes with
  | ok all =>
    rw [hAll] at h
    cases h
  | error e' =>
    rw [hAll] at h
    cases h
    obtain ⟨before, g, after, hNodes, hBefore, hOwn⟩ := gathered_eq_error hAll
    obtain ⟨first, last, rfl, hCorners⟩ := ownMentions_error hOwn
    exact ⟨before, first, last, after, hNodes, hBefore, hCorners⟩

theorem mentionedOnce_of_shown (h : ∀ g ∈ f.nodes, g.IsShown expand) :
    ∃ ms, f.mentionedOnce expand = .ok ms := by
  obtain ⟨all, hAll⟩ := gathered_ok h
  exact ⟨_, by rw [mentionedOnce_eq, hAll]; rfl⟩

/-! ## Mentions that are read again -/

def named (mention : String) : Except Failure (List Coordinate) :=
  return [← Coordinate.ofAddress mention]

/-- The coordinates between the addresses on both sides of a colon, or without one the coordinate
that an address names. -/
def denoted (mention : String) : Except Failure (List Coordinate) :=
  match mention.toList.dropWhile (· != ':') with
  | [] => named mention
  | _ :: last => do
    let first := mention.toList.takeWhile (· != ':')
    let (a, b) ← corners (String.ofList first) (String.ofList last)
    return Coordinate.rectangle a b

theorem named_of_ofAddress {address : String} (h : Coordinate.ofAddress address = .ok c) :
    named address = .ok [c] := by
  rw [named, h]
  rfl

theorem mem_named : (∃ ds, named m = .ok ds ∧ c ∈ ds) ↔ Coordinate.ofAddress m = .ok c := by
  rw [named]
  cases Coordinate.ofAddress m <;> simp [bind, Except.bind, pure, Except.pure, eq_comm]

theorem ne_colon_of_mem {address : String} (h : Spells .cell address.toList) :
    ∀ k ∈ address.toList, (k != ':') = true := by
  obtain ⟨letters, digits, -, -, hLetters, hDigits, hAddress⟩ := h
  intro k hk
  rw [bne_iff_ne]
  rintro rfl
  rw [hAddress, List.mem_append] at hk
  rcases hk with hk | hk
  · cases hLetters ':' hk
  · cases hDigits ':' hk

theorem denoted_of_ofAddress {address : String} (h : Coordinate.ofAddress address = .ok c) :
    denoted address = .ok [c] := by
  have hNone : address.toList.dropWhile (· != ':') = [] :=
    List.dropWhile_eq_nil_iff.mpr (ne_colon_of_mem (spells_of_ofAddress h))
  rw [denoted, hNone]
  exact named_of_ofAddress h

theorem denoted_rangeText {a b : Coordinate} (h : corners first last = .ok (a, b)) :
    denoted (rangeText first last) = .ok (Coordinate.rectangle a b) := by
  obtain ⟨ha, hb⟩ := corners_eq_ok.mp h
  have hFirst := ofAddress_upper ha
  have hLast := ofAddress_upper hb
  have hText : (rangeText first last).toList =
      (Text.upper first).toList ++ ':' :: (Text.upper last).toList := by
    simp [rangeText]
  have hRun := ne_colon_of_mem (spells_of_ofAddress hFirst)
  have hStop : ∀ k ∈ (':' :: (Text.upper last).toList).head?, (k != ':') = false := by
    rintro _ ⟨⟩
    rfl
  -- the first address has no colon, so the text is cut where the range has its own
  rw [denoted, hText, dropWhile_run hRun hStop, takeWhile_run hRun hStop]
  simp only [String.ofList_toList]
  rw [corners_eq_ok.mpr ⟨hFirst, hLast⟩]
  rfl

/-- Every mention can be read, and together they stand for the coordinates and no others. -/
structure Denote (reading : String → Except Failure (List Coordinate)) (ms : List String)
    (cs : List Coordinate) : Prop where
  readable : ∀ m ∈ ms, ∃ ds, reading m = .ok ds
  same : ∀ c, c ∈ cs ↔ ∃ m ∈ ms, ∃ ds, reading m = .ok ds ∧ c ∈ ds

/-- What a node mentions can be read and stands for the coordinates that the node names. -/
structure Conveys (reading : String → Except Failure (List Coordinate)) (expand : Bool)
    (g : Formula) : Prop where
  shown : g.IsShown expand
  readable : ∀ m, g.Displays expand m → ∃ ds, reading m = .ok ds
  same : ∀ c, g.Names none c ↔ ∃ m, g.Displays expand m ∧ ∃ ds, reading m = .ok ds ∧ c ∈ ds

variable {reading : String → Except Failure (List Coordinate)}

theorem asks_of_conveys (h : ∀ g ∈ f.nodes, g.Conveys reading expand)
    (hMem : ∀ m, m ∈ ms ↔ ∃ g ∈ f.nodes, g.Displays expand m) :
    f.Asks none c ↔ ∃ m ∈ ms, ∃ ds, reading m = .ok ds ∧ c ∈ ds := by
  constructor
  · rintro ⟨g, hg, hNames⟩
    obtain ⟨m, hDisplays, ds, hReads, hc⟩ := ((h g hg).same c).mp hNames
    exact ⟨m, (hMem m).mpr ⟨g, hg, hDisplays⟩, ds, hReads, hc⟩
  · rintro ⟨m, hm, ds, hReads, hc⟩
    obtain ⟨g, hg, hDisplays⟩ := (hMem m).mp hm
    exact ⟨g, hg, ((h g hg).same c).mpr ⟨m, hDisplays, ds, hReads, hc⟩⟩

theorem denote_of_conveys (h : ∀ g ∈ f.nodes, g.Conveys reading expand)
    (hReferences : f.references none = .ok cs) :
    ∃ ms, f.mentionedOnce expand = .ok ms ∧ Denote reading ms cs := by
  obtain ⟨ms, hMentions⟩ := mentionedOnce_of_shown fun g hg => (h g hg).shown
  obtain ⟨-, -, hMem⟩ := mentionedOnce_eq_ok hMentions
  refine ⟨ms, hMentions, fun m hm => ?_, fun c => ?_⟩
  · obtain ⟨g, hg, hDisplays⟩ := (hMem m).mp hm
    exact (h g hg).readable m hDisplays
  · rw [mem_references f hReferences, asks_of_conveys h hMem]

theorem conveys_of_own {own : List String} (hOwn : g.ownMentions expand = .ok own)
    (hReadable : ∀ m ∈ own, ∃ ds, reading m = .ok ds)
    (hSame : ∀ c, g.Names none c ↔ ∃ m ∈ own, ∃ ds, reading m = .ok ds ∧ c ∈ ds) :
    g.Conveys reading expand := by
  have hDisplays (m : String) : g.Displays expand m ↔ m ∈ own := by simp [Displays, hOwn]
  refine ⟨⟨own, hOwn⟩, fun m hm => hReadable m ((hDisplays m).mp hm), fun c => ?_⟩
  simp only [hDisplays]
  exact hSame c

theorem conveys_of_mention {ds : List Coordinate} (hOwn : g.ownMentions expand = .ok [m])
    (hReads : reading m = .ok ds) (hNames : ∀ c, g.Names none c ↔ c ∈ ds) :
    g.Conveys reading expand := by
  apply conveys_of_own hOwn
  · simp [hReads]
  · simp [hReads, hNames]

theorem conveys_of_silent (hOwn : g.ownMentions expand = .ok []) (hNames : ∀ c, ¬ g.Names none c) :
    g.Conveys reading expand := by
  apply conveys_of_own hOwn
  · exact List.forall_mem_nil _
  · simp [hNames]

def IsPlaced (g : Formula) : Prop := ∀ a ∈ g.ownAddresses, ∃ c, Coordinate.ofAddress a = .ok c

theorem names_cell {address : String} {a : Coordinate} (h : Coordinate.ofAddress address = .ok a) :
    (cell address).Names none c ↔ c ∈ [a] := by
  rw [Names, h, List.mem_singleton, Except.ok.injEq, eq_comm]

theorem names_range {a b : Coordinate} (h : corners first last = .ok (a, b)) :
    (range first last).Names none c ↔ c ∈ Coordinate.rectangle a b := by
  simp [Names, h, exceeds]

theorem IsPlaced.corners (h : (range first last).IsPlaced) :
    ∃ a b, Formula.corners first last = .ok (a, b) := by
  obtain ⟨a, ha⟩ := h first List.mem_cons_self
  obtain ⟨b, hb⟩ := h last (List.mem_cons_of_mem first List.mem_cons_self)
  exact ⟨a, b, corners_eq_ok.mpr ⟨ha, hb⟩⟩

theorem IsPlaced.conveys_members (h : g.IsPlaced) : g.Conveys named true := by
  cases g with
  | cell address =>
    obtain ⟨a, ha⟩ := h address List.mem_cons_self
    exact conveys_of_mention rfl (named_of_ofAddress (ofAddress_upper ha)) fun c => names_cell ha
  | range first last =>
    obtain ⟨a, b, hCorners⟩ := h.corners
    have hRead : ∀ c ∈ Coordinate.rectangle a b, named c.address = .ok [c] := by
      intro c hc
      have hNames : (range first last).Names none c := (names_range hCorners).mpr hc
      exact named_of_ofAddress (Coordinate.ofAddress_address hNames.isAddressable)
    have hOwn : (range first last).ownMentions true =
        .ok ((Coordinate.rectangle a b).map (·.address)) := by
      rw [ownMentions_range, hCorners]
      rfl
    apply conveys_of_own hOwn
    · intro m hm
      obtain ⟨c, hc, rfl⟩ := List.mem_map.mp hm
      exact ⟨[c], hRead c hc⟩
    · intro c
      rw [names_range hCorners]
      constructor
      · intro hc
        exact ⟨c.address, List.mem_map_of_mem hc, [c], hRead c hc, List.mem_cons_self⟩
      · rintro ⟨m, hm, ds, hReads, hc⟩
        obtain ⟨d, hd, rfl⟩ := List.mem_map.mp hm
        rw [hRead d hd, Except.ok.injEq] at hReads
        rw [← hReads, List.mem_singleton] at hc
        exact hc ▸ hd
  | _ => exact conveys_of_silent rfl fun c => id

theorem IsPlaced.conveys_corners (h : g.IsPlaced) : g.Conveys denoted false := by
  cases g with
  | cell address =>
    obtain ⟨a, ha⟩ := h address List.mem_cons_self
    exact conveys_of_mention rfl (denoted_of_ofAddress (ofAddress_upper ha)) fun c => names_cell ha
  | range first last =>
    obtain ⟨a, b, hCorners⟩ := h.corners
    exact conveys_of_mention rfl (denoted_rangeText hCorners) fun c => names_range hCorners
  | _ => exact conveys_of_silent rfl fun c => id

theorem isPlaced_of_parse {text : String} (hParse : parse text = .ok f)
    (hRows : ∀ a ∈ f.addresses, Coordinate.RowIsWellFormed a) : ∀ g ∈ f.nodes, g.IsPlaced := by
  intro g hg a ha
  have hMem : a ∈ f.addresses := List.mem_flatMap.mpr ⟨g, hg, ha⟩
  have hSpells := (isSpelled_of_parse hParse).spells_of_mem_addresses hMem
  exact Coordinate.ofAddress_of_spells hSpells (hRows a hMem)

/-- What a formula mentions and what its reference walk lists are the same coordinates. -/
theorem mentions_denote_references {text : String} (hParse : parse text = .ok f)
    (hRows : ∀ a ∈ f.addresses, Coordinate.RowIsWellFormed a) :
    ∃ cs, f.references none = .ok cs ∧
      (∃ ms, f.mentionedOnce true = .ok ms ∧ Denote named ms cs) ∧
      ∃ ms, f.mentionedOnce false = .ok ms ∧ Denote denoted ms cs := by
  have hPlaced := isPlaced_of_parse hParse hRows
  have hReadable : f.IsReadable := fun a ha column row hSplit => (hRows a ha column row hSplit).1
  obtain ⟨cs, hReferences⟩ : ∃ cs, f.references none = .ok cs := hReadable.references_ok
  refine ⟨cs, hReferences, ?_, ?_⟩
  · exact denote_of_conveys (fun g hg => (hPlaced g hg).conveys_members) hReferences
  · exact denote_of_conveys (fun g hg => (hPlaced g hg).conveys_corners) hReferences

/-- A cell in two spellings, one of them also in a range from the lower corner to the upper. -/
def respelledReferences : Formula :=
  .binary .add (.call "SUM" [.range "b2" "A1"])
    (.binary .multiply (.cell "c03") (.negative (.cell "a1")))

theorem respelledReferences_denoted :
    ∃ cs, respelledReferences.references none = .ok cs ∧
      (∃ ms, respelledReferences.mentionedOnce true = .ok ms ∧ Denote named ms cs) ∧
      ∃ ms, respelledReferences.mentionedOnce false = .ok ms ∧ Denote denoted ms cs := by
  have hParse : parse "=SUM(b2:A1)+c03*-a1" = .ok respelledReferences := by cbv
  apply mentions_denote_references hParse
  decide

end Formula
end Spreadsheet
