import Spreadsheet.Proofs.Json.RoundTrip

/-!
# What is written stays on its line

Whatever is written in the style of a line, be it a double or a dictionary whose keys are no texts,
is made of plain characters only, so it has no break of its own.
-/

set_option autoImplicit false

namespace Spreadsheet

open Text

namespace Decimal

theorem arePlain_digits (n : Nat) : ArePlain (digits n) := fun c hc =>
  Json.isPlain_of_isDigit (areDigits_digits n c hc)

theorem arePlain_zeros (n : Nat) : ArePlain (List.replicate n '0') := by
  intro c hc
  rw [List.eq_of_mem_replicate hc]
  decide

theorem arePlain_exponentText (x : Int) : ArePlain (exponentText x) := by
  have hSign : IsPlain (if x < 0 then '-' else '+') := by split_ifs <;> decide
  rw [exponentText, arePlain_cons, arePlain_cons, padded, arePlain_append]
  exact ⟨by decide, hSign, arePlain_zeros _, arePlain_digits _⟩

theorem Layout.arePlain_write (l : Layout) {ds : List Char} (h : ArePlain ds) (point : Int) :
    ArePlain (l.write ds point) := by
  have hPart {part : List Char} (hSubset : part ⊆ ds) : ArePlain part := fun c hc => h c (hSubset hc)
  have hFilled (count : Nat) : ArePlain (ds ++ List.replicate count '0') :=
    arePlain_append.mpr ⟨h, arePlain_zeros count⟩
  unfold Layout.write
  dsimp only
  split_ifs
  · rw [List.cons_append, List.cons_append, arePlain_cons, arePlain_cons, arePlain_append]
    exact ⟨by decide, by decide, arePlain_zeros _, h⟩
  · exact arePlain_append.mpr ⟨hFilled _, by decide⟩
  · exact arePlain_append.mpr ⟨hFilled _, arePlain_nil⟩
  · rw [arePlain_append, arePlain_cons]
    exact ⟨hPart (List.take_subset _ _), by decide, hPart (List.drop_subset _ _)⟩
  · split
    · exact arePlain_cons.mpr ⟨h _ List.mem_cons_self, arePlain_exponentText _⟩
    · rename_i d r _
      obtain ⟨hFirst, hRest⟩ := arePlain_cons.mp h
      rw [List.cons_append, List.cons_append, arePlain_cons, arePlain_cons, arePlain_append]
      exact ⟨hFirst, by decide, hRest, arePlain_exponentText _⟩
    · exact arePlain_nil

theorem trimZeros_subset (cs : List Char) : trimZeros cs ⊆ cs := by
  intro c hc
  rw [trimZeros, List.mem_reverse] at hc
  exact List.mem_reverse.mp (List.dropWhile_subset _ hc)

theorem arePlain_signed (negative : Bool) {cs : List Char} (h : ArePlain cs) :
    ArePlain (signed negative cs).toList := by
  rw [signed, String.toList_ofList]
  split_ifs
  · exact arePlain_cons.mpr ⟨by decide, h⟩
  · exact h

theorem arePlain_floatText (x : Float) : ArePlain (floatText x).toList := by
  rw [floatText]
  split
  · decide
  · exact arePlain_signed _ (by decide)
  · split_ifs
    · exact arePlain_signed _ (by decide)
    · refine arePlain_signed _ (fullLayout.arePlain_write (fun c hc => ?_) _)
      exact arePlain_digits _ c (trimZeros_subset _ hc)

end Decimal

namespace Json

/-- What a computation gives, if it gives something, has a property. -/
def Gives {α ε : Type} (x : Except ε α) (p : α → Prop) : Prop := ∀ a, x = .ok a → p a

section Gives

variable {α β ε : Type} {x : Except ε α} {f : α → Except ε β} {p : α → Prop} {q : β → Prop}

theorem gives_ok {a : α} (h : p a) : Gives (.ok a : Except ε α) p := by
  rintro _ ⟨⟩
  exact h

theorem gives_error (fault : ε) : Gives (.error fault) p := nofun

theorem Gives.bind (hx : Gives x p) (hf : ∀ a, x = .ok a → p a → Gives (f a) q) :
    Gives (x >>= f) q := by
  cases x with
  | error fault => exact gives_error fault
  | ok a => exact hf a rfl (hx a rfl)

theorem gives_mapM {as : List α} (h : ∀ a ∈ as, Gives (f a) q) :
    Gives (as.mapM f) fun bs => ∀ b ∈ bs, q b := by
  induction as with
  | nil => exact gives_ok (List.forall_mem_nil _)
  | cons a as ih =>
    obtain ⟨hFirst, hRest⟩ := List.forall_mem_cons.mp h
    rw [List.mapM_cons]
    exact hFirst.bind fun b _ hb => (ih hRest).bind fun bs _ hbs =>
      gives_ok (List.forall_mem_cons.mpr ⟨hb, hbs⟩)

end Gives

theorem arePlain_writeBool (b : Bool) : ArePlain (writeBool b) := by cases b <;> decide

theorem arePlain_writeFloat (x : Float) : ArePlain (writeFloat x) := by
  rw [writeFloat]
  split
  · decide
  · split_ifs <;> decide
  · exact Decimal.arePlain_floatText x

theorem arePlain_writeInt (n : Int) : Gives (writeInt n) ArePlain := by
  rw [writeInt]
  split_ifs with hWritable
  · exact gives_ok (isTextOf_intText hWritable).plain
  · exact gives_error _

theorem arePlain_quoted {cs : List Char} (h : ArePlain cs) : ArePlain ('"' :: cs ++ ['"']) := by
  rw [List.cons_append, arePlain_cons, arePlain_append]
  exact ⟨by decide, h, by decide⟩

theorem arePlain_writeKey (k : Key) : Gives (writeKey k) ArePlain := by
  cases k with
  | null => exact gives_ok (arePlain_writeText _)
  | bool b => exact gives_ok (arePlain_quoted (arePlain_writeBool b))
  | float x => exact gives_ok (arePlain_quoted (arePlain_writeFloat x))
  | text s => exact gives_ok (arePlain_writeText s)
  | int n => exact (arePlain_writeInt n).bind fun _ _ h => gives_ok (arePlain_quoted h)

theorem arePlain_writeEntry {entry : Key × Except WriteFault (List Char)}
    (h : Gives entry.2 ArePlain) : Gives (writeEntry entry) ArePlain := by
  refine (arePlain_writeKey entry.1).bind fun key _ hKey => h.bind fun text _ hText => gives_ok ?_
  rw [arePlain_append, arePlain_cons, arePlain_cons]
  exact ⟨hKey, by decide, by decide, hText⟩

theorem arePlain_enclose {texts : List (List Char)} {opening closing : Char} (d : Nat)
    (hOpening : IsPlain opening) (hClosing : IsPlain closing)
    (hTexts : ∀ text ∈ texts, ArePlain text) :
    ArePlain (Style.line.enclose d opening closing texts) := by
  by_cases hEmpty : texts = []
  · subst hEmpty
    exact arePlain_cons.mpr ⟨hOpening, arePlain_cons.mpr ⟨hClosing, arePlain_nil⟩⟩
  · rw [enclose_line opening closing hEmpty, arePlain_cons, arePlain_append]
    exact ⟨hOpening, arePlain_intercalate hTexts, arePlain_cons.mpr ⟨hClosing, arePlain_nil⟩⟩

/-- Entries that are put in order are those that there were. -/
theorem gives_arrange {α : Type} (style : Style) (entries : List (Key × α)) :
    Gives (style.arrange entries) fun arranged => ∀ entry ∈ arranged, entry ∈ entries := by
  rw [Style.arrange, Key.sortEntries]
  split_ifs
  · cases Key.firstUnordered (entries.map (·.1)) with
    | none => exact gives_ok fun entry hEntry => List.mem_mergeSort.mp hEntry
    | some pair => exact gives_error _
  · exact gives_ok fun _ => id

mutual

/-- The text of a value is plain, whatever the value is. -/
theorem arePlain_write : ∀ (v : Value) (d : Nat), Gives (write .line d v) ArePlain
  | .null, _ => gives_ok (by decide)
  | .bool b, _ => gives_ok (arePlain_writeBool b)
  | .int n, _ => arePlain_writeInt n
  | .float x, _ => gives_ok (arePlain_writeFloat x)
  | .text s, _ => gives_ok (arePlain_writeText s)
  | .list vs, d => (arePlain_writeAll vs (d + 1)).bind fun _ _ hTexts =>
    gives_ok (arePlain_enclose d (by decide) (by decide) hTexts)
  | .dict es, d => by
    refine (gives_arrange _ _).bind fun arranged _ hArranged => ?_
    have hTexts : Gives (arranged.mapM writeEntry) fun texts => ∀ text ∈ texts, ArePlain text :=
      gives_mapM fun entry hEntry =>
        arePlain_writeEntry (arePlain_writeValues es (d + 1) entry (hArranged entry hEntry))
    exact hTexts.bind fun _ _ h => gives_ok (arePlain_enclose d (by decide) (by decide) h)

theorem arePlain_writeAll : ∀ (vs : List Value) (d : Nat),
    Gives (writeAll .line d vs) fun texts => ∀ text ∈ texts, ArePlain text
  | [], _ => gives_ok (List.forall_mem_nil _)
  | v :: vs, d => (arePlain_write v d).bind fun _ _ hFirst =>
    (arePlain_writeAll vs d).bind fun _ _ hRest =>
      gives_ok (List.forall_mem_cons.mpr ⟨hFirst, hRest⟩)

theorem arePlain_writeValues : ∀ (es : List (Key × Value)) (d : Nat),
    ∀ entry ∈ writeValues .line d es, Gives entry.2 ArePlain
  | [], _ => List.forall_mem_nil _
  | (_, v) :: es, d => List.forall_mem_cons.mpr ⟨arePlain_write v d, arePlain_writeValues es d⟩

end

end Json
end Spreadsheet
