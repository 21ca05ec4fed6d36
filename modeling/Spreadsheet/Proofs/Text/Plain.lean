import Spreadsheet.Text.Blank
import Spreadsheet.Text.Utf8
import Mathlib

/-!
# Plain text

Plain characters are the printable ones of seven bits. A text of them has a byte for each character
and is read back from these bytes, and it has no line break, so that lines of plain text are told
apart again where a break ends each of them.
-/

set_option autoImplicit false

namespace Spreadsheet.Text

theorem toNat_ofNat {n : Nat} (h : n.isValidChar) : (Char.ofNat n).toNat = n := by
  rw [Char.ofNat, dif_pos h]
  rfl

def IsPlain (c : Char) : Prop := 0x20 ≤ c.toNat ∧ c.toNat ≤ 0x7e

instance (c : Char) : Decidable (IsPlain c) := inferInstanceAs (Decidable (_ ∧ _))

def ArePlain (cs : List Char) : Prop := ∀ c ∈ cs, IsPlain c

instance (cs : List Char) : Decidable (ArePlain cs) := List.decidableBAll IsPlain cs

variable {c : Char} {cs ds rest : List Char}

theorem arePlain_nil : ArePlain [] := List.forall_mem_nil _

theorem arePlain_cons : ArePlain (c :: cs) ↔ IsPlain c ∧ ArePlain cs := List.forall_mem_cons

theorem arePlain_append : ArePlain (cs ++ ds) ↔ ArePlain cs ∧ ArePlain ds :=
  List.forall_mem_append

/-! ## Bytes -/

def byteOf (c : Char) : UInt8 := UInt8.ofNat c.toNat

theorem toNat_byteOf (h : c.toNat < 0x80) : (byteOf c).toNat = c.toNat := by
  rw [byteOf, UInt8.toNat_ofNat']
  omega

theorem toList_loop (bs : ByteArray) (i : Nat) (r : List UInt8) :
    ByteArray.toList.loop bs i r = r.reverse ++ bs.data.toList.drop i := by
  induction i, r using ByteArray.toList.loop.induct bs with
  | case1 i r h ih =>
    have hSize : i < bs.data.toList.length := h
    rw [ByteArray.toList.loop, if_pos h, ih, List.drop_eq_getElem_cons hSize]
    have hGet : bs.get! i = bs.data.toList[i] := by
      change bs.data[i]! = _
      rw [getElem!_pos bs.data i h, Array.getElem_toList]
    rw [hGet, List.reverse_cons, List.append_assoc, List.singleton_append]
  | case2 i r h =>
    have hSize : bs.data.toList.length ≤ i := Nat.le_of_not_lt h
    rw [ByteArray.toList.loop, if_neg h, List.drop_eq_nil_of_le hSize, List.append_nil]

theorem encodeUtf8_ofList (cs : List Char) :
    encodeUtf8 (String.ofList cs) = cs.flatMap String.utf8EncodeChar := by
  rw [encodeUtf8, ByteArray.toList, toList_loop, String.toUTF8_eq_toByteArray,
    String.toByteArray_ofList, List.utf8Encode, List.toList_data_toByteArray]
  rfl

theorem encodeUtf8_eq_map (h : ∀ c ∈ cs, c.toNat < 0x80) :
    encodeUtf8 (String.ofList cs) = cs.map byteOf := by
  have hChar : ∀ c ∈ cs, String.utf8EncodeChar c = [byteOf c] := by
    intro c hc
    have hSmall := h c hc
    apply String.utf8EncodeChar_eq_singleton
    rw [Char.utf8Size_eq_one_iff, UInt32.le_iff_toNat_le]
    exact Nat.le_of_lt_succ hSmall
  rw [encodeUtf8_ofList, List.flatMap_congr hChar, ← List.map_eq_flatMap]

theorem decodeUtf8_cons {b : UInt8} (h : b < 0x80) (bs : List UInt8) :
    decodeUtf8 (b :: bs) = Char.ofNat b.toNat :: decodeUtf8 bs := by
  rw [decodeUtf8.eq_def]
  exact if_pos h

theorem decodeUtf8_map_byteOf (h : ∀ c ∈ cs, c.toNat < 0x80) :
    decodeUtf8 (cs.map byteOf) = cs := by
  induction cs with
  | nil => rw [List.map_nil, decodeUtf8]
  | cons c cs ih =>
    have hByte := toNat_byteOf (h c List.mem_cons_self)
    have hSmall : byteOf c < 0x80 := by
      rw [UInt8.lt_iff_toNat_lt, hByte]
      exact h c List.mem_cons_self
    rw [List.map_cons, decodeUtf8_cons hSmall, hByte, Char.ofNat_toNat,
      ih fun d hd => h d (List.mem_cons_of_mem c hd)]

/-! ## Lines -/

theorem IsPlain.isLineBreak (h : IsPlain c) : isLineBreak c = false := by
  obtain ⟨hLow, hHigh⟩ := h
  simp only [Text.isLineBreak, Bool.or_eq_false_iff, Bool.and_eq_false_iff,
    decide_eq_false_iff_not, beq_eq_false_iff_ne]
  omega

theorem splitLines_cons (h : IsPlain c) : splitLines (c :: cs) = consFirst c (splitLines cs) := by
  have hReturn : c ≠ '\r' := by
    rintro rfl
    exact absurd h (by decide)
  rw [splitLines, h.isLineBreak]
  · rfl
  · rintro _ rfl
    exact fun _ => hReturn rfl

theorem splitLines_line (h : ArePlain cs) :
    splitLines (cs ++ '\n' :: rest) = cs :: splitLines rest := by
  induction cs with
  | nil =>
    rw [List.nil_append, splitLines]
    · rfl
    · simp
  | cons c cs ih =>
    obtain ⟨hFirst, hRest⟩ := arePlain_cons.mp h
    rw [List.cons_append, splitLines_cons hFirst, ih hRest, consFirst]

end Spreadsheet.Text
