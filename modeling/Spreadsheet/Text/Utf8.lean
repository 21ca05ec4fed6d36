/-!
# Reading bytes as text

Bytes that form no character are read as the replacement character: one for each byte that cannot
start a character, and one for each longest beginning of a character that breaks off.
-/

set_option autoImplicit false

namespace Spreadsheet.Text

def replacement : Char := Char.ofNat 0xfffd

/-- A byte that continues a character. -/
def isTail (b : UInt8) : Bool := 0x80 ≤ b && b ≤ 0xbf

/-- Whether `b` may follow the first byte `a` of a character of three or four bytes. -/
def isSecond (a b : UInt8) : Bool :=
  if a == 0xe0 then 0xa0 ≤ b && b ≤ 0xbf
  else if a == 0xed then 0x80 ≤ b && b ≤ 0x9f
  else if a == 0xf0 then 0x90 ≤ b && b ≤ 0xbf
  else if a == 0xf4 then 0x80 ≤ b && b ≤ 0x8f
  else isTail b

/-- The character with the payload of the given bytes, the first of them already masked. -/
def charOfBytes (lead : Nat) (tails : List UInt8) : Char :=
  Char.ofNat (tails.foldl (fun n b => n * 64 + b.toNat % 64) lead)

/-- Reads bytes as text and never fails. -/
def decodeUtf8 : List UInt8 → List Char
  | [] => []
  | a :: r =>
    if a < 0x80 then Char.ofNat a.toNat :: decodeUtf8 r
    else if 0xc2 ≤ a && a ≤ 0xdf then
      match r with
      | b :: r' =>
        if isTail b then charOfBytes (a.toNat % 32) [b] :: decodeUtf8 r'
        else replacement :: decodeUtf8 (b :: r')
      | [] => [replacement]
    else if 0xe0 ≤ a && a ≤ 0xef then
      match r with
      | b :: c :: r' =>
        if !isSecond a b then replacement :: decodeUtf8 (b :: c :: r')
        else if !isTail c then replacement :: decodeUtf8 (c :: r')
        else charOfBytes (a.toNat % 16) [b, c] :: decodeUtf8 r'
      | [b] => if isSecond a b then [replacement] else replacement :: decodeUtf8 [b]
      | [] => [replacement]
    else if 0xf0 ≤ a && a ≤ 0xf4 then
      match r with
      | b :: c :: d :: r' =>
        if !isSecond a b then replacement :: decodeUtf8 (b :: c :: d :: r')
        else if !isTail c then replacement :: decodeUtf8 (c :: d :: r')
        else if !isTail d then replacement :: decodeUtf8 (d :: r')
        else charOfBytes (a.toNat % 8) [b, c, d] :: decodeUtf8 r'
      | [b, c] =>
        if !isSecond a b then replacement :: decodeUtf8 [b, c]
        else if !isTail c then replacement :: decodeUtf8 [c]
        else [replacement]
      | [b] => if isSecond a b then [replacement] else replacement :: decodeUtf8 [b]
      | [] => [replacement]
    else replacement :: decodeUtf8 r
  termination_by bs => bs.length
  decreasing_by all_goals simp_all <;> omega

/-- The bytes of a text. -/
def encodeUtf8 (s : String) : List UInt8 := s.toUTF8.toList

end Spreadsheet.Text
