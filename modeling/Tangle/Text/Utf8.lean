import Tangle.Text

/-!
# UTF-8

Documents are read whatever their bytes are: each maximal part that cannot belong to a character
becomes one replacement character. Configuration files have to be valid.
-/

namespace Tangle.Text

/-- The UTF-8 bytes of a text. -/
def toBytes (s : Text) : List UInt8 := s.flatMap String.utf8EncodeChar

theorem toBytes_append (s t : Text) : toBytes (s ++ t) = toBytes s ++ toBytes t :=
  List.flatMap_append

/-- How many bytes a text takes in UTF-8. -/
def byteLength (s : Text) : Nat := s.foldr (fun c bytes => c.utf8Size + bytes) 0

theorem byteLength_append (s t : Text) : byteLength (s ++ t) = byteLength s + byteLength t := by
  induction s with
  | nil => exact (Nat.zero_add _).symm
  | cons c s ih => exact (congrArg (c.utf8Size + ·) ih).trans (Nat.add_assoc ..).symm

/-- What a byte that is not ASCII says about the character it begins: how many bytes follow, its
share of the code point, and the range of the byte right behind it. -/
def leadByte? (b : UInt8) : Option (Nat × Nat × UInt8 × UInt8) :=
  if 0xc2 ≤ b && b ≤ 0xdf then some (1, b.toNat - 0xc0, 0x80, 0xbf)
  else if b = 0xe0 then some (2, 0, 0xa0, 0xbf)
  else if b = 0xed then some (2, 0xd, 0x80, 0x9f)
  else if 0xe1 ≤ b && b ≤ 0xef then some (2, b.toNat - 0xe0, 0x80, 0xbf)
  else if b = 0xf0 then some (3, 0, 0x90, 0xbf)
  else if 0xf1 ≤ b && b ≤ 0xf3 then some (3, b.toNat - 0xf0, 0x80, 0xbf)
  else if b = 0xf4 then some (3, 4, 0x80, 0x8f)
  else none

/-- Reads `n` more bytes of a character whose code point so far is `value`. The next byte has to lie
between `low` and `high`; the rest begins at the first byte that does not fit. -/
def continueChar (n value : Nat) (low high : UInt8) (bytes : List UInt8) :
    Option Char × List UInt8 :=
  match n, bytes with
  | 0, bytes => (some (Char.ofNat value), bytes)
  | _ + 1, [] => (none, [])
  | n + 1, b :: bytes =>
    if low ≤ b && b ≤ high then continueChar n (value * 64 + (b.toNat - 0x80)) 0x80 0xbf bytes
    else (none, b :: bytes)

/-- Reads the character that begins with `b`; none if the bytes make up no character. -/
def readChar (b : UInt8) (bytes : List UInt8) : Option Char × List UInt8 :=
  if b < 0x80 then (some (Char.ofNat b.toNat), bytes)
  else
    match leadByte? b with
    | none => (none, bytes)
    | some (n, value, low, high) => continueChar n value low high bytes

theorem continueChar_length_le (n value : Nat) (low high : UInt8) (bytes : List UInt8) :
    (continueChar n value low high bytes).2.length ≤ bytes.length := by
  fun_induction continueChar n value low high bytes with
  | case1 => simp
  | case2 => simp
  | case3 value low high n b bytes _ ih => exact Nat.le_trans ih (Nat.le_succ _)
  | case4 => simp

theorem readChar_length_le (b : UInt8) (bytes : List UInt8) :
    (readChar b bytes).2.length ≤ bytes.length := by
  unfold readChar
  split
  · simp
  · split
    · simp
    · exact continueChar_length_le ..

/-- The characters of a sequence of bytes, none for a part that makes up no character. -/
def chars (bytes : List UInt8) : List (Option Char) :=
  match bytes with
  | [] => []
  | b :: bytes => (readChar b bytes).1 :: chars (readChar b bytes).2
termination_by bytes.length
decreasing_by exact Nat.lt_succ_of_le (readChar_length_le b bytes)

/-- The text of a sequence of bytes, with replacement characters where it is not valid. -/
def ofBytesLossy (bytes : List UInt8) : Text := (chars bytes).map fun c => c.getD '\ufffd'

/-- The text of a valid sequence of bytes. -/
def ofBytes? (bytes : List UInt8) : Option Text := (chars bytes).mapM id

end Tangle.Text
