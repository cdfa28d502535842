import Tangle.Text

/-!
# Digits

Numbers in a base of at most sixteen.
-/

namespace Tangle.Text

/-- The value of a hexadecimal digit. -/
def hexDigit? (c : Char) : Option Nat :=
  if '0' ≤ c && c ≤ '9' then some (c.toNat - '0'.toNat)
  else if 'a' ≤ c && c ≤ 'f' then some (c.toNat - 'a'.toNat + 10)
  else if 'A' ≤ c && c ≤ 'F' then some (c.toNat - 'A'.toNat + 10)
  else none

/-- The value of a digit, which has to be below the base. -/
def digit? (base : Nat) (c : Char) : Option Nat := (hexDigit? c).filter (· < base)

/-- The number that digits write; nothing if one of the characters is no digit. -/
def number? (base : Nat) (s : Text) : Option Nat :=
  s.foldlM (fun n c => (digit? base c).map (n * base + ·)) 0

end Tangle.Text
