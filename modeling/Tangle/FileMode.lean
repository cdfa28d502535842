import Tangle.Text

/-!
# File modes

The permission bits of a created file, at most twelve of them, written in octal. A numeral may carry
the marker `0o` and a plus sign, and it is read in 32 bits: a larger one is not taken for a mode.
-/

namespace Tangle

structure FileMode where
  bits : Nat
  bits_le : bits ≤ 0o7777 := by decide
  deriving DecidableEq, Repr

inductive FileModeError where
  /-- The text is not an octal numeral of at most 32 bits. -/
  | notOctal (text : Text)
  | outOfRange (bits : Nat)
  deriving DecidableEq, Repr

/-- The octal digits of a number. -/
def octalDigits (n : Nat) : Text := Nat.toDigits 8 n

def FileModeError.message : FileModeError → String
  | .notOctal text =>
    s!"'{String.ofList text}' is not an octal file mode (expected something like 0600)"
  | .outOfRange bits => s!"file mode {String.ofList (octalDigits bits)} exceeds 7777"

namespace FileMode

/-- Reading and writing for the owner alone. -/
def ownerOnly : FileMode := ⟨0o600, by decide⟩

instance : Inhabited FileMode := ⟨ownerOnly⟩

def ofBits (bits : Nat) : Except FileModeError FileMode :=
  if h : bits ≤ 0o7777 then .ok ⟨bits, h⟩ else .error (.outOfRange bits)

/-- The value of an octal digit. -/
def octalDigit? (c : Char) : Option Nat :=
  if '0' ≤ c && c ≤ '7' then some (c.toNat - '0'.toNat) else none

/-- Reads octal digits behind the value `n`, which has to stay within 32 bits. -/
def readOctal (n : Nat) : Text → Option Nat
  | [] => some n
  | c :: s =>
    match octalDigit? c with
    | none => none
    | some d => if n * 8 + d < UInt32.size then readOctal (n * 8 + d) s else none

/-- Reads an octal numeral: digits, at least one, behind an optional plus sign. -/
def readNumeral : Text → Option Nat
  | [] => none
  | ['+'] => none
  | '+' :: s => readOctal 0 s
  | s => readOctal 0 s

/-- Reads a file mode with blanks around it and `0o` in front of it or not. -/
def parse (text : Text) : Except FileModeError FileMode :=
  let trimmed := text.trim
  match readNumeral ((Text.dropPrefix? ['0', 'o'] trimmed).getD trimmed) with
  | none => .error (.notOctal text)
  | some bits => ofBits bits

/-- The mode in octal, with at least four digits. -/
def display (mode : FileMode) : Text :=
  List.replicate (4 - (octalDigits mode.bits).length) '0' ++ octalDigits mode.bits

end FileMode

end Tangle
