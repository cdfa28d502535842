import Tangle.Decimal.Binary
import Tangle.Text

/-!
# The shortest decimal of a binary number

Every real number closer to a binary number than to its neighbours reads back as that number. Of the
decimals in that interval the shortest is looked for, one digit more at a time, and of two with the
same length the nearer one is taken.
-/

namespace Tangle.Decimal

/-- A positive number in the middle of the interval of numbers that round to it; the bounds and the
number itself have the common denominator `den`. -/
structure Interval where
  low : Nat
  value : Nat
  high : Nat
  den : Nat
  /-- Whether the bounds belong to the interval. -/
  closed : Bool

namespace Interval

def ofBinary (b : Binary) : Interval :=
  let (n, d) := Binary.power b.exponent
  let narrow := b.mantissa = Nat.pow 2 52 && b.exponent > Binary.minExponent
  { low := (4 * b.mantissa - (if narrow then 1 else 2)) * n
    value := 4 * b.mantissa * n
    high := (4 * b.mantissa + 2) * n
    den := 4 * d
    closed := b.mantissa % 2 = 0 }

/-- Whether `digits * 10 ^ exponent` lies in the interval. -/
def contains (i : Interval) (digits : Nat) (exponent : Int) : Bool :=
  let x := digits * Nat.pow 10 exponent.toNat * i.den
  let scale := Nat.pow 10 (-exponent).toNat
  if i.closed then i.low * scale ≤ x && x ≤ i.high * scale
  else i.low * scale < x && x < i.high * scale

/-- The exponent of the leading decimal digit. -/
def leading (i : Interval) : Int :=
  if i.den ≤ i.value then ((Nat.toDigits 10 (i.value / i.den)).length : Int) - 1
  else
    match (List.range 400).find? fun k => i.den ≤ i.value * Nat.pow 10 k with
    | some k => -(k : Int)
    | none => 0

/-- The best decimal of the interval with its last digit at `10 ^ exponent`. -/
def onGrid? (i : Interval) (exponent : Int) : Option Nat :=
  let num := i.value * Nat.pow 10 (-exponent).toNat
  let den := i.den * Nat.pow 10 exponent.toNat
  let below := num / den
  match i.contains below exponent, i.contains (below + 1) exponent with
  | true, true => some (if 2 * (num % den) ≤ den then below else below + 1)
  | true, false => some below
  | false, true => some (below + 1)
  | false, false => none

end Interval

/-- The shortest decimal that reads back as a positive number: digits and exponent. -/
def shortest (b : Binary) : Nat × Int :=
  let i := Interval.ofBinary b
  let found := (List.range 18).findSome? fun (k : Nat) =>
    let exponent := i.leading - (k : Int)
    (i.onGrid? exponent).map fun digits => (digits, exponent)
  found.getD (0, 0)

/-- A number in positional notation with at least one digit on either side of the point. -/
def positional (digits : Nat) (exponent : Int) : Text :=
  let ds := Nat.toDigits 10 digits
  let zeros n := List.replicate n '0'
  if 0 ≤ exponent then ds ++ (if digits = 0 then [] else zeros exponent.toNat) ++ ['.', '0']
  else
    let places := (-exponent).toNat
    if places < ds.length then
      ds.take (ds.length - places) ++ '.' :: ds.drop (ds.length - places)
    else '0' :: '.' :: zeros (places - ds.length) ++ ds

/-- The text of a binary number: its shortest decimal in positional notation. -/
def Binary.display (b : Binary) : Text :=
  if b.mantissa = 0 then ['0', '.', '0'] else positional (shortest b).1 (shortest b).2

end Tangle.Decimal
