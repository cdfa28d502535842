/-!
# Binary floating-point numbers

Non-negative numbers with 53 significant bits and the exponent range of double precision, and the
number nearest to a ratio. All of it is exact arithmetic on natural numbers.
-/

namespace Tangle.Decimal

/-- The number `mantissa * 2 ^ exponent`. -/
structure Binary where
  mantissa : Nat
  exponent : Int
  deriving DecidableEq, Repr

namespace Binary

/-- The exponent of the smallest steps there are. -/
def minExponent : Int := -1074

/-- The exponent of the largest numbers. -/
def maxExponent : Int := 971

/-- Two to the power `e` as a numerator and a denominator. -/
def power (e : Int) : Nat × Nat := (Nat.pow 2 e.toNat, Nat.pow 2 (-e).toNat)

/-- The natural number nearest to a ratio; of two that are as near the even one. -/
def roundDiv (num den : Nat) : Nat :=
  let floor := num / den
  let twice := 2 * (num % den)
  if twice < den then floor
  else if twice = den then floor + floor % 2
  else floor + 1

/-- The number nearest to a ratio, if it is in range. -/
def ofRatio (num den : Nat) : Option Binary :=
  if num = 0 then some ⟨0, minExponent⟩
  else
    let guess : Int := (num.log2 : Int) - den.log2
    let (n, d) := power guess
    let log := if num * d < den * n then guess - 1 else guess
    let exponent := max (log - 52) minExponent
    let (n, d) := power exponent
    let mantissa := roundDiv (num * d) (den * n)
    let b : Binary :=
      if mantissa = Nat.pow 2 53 then ⟨Nat.pow 2 52, exponent + 1⟩ else ⟨mantissa, exponent⟩
    if b.exponent ≤ maxExponent then some b else none

end Binary

end Tangle.Decimal
