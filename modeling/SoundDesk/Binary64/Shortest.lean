import SoundDesk.Binary64

/-!
# Binary64/Shortest — the decimal that stands for a double

A double stands for every real that rounds to it.  `Binary64.shortest` is the decimal with the fewest digits
among these reals, and of those the nearest to the double.
-/

namespace SoundDesk

-- powers are those of the core library, whatever else is imported
attribute [local instance (high)] instPowNat

/-- The decimal `digits · 10 ^ exponent`. -/
structure Decimal where
  digits : Nat
  exponent : Int
  deriving DecidableEq, Repr

namespace Decimal

/-- Move at most `limit` zeros at the end of the digits into the exponent. -/
def strip : (limit : Nat) → Decimal → Decimal
  | 0, d => d
  | limit + 1, d => if d.digits % 10 = 0 then strip limit ⟨d.digits / 10, d.exponent + 1⟩ else d

end Decimal

namespace Binary64

/-- The number of decimal digits of a natural number. -/
def digitCount (n : Nat) : Nat := (Nat.toDigits 10 n).length

/-- The least `place` for which a fraction above zero is below `10 ^ place`. -/
def Fraction.place (p : Fraction) : Int :=
  if p.denominator ≤ p.numerator then digitCount (p.numerator / p.denominator)
  else 1 - (digitCount ((p.denominator - 1) / p.numerator) : Int)

/-- The reals that round to a double, in quarters of its last binary place. -/
structure Neighbourhood where
  low : Nat
  middle : Nat
  high : Nat
  /-- Both ends round to the double as well. -/
  closed : Bool
  deriving DecidableEq, Repr

/-- The neighbourhood of a double.  It ends halfway to the next double on each side, and the next one below
is only half as far away where the significand is the least of its exponent. -/
def neighbourhood (x : Binary64) : Neighbourhood where
  low := 4 * x.significand - (if x.significand = 2 ^ (52 : Nat) ∧ -1074 < x.exponent then 1 else 2)
  middle := 4 * x.significand
  high := 4 * x.significand + 2
  closed := x.significand % 2 = 0

namespace Neighbourhood

/-- The multiple of a step lies in the neighbourhood; `unit` is the size of a quarter in steps. -/
def contains (a : Neighbourhood) (unit : Fraction) (count : Nat) : Bool :=
  let point := count * unit.denominator
  if a.closed then a.low * unit.numerator ≤ point && point ≤ a.high * unit.numerator
  else a.low * unit.numerator < point && point < a.high * unit.numerator

/-- The multiple of a step that lies in the neighbourhood next to its middle: one of the two around the
middle, and the even one if they are equally near. -/
def multiple? (a : Neighbourhood) (unit : Fraction) : Option Nat :=
  let below := a.middle * unit.numerator / unit.denominator
  if a.contains unit below && a.contains unit (below + 1) then
    some (Fraction.toEven ⟨a.middle * unit.numerator, unit.denominator⟩)
  else if a.contains unit below then some below
  else if a.contains unit (below + 1) then some (below + 1)
  else none

end Neighbourhood

/-- The decimal next to a double among those with that many digits, if one of them rounds to it. -/
def withDigits? (x : Binary64) (count : Nat) : Option Decimal :=
  let exponent := x.magnitude.place - count
  let unit := (Fraction.power 2 (x.exponent - 2)).times (Fraction.power 10 (-exponent))
  (x.neighbourhood.multiple? unit).map fun digits => ⟨digits, exponent⟩

/-- All digits of a double. -/
def exact (x : Binary64) : Decimal :=
  ⟨x.significand * 2 ^ x.exponent.toNat * 5 ^ (-x.exponent).toNat, min x.exponent 0⟩

/-- **The decimal that stands for a double**: the fewest digits that round to it, without a zero at the
end. -/
def shortest (x : Binary64) : Decimal :=
  if x.significand = 0 then ⟨0, 0⟩
  else
    let found := (List.range 17).findSome? fun n => x.withDigits? (n + 1)
    Decimal.strip 17 (found.getD x.exact)

end Binary64

end SoundDesk
