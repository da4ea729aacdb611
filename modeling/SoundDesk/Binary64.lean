/-!
# Binary64 — the finite doubles, and rounding to them

A double is kept as the integers that define it, so equal numbers are equal values and every operation is
the exact result, rounded once: `Binary64.nearest?` takes a fraction to the double next to it, and products,
quotients and powers of ten go through it.
-/

namespace SoundDesk

-- powers are those of the core library, whatever else is imported
attribute [local instance (high)] instPowNat

/-- What a double can hold: a significand of 53 bits, the first of them one unless the exponent is the
least. -/
def IsDouble (significand : Nat) (exponent : Int) : Prop :=
  significand < 2 ^ (53 : Nat) ∧ -1074 ≤ exponent ∧ exponent ≤ 971 ∧
    (2 ^ (52 : Nat) ≤ significand ∨ exponent = -1074)

instance (significand : Nat) (exponent : Int) : Decidable (IsDouble significand exponent) := by
  unfold IsDouble; infer_instance

/-- A finite double: `±significand · 2 ^ exponent`. -/
structure Binary64 where
  /-- The sign; a zero has one too. -/
  negative : Bool
  significand : Nat
  exponent : Int
  isDouble : IsDouble significand exponent
  deriving DecidableEq, Repr

namespace Binary64

/-- The zero of a sign. -/
def zero (negative : Bool) : Binary64 := ⟨negative, 0, -1074, by decide⟩

/-! ## Fractions -/

/-- The fraction `numerator / denominator`, which is not negative. -/
structure Fraction where
  numerator : Nat
  denominator : Nat

namespace Fraction

/-- The product of two fractions. -/
def times (p q : Fraction) : Fraction := ⟨p.numerator * q.numerator, p.denominator * q.denominator⟩

/-- The fraction upside down. -/
def inverse (p : Fraction) : Fraction := ⟨p.denominator, p.numerator⟩

/-- The power `base ^ power`, for a base that is not zero. -/
def power (base : Nat) (power : Int) : Fraction := ⟨base ^ power.toNat, base ^ (-power).toNat⟩

/-- The integer nearest to a fraction; halfway between two, the even one. -/
def toEven (p : Fraction) : Nat :=
  let whole := p.numerator / p.denominator
  match compare (2 * (p.numerator % p.denominator)) p.denominator with
  | .lt => whole
  | .eq => whole + whole % 2
  | .gt => whole + 1

/-- The least exponent from -1074 on for which the fraction is below `2 ^ (exponent + 53)`. -/
def exponent (p : Fraction) : Int :=
  let guess := (p.numerator.log2 : Int) - p.denominator.log2 - 53
  let scaled := p.times (power 2 (-guess))
  if p.numerator = 0 then -1074
  else max (-1074) (if scaled.numerator < scaled.denominator * 2 ^ (53 : Nat) then guess else guess + 1)

end Fraction

/-! ## Rounding -/

/-- **The double nearest to a fraction**, with a sign; halfway between two, the one with the even
significand.  There is none where the fraction rounds to `2 ^ 1024` or beyond. -/
def nearest? (negative : Bool) (p : Fraction) : Option Binary64 :=
  let rounded := (p.times (Fraction.power 2 (-p.exponent))).toEven
  let (significand, exponent) :=
    if rounded = 2 ^ (53 : Nat) then (2 ^ (52 : Nat), p.exponent + 1) else (rounded, p.exponent)
  if h : IsDouble significand exponent then some ⟨negative, significand, exponent, h⟩ else none

/-- A double without its sign. -/
def magnitude (x : Binary64) : Fraction := (Fraction.power 2 x.exponent).times ⟨x.significand, 1⟩

/-- The double nearest to `10 ^ n`. -/
def tenTo? (n : Nat) : Option Binary64 := nearest? false ⟨10 ^ n, 1⟩

/-- The product of two doubles, rounded. -/
def times? (x y : Binary64) : Option Binary64 :=
  nearest? (x.negative != y.negative) (x.magnitude.times y.magnitude)

/-- The quotient of two doubles, rounded. -/
def over? (x y : Binary64) : Option Binary64 :=
  nearest? (x.negative != y.negative) (x.magnitude.times y.magnitude.inverse)

/-- **A double times `10 ^ power`**, for a double below `2 ^ 64`.  The power of ten is itself a double, so
there is none above `10 ^ 308`; a power below `10 ^ -308` is taken in two steps, and below `10 ^ -616` nothing
is left. -/
def timesTenTo? (x : Binary64) (power : Int) : Option Binary64 := do
  if x.significand = 0 then return x
  else if 308 < power then none
  else if 0 ≤ power then x.times? (← tenTo? power.toNat)
  else if -308 ≤ power then x.over? (← tenTo? (-power).toNat)
  else if -616 ≤ power then (← x.over? (← tenTo? 308)).over? (← tenTo? (-power - 308).toNat)
  else return zero x.negative

end Binary64

end SoundDesk
