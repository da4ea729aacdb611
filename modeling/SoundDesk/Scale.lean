import SoundDesk.Error

/-!
# Scale — values carried linearly from one range to another

`rescale` clamps a value to its range and rounds its image to the nearest integer.  It is exact while the
product of two widths, taken four times, fits in a signed number of 128 bits; ranges close to the whole width
of a word go through floating point, and the result is clamped to the target range either way.

A sum or difference of words that is no word gives the computation up (`Word.exact`); it never wraps around.
-/

namespace SoundDesk

-- powers are those of the core library, whatever else is imported
attribute [local instance (high)] instPowNat

/-- The number fits in a signed word of 64 bits. -/
def IsWord (n : Int) : Prop := -(2 ^ (63 : Nat)) ≤ n ∧ n < 2 ^ (63 : Nat)

instance (n : Int) : Decidable (IsWord n) := inferInstanceAs (Decidable (_ ∧ _))

namespace Word

/-- **The word of a number**; where it does not fit, the computation is given up. -/
def exact (n : Int) : Except Abort Int64 := if IsWord n then .ok (.ofInt n) else .error .overflow

/-- The sum of two words. -/
def add (a b : Int64) : Except Abort Int64 := exact (a.toInt + b.toInt)

/-- The difference of two words. -/
def sub (a b : Int64) : Except Abort Int64 := exact (a.toInt - b.toInt)

end Word

/-- A range of values; the ends may stand in the wrong order. -/
structure Span where
  lo : Int64
  hi : Int64
  deriving DecidableEq, Repr

/-- How a value between two integers is rounded. -/
inductive Rounding where
  /-- The integer below. -/
  | below
  /-- The nearest integer; a half goes up. -/
  | nearest
  /-- The integer above. -/
  | above
  deriving DecidableEq, Repr

namespace Rounding

/-- The name of a rounding. -/
def name : Rounding → String
  | below => "Below"
  | nearest => "Nearest"
  | above => "Above"

/-- **The quotient** `num / den` for a positive `den`, rounded. -/
def divide (num den : Int) : Rounding → Int
  | below => num / den
  | nearest => (2 * num + den) / (2 * den)
  | above => -(-num / den)

end Rounding

namespace Scale

/-- The value of a range that is nearest to `x`. -/
def clamp (lo hi x : Int) : Int := if x < lo then lo else if hi < x then hi else x

/-- The word of a range that is nearest to `x`; a reversed range has none. -/
def clampWord (range : Span) (x : Int64) : Except Abort Int64 :=
  if range.hi < range.lo then .error .reversedRange
  else .ok (if x < range.lo then range.lo else if range.hi < x then range.hi else x)

/-- Four times the number fits in a signed number of 128 bits. -/
def fitsWide (num : Int) : Bool := -(2 ^ (127 : Nat)) ≤ 4 * num && 4 * num < 2 ^ (127 : Nat)

/-- `delta · width / span`, nearly, in floating point; all three are below `2 ^ 64`. -/
def approximate (delta width span : Nat) : Nat :=
  (delta.toUInt64.toFloat * (width.toUInt64.toFloat / span.toUInt64.toFloat)).round.toUInt64.toNat

/-- The distance from the start of the target range to the image of the point `delta` of a range of width
`span`. -/
def offset (delta width span : Int) : Int :=
  if fitsWide (delta * width) then Rounding.divide (delta * width) span .nearest
  else approximate delta.toNat width.toNat span.toNat

/-- **Carry a value** linearly from one range to another.  A source range without width goes to the start of
the target range; to a reversed target range there is no way. -/
def rescale (value : Int64) (source target : Span) : Except Abort Int64 :=
  if source.hi ≤ source.lo then .ok target.lo
  else if target.hi < target.lo then .error .reversedRange
  else
    let delta := clamp source.lo.toInt source.hi.toInt value.toInt - source.lo.toInt
    let reach := offset delta (target.hi.toInt - target.lo.toInt) (source.hi.toInt - source.lo.toInt)
    .ok (Int64.ofInt (clamp target.lo.toInt target.hi.toInt (target.lo.toInt + reach)))

end Scale

end SoundDesk
