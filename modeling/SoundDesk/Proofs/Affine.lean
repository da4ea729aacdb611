import SoundDesk.Proofs.Images

/-!
# Proofs/Affine — the clamped affine map between two ranges, and what its integers need

    value ──clamp──▸ delta ──· width──▸ product ──fits four times?──▸ ⌊product / span + 1/2⌋ ──clamp──▸ image
                                          └────────── else ──────────▸ an approximation ─────┘

Rounding doubles the product and adds the span to it, so a product that fits four times leaves room for every number on
the way (`Scale.exact_of_fitsWide`); the product of two widths that fits four times is enough for all values.  A wider
product is approximated, and whatever the approximation is, the last clamp leaves it in the target range
(`Scale.rescaleBy_mem`).
-/

namespace SoundDesk.Scale

variable {source target : Span} {value value' image image' : Int64}

/-! ## What the integers need -/

/-- **Nothing overflows** in 128 bits on the way to the image of a value by integers: the widths and the distance
from the start, their product and four times it, the numbers that the quotient is worked out from, and the sum. -/
structure Exact (source target : Span) (value : Int64) : Prop where
  span : IsWide source.width
  delta : IsWide (source.delta value)
  width : IsWide target.width
  product : IsWide (source.delta value * target.width)
  fourfold : IsWide (4 * (source.delta value * target.width))
  steps : ∀ n ∈ Rounding.nearest.steps (source.delta value * target.width) source.width, IsWide n
  sum : IsWide (target.lo.toInt + Rounding.divide (source.delta value * target.width) source.width .nearest)

theorem fitsWide_iff {num : Int} : fitsWide num = true ↔ IsWide (4 * num) := by
  rw [fitsWide, Bool.and_eq_true, decide_eq_true_iff, decide_eq_true_iff, IsWide]

theorem width_nonneg {r : Span} (h : r.lo ≤ r.hi) : 0 ≤ r.width := Int.sub_nonneg.mpr (Int64.le_iff_toInt_le.mp h)

/-- The width of a range needs one bit more than a word. -/
theorem width_lt (r : Span) : r.width < 2 ^ 64 := by
  have hhigh := r.hi.toInt_lt
  have hlow := r.lo.le_toInt
  rw [Span.width]
  omega

section
variable (hsource : source.lo < source.hi) (htarget : target.lo ≤ target.hi)
include hsource htarget

theorem product_nonneg (value : Int64) : 0 ≤ source.delta value * target.width :=
  Int.mul_nonneg (source.delta_mem (Int64.le_of_lt hsource) value).1 (width_nonneg htarget)

/-- The product of the widths is the largest that a value leads to. -/
theorem product_le (value : Int64) : source.delta value * target.width ≤ source.width * target.width :=
  Int.mul_le_mul_of_nonneg_right (source.delta_mem (Int64.le_of_lt hsource) value).2 (width_nonneg htarget)

theorem fitsWide_product (hfits : 4 * (source.width * target.width) < 2 ^ 127) (value : Int64) :
    fitsWide (source.delta value * target.width) = true := by
  have hlow := product_nonneg hsource htarget value
  have hhigh := product_le hsource htarget value
  rw [fitsWide_iff, IsWide]
  omega

/-- **The guard leaves room** for every number on the way. -/
theorem exact_of_fitsWide (h : fitsWide (source.delta value * target.width) = true) : Exact source target value := by
  obtain ⟨-, hfits⟩ := fitsWide_iff.mp h
  have hspan := Span.width_pos hsource
  have hwidth := width_nonneg htarget
  have hproduct := product_nonneg hsource htarget value
  obtain ⟨hlow, hhigh⟩ := source.delta_mem (Int64.le_of_lt hsource) value
  have hspan' := width_lt source
  have hwidth' := width_lt target
  have hstart := target.lo.le_toInt
  have hstart' := target.lo.toInt_lt
  have hquotient := Rounding.divide_mem hspan hwidth hlow hhigh .nearest
  exact {
    span := ⟨by omega, by omega⟩
    delta := ⟨by omega, by omega⟩
    width := ⟨by omega, by omega⟩
    product := ⟨by omega, by omega⟩
    fourfold := ⟨by omega, hfits⟩
    steps := Rounding.isWide_steps hspan hproduct (by omega) .nearest
    sum := ⟨by omega, by omega⟩ }

end

/-! ## Any approximation -/

/-- To carry a value from one range to another, with `approximation` for a product that does not fit. -/
def rescaleBy (approximation : Nat → Nat → Nat → Int) (value : Int64) (source target : Span) : Except Abort Int64 :=
  if source.hi ≤ source.lo then .ok target.lo
  else if target.hi < target.lo then .error .reversedRange
  else
    let delta := clamp source.lo.toInt source.hi.toInt value.toInt - source.lo.toInt
    let width := target.hi.toInt - target.lo.toInt
    let span := source.hi.toInt - source.lo.toInt
    let reach :=
      if fitsWide (delta * width) then Rounding.divide (delta * width) span .nearest
      else approximation delta.toNat width.toNat span.toNat
    .ok (Int64.ofInt (clamp target.lo.toInt target.hi.toInt (target.lo.toInt + reach)))

/-- A value is carried with an approximation in floating point. -/
theorem rescale_eq_rescaleBy (value : Int64) (source target : Span) :
    rescale value source target =
      rescaleBy (fun delta width span => approximate delta width span) value source target :=
  rfl

theorem clamp_mem {lo hi : Int} (h : lo ≤ hi) (x : Int) : lo ≤ clamp lo hi x ∧ clamp lo hi x ≤ hi := by
  rw [clamp]
  split
  · omega
  · split <;> omega

/-- **Whatever the approximation is**, the value is carried into the target range. -/
theorem rescaleBy_mem (hsource : source.lo < source.hi) (htarget : target.lo ≤ target.hi)
    (approximation : Nat → Nat → Nat → Int) (value : Int64) :
    ∃ image, rescaleBy approximation value source target = .ok image ∧ target.lo ≤ image ∧ image ≤ target.hi := by
  rw [rescaleBy, if_neg (Int64.not_le.mpr hsource), if_neg (Int64.not_lt.mpr htarget)]
  dsimp only
  refine ⟨_, rfl, ?_⟩
  generalize target.lo.toInt + _ = place
  obtain ⟨hlow, hhigh⟩ := clamp_mem (Int64.le_iff_toInt_le.mp htarget) place
  rw [Int64.le_iff_toInt_le, Int64.le_iff_toInt_le, Span.toInt_ofInt hlow hhigh]
  exact ⟨hlow, hhigh⟩

/-! ## The affine map -/

section
variable (hsource : source.lo < source.hi)
include hsource

/-- The rounded quotient is the integer nearest to the exact one. -/
theorem divide_eq_floor (target : Span) (value : Int64) :
    Rounding.divide (source.delta value * target.width) source.width .nearest =
      ⌊(source.delta value * target.width / source.width + 1 / 2 : ℚ)⌋ := by
  rw [Rounding.divide_eq_round (Span.width_pos hsource), Rounding.round]
  push_cast
  rfl

variable (htarget : target.lo ≤ target.hi) (hfits : 4 * (source.width * target.width) < 2 ^ 127)
include htarget hfits

/-- What is not above the start is carried to the start. -/
theorem rescale_first (hvalue : value ≤ source.lo) : rescale value source target = .ok target.lo := by
  obtain ⟨image, himage, -, -, hreach⟩ := rescale_run hsource htarget hfits value
  rw [Span.delta_of_le hvalue (Int64.le_of_lt hsource), Int.zero_mul, Rounding.divide_zero (Span.width_pos hsource),
    Int.add_zero] at hreach
  rw [himage, Int64.toInt_inj.mp hreach]

/-- What is not below the end is carried to the end. -/
theorem rescale_last (hvalue : source.hi ≤ value) : rescale value source target = .ok target.hi := by
  obtain ⟨image, himage, -, -, hreach⟩ := rescale_run hsource htarget hfits value
  have hend : target.lo.toInt + target.width = target.hi.toInt := add_sub_cancel _ _
  rw [Span.delta_of_ge hvalue (Int64.le_of_lt hsource), Int.mul_comm, Rounding.divide_mul (Span.width_pos hsource),
    hend] at hreach
  rw [himage, Int64.toInt_inj.mp hreach]

theorem rescale_mono (hle : value ≤ value') (h : rescale value source target = .ok image)
    (h' : rescale value' source target = .ok image') : image ≤ image' := by
  obtain ⟨there, hthere, -, -, hreach⟩ := rescale_run hsource htarget hfits value
  obtain ⟨there', hthere', -, -, hreach'⟩ := rescale_run hsource htarget hfits value'
  obtain rfl : there = image := Except.ok.inj (hthere.symm.trans h)
  obtain rfl : there' = image' := Except.ok.inj (hthere'.symm.trans h')
  have hdelta := source.delta_mono (Int64.le_of_lt hsource) hle
  have hproduct := Int.mul_le_mul_of_nonneg_right hdelta (width_nonneg htarget)
  rw [Int64.le_iff_toInt_le, hreach, hreach']
  exact Int.add_le_add_left (Rounding.divide_mono (Span.width_pos hsource) hproduct .nearest) _

end

/-- **Values are carried by the clamped affine map, rounded to the nearest integer**, if the product of the widths
fits four times: the image is at the nearest quotient and in the target range, the ends are carried to the ends, the
map is monotone, and no number on the way overflows in 128 bits.  For any ranges, the integers are used only where
none of their numbers overflows, and lead to the same image; and the image is in the target range, whatever the
approximation is that they are replaced with elsewhere. -/
theorem rescale_affine (hsource : source.lo < source.hi) (htarget : target.lo ≤ target.hi) :
    (4 * (source.width * target.width) < 2 ^ 127 →
      (∀ value, Exact source target value ∧ ∃ image, rescale value source target = .ok image ∧
        image.toInt = target.lo.toInt + ⌊(source.delta value * target.width / source.width + 1 / 2 : ℚ)⌋ ∧
        target.lo ≤ image ∧ image ≤ target.hi) ∧
      (∀ value ≤ source.lo, rescale value source target = .ok target.lo) ∧
      (∀ value ≥ source.hi, rescale value source target = .ok target.hi) ∧
      ∀ value value' image image', value ≤ value' → rescale value source target = .ok image →
        rescale value' source target = .ok image' → image ≤ image') ∧
    ∀ value,
      (fitsWide (source.delta value * target.width) = true → Exact source target value ∧
        offset (source.delta value) target.width source.width =
          ⌊(source.delta value * target.width / source.width + 1 / 2 : ℚ)⌋) ∧
      rescale value source target =
        rescaleBy (fun delta width span => approximate delta width span) value source target ∧
      ∀ approximation, ∃ image, rescaleBy approximation value source target = .ok image ∧
        target.lo ≤ image ∧ image ≤ target.hi := by
  refine ⟨fun hfits => ⟨fun value => ?_, fun value => rescale_first hsource htarget hfits,
    fun value => rescale_last hsource htarget hfits,
    fun value value' image image' => rescale_mono hsource htarget hfits⟩,
    fun value => ⟨fun h => ?_, rescale_eq_rescaleBy value source target,
      fun approximation => rescaleBy_mem hsource htarget approximation value⟩⟩
  · have hexact := exact_of_fitsWide hsource htarget (fitsWide_product hsource htarget hfits value)
    obtain ⟨image, himage, hlow, hhigh, hreach⟩ := rescale_run hsource htarget hfits value
    exact ⟨hexact, image, himage, hreach.trans (by rw [divide_eq_floor hsource]), hlow, hhigh⟩
  · refine ⟨exact_of_fitsWide hsource htarget h, ?_⟩
    rw [offset, if_pos h, divide_eq_floor hsource]

/-- The range of all words. -/
def allWords : Span := ⟨Int64.minValue, Int64.maxValue⟩

/-- From all words, the middle one is carried by integers to the middle of a small range, and by an approximation to
the range of the words that are not negative, which it does not leave. -/
theorem rescale_affine_allWords : rescale 0 allWords ⟨0, 32⟩ = .ok 16 ∧ Exact allWords ⟨0, 32⟩ 0 ∧
    fitsWide (allWords.delta 0 * (⟨0, Int64.maxValue⟩ : Span).width) = false ∧
    ∀ approximation, ∃ image, rescaleBy approximation 0 allWords ⟨0, Int64.maxValue⟩ = .ok image ∧ 0 ≤ image := by
  have hsource : allWords.lo < allWords.hi := by decide
  have hsmall : (⟨0, 32⟩ : Span).lo ≤ (⟨0, 32⟩ : Span).hi := by decide
  have hwide : (⟨0, Int64.maxValue⟩ : Span).lo ≤ (⟨0, Int64.maxValue⟩ : Span).hi := by decide
  obtain ⟨hintegers, -⟩ := rescale_affine hsource hsmall
  obtain ⟨-, hany⟩ := rescale_affine hsource hwide
  obtain ⟨hexact, image, himage, hplace, -⟩ := (hintegers (by decide)).1 0
  have hdelta : allWords.delta 0 = 9223372036854775808 := by decide
  have hspan : allWords.width = 18446744073709551615 := by decide
  have hwidth : (⟨0, 32⟩ : Span).width = 32 := by decide
  have hmiddle : ⌊((9223372036854775808 : Int) * (32 : Int) / (18446744073709551615 : Int) + 1 / 2 : ℚ)⌋ = 16 := by
    rw [Int.floor_eq_iff]
    constructor <;> norm_num
  rw [hdelta, hspan, hwidth, hmiddle] at hplace
  obtain rfl : image = 16 := Int64.toInt_inj.mp hplace
  refine ⟨himage, hexact, by decide, fun approximation => ?_⟩
  obtain ⟨image, himage, hlow, -⟩ := (hany 0).2.2 approximation
  exact ⟨image, himage, hlow⟩

end SoundDesk.Scale
