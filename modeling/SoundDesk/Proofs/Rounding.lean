import Mathlib.Tactic.Linarith
import Mathlib.Tactic.Ring
import SoundDesk.Scale

/-!
# Proofs/Rounding — what rounding loses, and what it does not

    d  ──· T / S──▸  D  ──· S / T──▸  d          S ≤ T, and each quotient is the nearest integer

A nearest quotient is off by half a unit at most.  On the way back from the wider range, what it is off shrinks by
`S / T`, so it is less than half a unit and is rounded away; between equal widths there is nothing off at all
(`Rounding.divide_divide`).  As long as the product of the widths fits, the image of a value is such a quotient, so
a value carried to a range that is not narrower comes back as it was (`Scale.rescale_rescale`).
-/

namespace SoundDesk

/-! ## Quotients -/

namespace Rounding

variable {num num' den q : Int}

/-- **The nearest quotient**, told without a division; a half goes up. -/
theorem divide_nearest_eq_iff (hden : 0 < den) :
    divide num den .nearest = q ↔ (2 * q - 1) * den ≤ 2 * num ∧ 2 * num < (2 * q + 1) * den := by
  have hlow : q * (2 * den) = (2 * q - 1) * den + den := by ring
  have hhigh : q * (2 * den) + 2 * den = (2 * q + 1) * den + den := by ring
  rw [divide, Int.ediv_eq_iff_of_pos (by omega), hhigh, hlow]
  omega

/-- A multiple of the divisor is divided without rounding. -/
theorem divide_mul (hden : 0 < den) (q : Int) (rounding : Rounding) : divide (q * den) den rounding = q := by
  cases rounding with
  | below => exact Int.mul_ediv_cancel q hden.ne'
  | nearest => exact (divide_nearest_eq_iff hden).mpr (by constructor <;> linarith)
  | above => rw [divide, ← Int.neg_mul, Int.mul_ediv_cancel _ hden.ne', Int.neg_neg]

/-- Rounding keeps the order. -/
theorem divide_mono (hden : 0 < den) (h : num ≤ num') (rounding : Rounding) :
    divide num den rounding ≤ divide num' den rounding := by
  cases rounding with
  | below => exact Int.ediv_le_ediv hden h
  | nearest => exact Int.ediv_le_ediv (by omega) (by omega)
  | above => exact Int.neg_le_neg (Int.ediv_le_ediv hden (Int.neg_le_neg h))

/-- A part of a number is between nothing and the number, whatever the rounding; the number may be negative. -/
theorem divide_between {d S : Int} (hS : 0 < S) (hlow : 0 ≤ d) (hhigh : d ≤ S) (T : Int) (rounding : Rounding) :
    min 0 T ≤ divide (d * T) S rounding ∧ divide (d * T) S rounding ≤ max 0 T := by
  have hnone : divide (0 * S) S rounding = 0 := divide_mul hS 0 rounding
  have hall : divide (T * S) S rounding = T := divide_mul hS T rounding
  rw [Int.zero_mul] at hnone
  rcases Int.le_total 0 T with hT | hT
  · have hfirst := divide_mono hS (Int.mul_nonneg hlow hT) rounding
    have hlast := divide_mono hS (Int.mul_le_mul_of_nonneg_right hhigh hT) rounding
    rw [Int.mul_comm S] at hlast
    omega
  · have hfirst := divide_mono hS (Int.mul_le_mul_of_nonpos_right hhigh hT) rounding
    have hlast := divide_mono hS (Int.mul_nonpos_of_nonneg_of_nonpos hlow hT) rounding
    rw [Int.mul_comm S] at hfirst
    omega

/-- A part of a width is carried to a part of the other, whatever the rounding. -/
theorem divide_mem {d S T : Int} (hS : 0 < S) (hT : 0 ≤ T) (hlow : 0 ≤ d) (hhigh : d ≤ S) (rounding : Rounding) :
    0 ≤ divide (d * T) S rounding ∧ divide (d * T) S rounding ≤ T := by
  obtain ⟨hfirst, hlast⟩ := divide_between hS hlow hhigh T rounding
  omega

/-- **There and back** over a width that is not smaller, each time to the nearest integer, nothing is lost. -/
theorem divide_divide {S T : Int} (hS : 0 < S) (hle : S ≤ T) (d : Int) :
    divide (divide (d * T) S .nearest * S) T .nearest = d := by
  rcases hle.eq_or_lt with rfl | hlt
  · rw [divide_mul hS, divide_mul hS]
  · generalize hthere : divide (d * T) S .nearest = D
    obtain ⟨hlow, hhigh⟩ := (divide_nearest_eq_iff hS).mp hthere
    rw [divide_nearest_eq_iff (hS.trans hlt)]
    -- `D * S` is off from `d * T` by half of `S` at most, which is less than half of `T`
    constructor <;> linarith

end Rounding

/-! ## Ranges -/

namespace Span

variable {r : Span} {x : Int64}

/-- The distance between the ends of a range. -/
def width (r : Span) : Int := r.hi.toInt - r.lo.toInt

/-- The value of a range that is nearest to another one. -/
def clamp (r : Span) (x : Int64) : Int64 := if x < r.lo then r.lo else if r.hi < x then r.hi else x

/-- The distance from the start of a range to the value that is nearest to another one. -/
def delta (r : Span) (x : Int64) : Int := (r.clamp x).toInt - r.lo.toInt

theorem width_pos (h : r.lo < r.hi) : 0 < r.width := Int.sub_pos.mpr (Int64.lt_iff_toInt_lt.mp h)

theorem clamp_of_mem (hlo : r.lo ≤ x) (hhi : x ≤ r.hi) : r.clamp x = x := by
  rw [clamp, if_neg (Int64.not_lt.mpr hlo), if_neg (Int64.not_lt.mpr hhi)]

theorem toInt_clamp (r : Span) (x : Int64) :
    (r.clamp x).toInt = Scale.clamp r.lo.toInt r.hi.toInt x.toInt := by
  simp only [clamp, Scale.clamp, Int64.lt_iff_toInt_lt, apply_ite Int64.toInt]

theorem delta_mem (h : r.lo ≤ r.hi) (x : Int64) : 0 ≤ r.delta x ∧ r.delta x ≤ r.width := by
  have horder := Int64.le_iff_toInt_le.mp h
  rw [delta, toInt_clamp, width, Scale.clamp]
  split
  · omega
  · split <;> omega

/-- A number between the ends of a range is a word. -/
theorem toInt_ofInt {n : Int} (hlow : r.lo.toInt ≤ n) (hhigh : n ≤ r.hi.toInt) : (Int64.ofInt n).toInt = n :=
  Int64.toInt_ofInt_of_le (Int.le_trans r.lo.le_toInt hlow) (Int.lt_of_le_of_lt hhigh r.hi.toInt_lt)

end Span

/-! ## Images -/

namespace Scale

variable {value image : Int64} {source target : Span}

theorem clamp_of_mem {lo hi x : Int} (hlo : lo ≤ x) (hhi : x ≤ hi) : clamp lo hi x = x := by
  rw [clamp, if_neg (Int.not_lt.mpr hlo), if_neg (Int.not_lt.mpr hhi)]

/-- While products are small enough, the offset is a rounded quotient. -/
theorem offset_eq {delta width : Int} (span : Int) (h0 : 0 ≤ delta * width)
    (hfits : 4 * (delta * width) < 2 ^ 127) :
    offset delta width span = Rounding.divide (delta * width) span .nearest := by
  have hfits : fitsWide (delta * width) = true := by
    rw [fitsWide, Bool.and_eq_true, decide_eq_true_iff, decide_eq_true_iff]
    exact ⟨Int.le_trans (by decide) (Int.mul_nonneg (by decide) h0), hfits⟩
  rw [offset, if_pos hfits]

/-- Between ranges in order a value is carried by its distance from the start. -/
theorem rescale_eq (hsource : source.lo < source.hi) (htarget : target.lo ≤ target.hi) (value : Int64) :
    rescale value source target = .ok (.ofInt (clamp target.lo.toInt target.hi.toInt
      (target.lo.toInt + offset (source.delta value) target.width source.width))) := by
  rw [rescale, if_neg (Int64.not_le.mpr hsource), if_neg (Int64.not_lt.mpr htarget), ← Span.toInt_clamp]
  rfl

/-- **The image of a value** is in the target range, at the nearest quotient, if the product of the widths fits. -/
theorem rescale_run (hsource : source.lo < source.hi) (htarget : target.lo ≤ target.hi)
    (hfits : 4 * (source.width * target.width) < 2 ^ 127) (value : Int64) :
    ∃ image, rescale value source target = .ok image ∧ target.lo ≤ image ∧ image ≤ target.hi ∧
      image.toInt = target.lo.toInt +
        Rounding.divide (source.delta value * target.width) source.width .nearest := by
  have hwidth : 0 ≤ target.width := Int.sub_nonneg.mpr (Int64.le_iff_toInt_le.mp htarget)
  obtain ⟨hlow, hhigh⟩ := source.delta_mem (Int64.le_of_lt hsource) value
  have hproduct := Int.mul_le_mul_of_nonneg_right hhigh hwidth
  rw [rescale_eq hsource htarget, offset_eq source.width (Int.mul_nonneg hlow hwidth) (by omega)]
  obtain ⟨hfirst, hlast⟩ := Rounding.divide_mem (Span.width_pos hsource) hwidth hlow hhigh .nearest
  generalize Rounding.divide (source.delta value * target.width) source.width .nearest = reach at hfirst hlast ⊢
  -- the reach ends in the target range, so neither the clamp nor the word changes it
  have hstart : target.lo.toInt ≤ target.lo.toInt + reach := by omega
  have hend : target.lo.toInt + reach ≤ target.hi.toInt := by rw [Span.width] at hlast; omega
  have himage := Span.toInt_ofInt hstart hend
  rw [clamp_of_mem hstart hend]
  exact ⟨_, rfl, Int64.le_iff_toInt_le.mpr (hstart.trans_eq himage.symm),
    Int64.le_iff_toInt_le.mpr (himage.trans_le hend), himage⟩

/-- **There and back**: a value carried to a range that is not narrower comes back as it was, or as the nearest
value of its range. -/
theorem rescale_rescale (hsource : source.lo < source.hi) (hwider : source.width ≤ target.width)
    (hfits : 4 * (source.width * target.width) < 2 ^ 127) (h : rescale value source target = .ok image) :
    rescale image target source = .ok (source.clamp value) := by
  have hspan := Span.width_pos hsource
  have htarget : target.lo < target.hi := Int64.lt_iff_toInt_lt.mpr (Int.sub_pos.mp (hspan.trans_le hwider))
  obtain ⟨there, hthere, hlow, hhigh, hreach⟩ := rescale_run hsource (Int64.le_of_lt htarget) hfits value
  obtain rfl : there = image := Except.ok.inj (hthere.symm.trans h)
  obtain ⟨back, hback, -, -, hreturn⟩ :=
    rescale_run htarget (Int64.le_of_lt hsource) (by rwa [Int.mul_comm target.width]) there
  have hdelta : target.delta there =
      Rounding.divide (source.delta value * target.width) source.width .nearest := by
    rw [Span.delta, Span.clamp_of_mem hlow hhigh, hreach]
    omega
  rw [hdelta, Rounding.divide_divide hspan hwider, Span.delta, add_sub_cancel] at hreturn
  rw [hback, Int64.toInt_inj.mp hreturn]

end Scale

end SoundDesk
