import Mathlib.Data.Rat.Floor
import SoundDesk.Proofs.Rounding

/-!
# Proofs/Images — the exact image of a value, and the integer that it rounds to

    value  ──clamp──▸  distance from the start  ──· target / source──▸  exact image  ──round──▸  word

A value is carried to another range as a fraction, and rounded once: the quotients that are worked out in integers
are the roundings of that fraction (`Rounding.divide_eq_round`), and the image of a value in a range is the rounding
of its exact image (`Scale.rescale_rounds`).  What the integers on the way need is told by `IsWord` and `IsWide`.
-/

namespace SoundDesk

/-! ## Numbers that fit -/

/-- The number fits in a signed number of 128 bits. -/
def IsWide (n : Int) : Prop := -2 ^ 127 ≤ n ∧ n < 2 ^ 127

theorem toInt_ofInt_iff {n : Int} : (Int64.ofInt n).toInt = n ↔ IsWord n := by
  refine ⟨fun h => ?_, fun ⟨hlow, hhigh⟩ => Int64.toInt_ofInt_of_le hlow hhigh⟩
  rw [← h]
  exact ⟨Int64.le_toInt _, Int64.toInt_lt _⟩

namespace Word

variable {n : Int}

/-- **A number in the range of words is exact**, and no other is. -/
theorem exact_of_isWord (h : IsWord n) : ∃ w, exact n = .ok w ∧ w.toInt = n :=
  ⟨.ofInt n, if_pos h, toInt_ofInt_iff.mpr h⟩

/-- What fits in no word is given up. -/
theorem exact_of_not_isWord (h : ¬ IsWord n) : exact n = .error .overflow := if_neg h

end Word

/-! ## Computations that may be given up -/

section
variable {α β : Type} {f : α → Except Fault β}

/-- What was worked out is passed on. -/
theorem lift_ok_bind (a : α) : (liftM (Except.ok a : Except Error α) >>= f) = f a := rfl

theorem lift_refused_bind (e : Error) :
    (liftM (.error e : Except Error α) >>= f) = .error (.refused e) := rfl

theorem lift_word_bind (a : α) : (liftM (Except.ok a : Except Abort α) >>= f) = f a := rfl

theorem lift_abort_bind (cause : Abort) :
    (liftM (.error cause : Except Abort α) >>= f) = .error (.aborted cause) := rfl

/-- A result is no failure, whatever the failures are taken for. -/
theorem mapError_eq_ok_iff {δ γ : Type} {g : δ → γ} {r : Except δ α} {a : α} : r.mapError g = .ok a ↔ r = .ok a := by
  cases r <;> simp [Except.mapError]

/-- What may only be given up is not refused. -/
theorem lift_ne_refused {r : Except Abort α} {e : Error} : (liftM r : Except Fault α) ≠ .error (.refused e) := by
  cases r <;> nofun

/-- A computation that cannot be refused is given up for its own cause only. -/
theorem lift_eq_aborted_iff {r : Except Abort α} {cause : Abort} :
    (liftM r : Except Fault α) = .error (.aborted cause) ↔ r = .error cause := by
  cases r with
  | error cause' => exact ⟨fun h => by cases h; rfl, fun h => by cases h; rfl⟩
  | ok a => exact iff_of_false nofun nofun

end

/-! ## Rounded fractions -/

namespace Rounding

variable {num den n : Int} {q p : ℚ}

/-- **The integer that a fraction is rounded to**; a half goes up. -/
def round (q : ℚ) : Rounding → Int
  | below => ⌊q⌋
  | nearest => ⌊q + 1 / 2⌋
  | above => ⌈q⌉

/-- The numbers that a rounded quotient is worked out from, in turn. -/
def steps (num den : Int) : Rounding → List Int
  | below => [num / den]
  | nearest => [2 * num, 2 * num + den, 2 * den, (2 * num + den) / (2 * den)]
  | above => [-num, -num / den, -(-num / den)]

/-- The numbers on the way to a quotient fit, if the last of them before a division does. -/
theorem isWide_steps (hden : 0 < den) (hnum : 0 ≤ num) (hsum : 2 * num + 2 * den < 2 ^ 127) (rounding : Rounding) :
    ∀ n ∈ rounding.steps num den, IsWide n := by
  cases rounding with
  | below =>
    have hlow := Int.ediv_nonneg hnum hden.le
    have hhigh := Int.ediv_le_self den hnum
    simp only [steps, List.forall_mem_singleton, IsWide]
    omega
  | nearest =>
    have hlow := Int.ediv_nonneg (a := 2 * num + den) (b := 2 * den) (by omega) (by omega)
    have hhigh := Int.ediv_le_self (a := 2 * num + den) (2 * den) (by omega)
    simp only [steps, List.forall_mem_cons, IsWide]
    refine ⟨?_, ?_, ?_, ?_, by simp⟩ <;> omega
  | above =>
    have hpart : num ≤ num * den := le_mul_of_one_le_right hnum hden
    have hlow : -num ≤ -num / den := (Int.le_ediv_iff_mul_le hden).mpr (by linarith)
    have hhigh : -num / den ≤ 0 := Int.ediv_nonpos_of_nonpos_of_neg (by omega) (by omega)
    simp only [steps, List.forall_mem_cons, IsWide]
    refine ⟨?_, ?_, ?_, by simp⟩ <;> omega

theorem divide_zero (hden : 0 < den) (rounding : Rounding) : divide 0 den rounding = 0 := by
  simpa only [Int.zero_mul] using divide_mul hden 0 rounding

theorem floor_quotient (hden : 0 < den) (num : Int) : ⌊(num / den : ℚ)⌋ = num / den := by
  have hpos : (0 : ℚ) < den := Int.cast_pos.mpr hden
  rw [Int.floor_eq_iff, le_div_iff₀ hpos, div_lt_iff₀ hpos]
  have hlow : num / den * den ≤ num := (Int.le_ediv_iff_mul_le hden).mp le_rfl
  have hhigh : num < (num / den + 1) * den := (Int.ediv_lt_iff_lt_mul hden).mp (Int.lt_succ _)
  exact ⟨mod_cast hlow, mod_cast hhigh⟩

/-- **A rounded quotient** is the rounding of the fraction. -/
theorem divide_eq_round (hden : 0 < den) (num : Int) (rounding : Rounding) :
    divide num den rounding = rounding.round (num / den) := by
  cases rounding with
  | below => rw [divide, round, floor_quotient hden]
  | nearest =>
    have hpos : (den : ℚ) ≠ 0 := Int.cast_ne_zero.mpr hden.ne'
    have hhalf : (num / den + 1 / 2 : ℚ) = (2 * num + den : Int) / (2 * den : Int) := by
      push_cast
      field_simp
    rw [divide, round, hhalf, floor_quotient (by omega)]
  | above =>
    have hneg : (num / den : ℚ) = -((-num : Int) / den) := by
      push_cast
      ring
    rw [divide, round, hneg, Int.ceil_neg, floor_quotient hden]

/-- Whole numbers pass through a rounding. -/
theorem round_intCast_add (n : Int) (q : ℚ) (rounding : Rounding) : rounding.round (n + q) = n + rounding.round q := by
  cases rounding with
  | below => exact Int.floor_intCast_add n q
  | nearest => rw [round, round, add_assoc, Int.floor_intCast_add]
  | above => exact Int.ceil_intCast_add n q

/-- The nearest integer is at most `n` for what is less than half a unit above it. -/
theorem round_nearest_le_iff : nearest.round q ≤ n ↔ q < n + 1 / 2 := by
  rw [round, Int.floor_le_iff]
  constructor <;> intro h <;> linarith

theorem le_round_nearest_iff : n ≤ nearest.round q ↔ n - 1 / 2 ≤ q := by
  rw [round, Int.le_floor]
  constructor <;> intro h <;> linarith

end Rounding

/-! ## Exact images -/

namespace Span

variable {r : Span} {x y : Int64}

/-- **The exact image of a value**: the nearest value of one range, carried linearly to another. -/
def image (source target : Span) (x : Int64) : ℚ :=
  target.lo.toInt + source.delta x * target.width / source.width

theorem delta_of_mem (hlo : r.lo ≤ x) (hhi : x ≤ r.hi) : r.delta x = x.toInt - r.lo.toInt := by
  rw [delta, clamp_of_mem hlo hhi]

theorem delta_of_le (hlo : x ≤ r.lo) (h : r.lo ≤ r.hi) : r.delta x = 0 := by
  have horder := Int64.le_iff_toInt_le.mp h
  have hx := Int64.le_iff_toInt_le.mp hlo
  rw [delta, toInt_clamp, Scale.clamp]
  split
  · omega
  · split <;> omega

theorem delta_of_ge (hhi : r.hi ≤ x) (h : r.lo ≤ r.hi) : r.delta x = r.width := by
  have horder := Int64.le_iff_toInt_le.mp h
  have hx := Int64.le_iff_toInt_le.mp hhi
  rw [delta, toInt_clamp, Scale.clamp, width]
  split
  · omega
  · split <;> omega

/-- A larger value is no nearer to the start of a range. -/
theorem delta_mono (h : r.lo ≤ r.hi) (hle : x ≤ y) : r.delta x ≤ r.delta y := by
  have horder := Int64.le_iff_toInt_le.mp h
  have hxy := Int64.le_iff_toInt_le.mp hle
  rw [delta, delta, toInt_clamp, toInt_clamp, Scale.clamp, Scale.clamp]
  split <;> split <;> omega

/-- The exact image, rounded, is at the rounded quotient. -/
theorem round_image (source target : Span) (hwidth : 0 < source.width) (x : Int64) (rounding : Rounding) :
    rounding.round (source.image target x) =
      target.lo.toInt + rounding.divide (source.delta x * target.width) source.width := by
  rw [image, Rounding.round_intCast_add, Rounding.divide_eq_round hwidth]
  push_cast
  rfl

end Span

namespace Scale

/-- **The image of a value** is its exact image, rounded to the nearest integer. -/
theorem rescale_rounds {value image : Int64} {source target : Span} (hsource : source.lo < source.hi)
    (htarget : target.lo ≤ target.hi) (hfits : 4 * (source.width * target.width) < 2 ^ 127)
    (h : rescale value source target = .ok image) :
    image.toInt = Rounding.nearest.round (source.image target value) := by
  obtain ⟨image', himage, -, -, hreach⟩ := rescale_run hsource htarget hfits value
  obtain rfl : image' = image := Except.ok.inj (himage.symm.trans h)
  rw [hreach, Span.round_image source target (Span.width_pos hsource)]

end Scale

end SoundDesk
