import SoundDesk.Proofs.Images
import SoundDesk.Wiring

/-!
# Proofs/Decibels — from decibels to a raw value, and back

    decibels  ──clamp──▸  distance on the scale  ──· range / scale──▸  raw value  ──toDb──▸  decibels

The widths of the scale and of the range have to be words, or the conversion is given up.  As long as they are, nothing
overflows on the way (`Binding.Exact`), and the raw value for decibels is the exact image, rounded as was asked
(`Binding.Measures.ofDb_rounds`).  Back on the scale the rounding is to the nearest, and that does not undo a direction:
what was rounded below stays below.
-/

namespace SoundDesk

namespace DbScale

/-- The range of a scale. -/
def range (s : DbScale) : Span := ⟨s.min, s.max⟩

variable {s : DbScale} (h : s.min < s.max)
include h

theorem lo_le_hi : s.range.lo ≤ s.range.hi := Int64.le_of_lt h

theorem width_pos : 0 < s.range.width := Span.width_pos h

theorem delta_first {db : Int64} (hdb : db ≤ s.min) : s.range.delta db = 0 := Span.delta_of_le hdb (lo_le_hi h)

theorem delta_last {db : Int64} (hdb : s.max ≤ db) : s.range.delta db = s.range.width :=
  Span.delta_of_ge hdb (lo_le_hi h)

/-- The distance from the start of a scale is a word if the width is one. -/
theorem isWord_delta (hword : IsWord s.range.width) (db : Int64) : IsWord (s.range.delta db) := by
  obtain ⟨hlow, hhigh⟩ := s.range.delta_mem (lo_le_hi h) db
  exact ⟨by omega, hhigh.trans_lt hword.2⟩

end DbScale

theorem Scale.clampWord_eq {r : Span} (h : r.lo ≤ r.hi) (x : Int64) : clampWord r x = .ok (r.clamp x) := by
  rw [clampWord, if_neg (Int64.not_lt.mpr h), Span.clamp]

/-! ## What rounding in a direction leaves -/

namespace Rounding

variable {S T : Int}

/-- A quotient that was rounded below does not come back above. -/
theorem divide_divide_below (hS : 0 < S) (hT : 0 < T) (d : Int) :
    divide (divide (d * T) S .below * S) T .nearest ≤ d := by
  have hle : divide (d * T) S .below * S ≤ d * T := (Int.le_ediv_iff_mul_le hS).mp le_rfl
  exact (divide_mono hT hle .nearest).trans_eq (divide_mul hT d .nearest)

/-- A quotient that was rounded above does not come back below. -/
theorem le_divide_divide_above (hS : 0 < S) (hT : 0 < T) (d : Int) :
    d ≤ divide (divide (d * T) S .above * S) T .nearest := by
  have hle : d * T ≤ divide (d * T) S .above * S := by
    have hquotient : -(d * T) / S * S ≤ -(d * T) := (Int.le_ediv_iff_mul_le hS).mp le_rfl
    rw [divide, Int.neg_mul]
    omega
  exact (divide_mul hT d .nearest).symm.trans_le (divide_mono hT hle .nearest)

end Rounding

namespace Binding

variable {b : Binding} {scale : DbScale} {db raw : Int64} {rounding : Rounding}

/-! ## The raw value for decibels -/

/-- **Nothing overflows** on the way from decibels to a raw value: the differences are words, what is worked out for
the quotient fits in 128 bits, and the quotient and the sum are words. -/
structure Exact (b : Binding) (scale : DbScale) (db : Int64) (rounding : Rounding) : Prop where
  scaleWidth : IsWord scale.range.width
  distance : IsWord (scale.range.delta db)
  width : IsWord b.range.width
  product : IsWide (scale.range.delta db * b.range.width)
  steps : ∀ n ∈ rounding.steps (scale.range.delta db * b.range.width) scale.range.width, IsWide n
  quotient : IsWord (rounding.divide (scale.range.delta db * b.range.width) scale.range.width)
  sum : IsWord (b.info.min.toInt + rounding.divide (scale.range.delta db * b.range.width) scale.range.width)

theorem width_pos (hraw : b.info.min < b.info.max) : 0 < b.range.width := Span.width_pos hraw

theorem scale_eq_ok (h : b.info.db = some scale) : b.scale = .ok scale := by
  rw [Binding.scale, h]

/-- A control has a scale, or it is refused for the lack of one. -/
theorem scale_cases (b : Binding) : (∃ scale, b.info.db = some scale ∧ b.scale = .ok scale) ∨
    b.info.db = none ∧ ∃ reason, b.scale = .error (.invalid reason) := by
  rw [Binding.scale]
  cases b.info.db with
  | none => exact .inr ⟨rfl, _, rfl⟩
  | some scale => exact .inl ⟨scale, rfl, rfl⟩

section
variable (h : b.info.db = some scale) (db : Int64) (rounding : Rounding)
include h

/-- A scale whose width is no word gives the conversion up. -/
theorem ofDb_of_wide_scale (hwide : ¬ IsWord scale.range.width) :
    b.ofDb db rounding = .error (.aborted .overflow) := by
  have hsub : Word.sub scale.max scale.min = .error .overflow := Word.exact_of_not_isWord hwide
  rw [ofDb, scale_eq_ok h, lift_ok_bind, hsub, lift_abort_bind]

/-- A scale that does not rise leads to the least value. -/
theorem ofDb_of_flat_scale (hword : IsWord scale.range.width) (hflat : scale.max ≤ scale.min) :
    b.ofDb db rounding = .ok b.info.min := by
  obtain ⟨width, hwidth, hvalue⟩ := Word.exact_of_isWord hword
  have hsub : Word.sub scale.max scale.min = .ok width := hwidth
  have hnonpos : width ≤ 0 :=
    Int64.le_iff_toInt_le.mpr (hvalue.trans_le (Int.sub_nonpos_of_le (Int64.le_iff_toInt_le.mp hflat)))
  rw [ofDb, scale_eq_ok h, lift_ok_bind, hsub, lift_word_bind, if_pos hnonpos]
  rfl

variable (hrises : scale.min < scale.max) (hword : IsWord scale.range.width)
include hrises hword

/-- On a scale that rises the decibels are clamped, and the widths are taken. -/
theorem ofDb_of_rises : ∃ width distance : Int64, width.toInt = scale.range.width ∧
    distance.toInt = scale.range.delta db ∧
    b.ofDb db rounding = (do
      let range ← liftM (Word.sub b.info.max b.info.min)
      Word.add b.info.min (.ofInt (rounding.divide (distance.toInt * range.toInt) width.toInt))) := by
  obtain ⟨width, hwidth, hvalue⟩ := Word.exact_of_isWord hword
  obtain ⟨distance, hdistance, hpart⟩ := Word.exact_of_isWord (DbScale.isWord_delta hrises hword db)
  have hsub : Word.sub scale.max scale.min = .ok width := hwidth
  have hclamp : Scale.clampWord ⟨scale.min, scale.max⟩ db = .ok (scale.range.clamp db) :=
    Scale.clampWord_eq (DbScale.lo_le_hi hrises) db
  have hsub' : Word.sub (scale.range.clamp db) scale.min = .ok distance := hdistance
  have hpos : ¬ width ≤ 0 :=
    Int64.not_le.mpr (Int64.lt_iff_toInt_lt.mpr ((DbScale.width_pos hrises).trans_eq hvalue.symm))
  refine ⟨width, distance, hvalue, hpart, ?_⟩
  rw [ofDb, scale_eq_ok h, lift_ok_bind, hsub, lift_word_bind, if_neg hpos, hclamp, lift_word_bind, hsub',
    lift_word_bind]

/-- A range whose width is no word gives the conversion up, on a scale that rises. -/
theorem ofDb_of_wide_range (hwide : ¬ IsWord b.range.width) :
    b.ofDb db rounding = .error (.aborted .overflow) := by
  obtain ⟨width, distance, -, -, hrun⟩ := ofDb_of_rises h db rounding hrises hword
  have hsub : Word.sub b.info.max b.info.min = .error .overflow := Word.exact_of_not_isWord hwide
  rw [hrun, hsub, lift_abort_bind]

/-- **The raw value for decibels is at the rounded quotient**, if the widths are words; the range may be reversed. -/
theorem ofDb_run (hwidth : IsWord b.range.width) :
    ∃ raw, b.ofDb db rounding = .ok raw ∧ raw.toInt = b.info.min.toInt +
      rounding.divide (scale.range.delta db * b.range.width) scale.range.width := by
  obtain ⟨width, distance, hvalue, hpart, hrun⟩ := ofDb_of_rises h db rounding hrises hword
  obtain ⟨range, hrange, hends⟩ := Word.exact_of_isWord hwidth
  have hsub : Word.sub b.info.max b.info.min = .ok range := hrange
  rw [hrun, hsub, lift_word_bind, hvalue, hpart, hends]
  -- the quotient is a part of the width, so the sum is between the ends of the range
  obtain ⟨hlow, hhigh⟩ := scale.range.delta_mem (DbScale.lo_le_hi hrises) db
  obtain ⟨hfirst, hlast⟩ := Rounding.divide_between (DbScale.width_pos hrises) hlow hhigh b.range.width rounding
  generalize rounding.divide (scale.range.delta db * b.range.width) scale.range.width = quotient at hfirst hlast ⊢
  have hend : b.info.min.toInt + b.range.width = b.info.max.toInt := add_sub_cancel _ _
  have hmin := b.info.min.le_toInt
  have hmin' := b.info.min.toInt_lt
  have hmax := b.info.max.le_toInt
  have hmax' := b.info.max.toInt_lt
  obtain ⟨hwidth, hwidth'⟩ := hwidth
  have hquotient : (Int64.ofInt quotient).toInt = quotient := toInt_ofInt_iff.mpr ⟨by omega, by omega⟩
  obtain ⟨raw, hraw, hreach⟩ :=
    Word.exact_of_isWord (n := b.info.min.toInt + quotient) ⟨by omega, by omega⟩
  have hadd : Word.add b.info.min (.ofInt quotient) = .ok raw := by rw [Word.add, hquotient, hraw]
  exact ⟨raw, by rw [hadd]; rfl, hreach⟩

end

/-- **A binding measures decibels** on a scale: the range and the scale are in order, and their widths are words. -/
structure Measures (b : Binding) (scale : DbScale) : Prop where
  has : b.info.db = some scale
  ordered : b.info.min ≤ b.info.max
  rises : scale.min < scale.max
  width : b.range.width < 2 ^ 63
  scaleWidth : scale.range.width < 2 ^ 63

namespace Measures

variable (h : b.Measures scale)
include h

theorem scaleWidth_pos : 0 < scale.range.width := DbScale.width_pos h.rises

theorem width_nonneg : 0 ≤ b.range.width := Int.sub_nonneg.mpr (Int64.le_iff_toInt_le.mp h.ordered)

theorem delta_mem (db : Int64) : 0 ≤ scale.range.delta db ∧ scale.range.delta db ≤ scale.range.width :=
  scale.range.delta_mem (DbScale.lo_le_hi h.rises) db

/-- The rounded quotient is a part of the width of the range. -/
theorem divide_mem (db : Int64) (rounding : Rounding) :
    0 ≤ rounding.divide (scale.range.delta db * b.range.width) scale.range.width ∧
      rounding.divide (scale.range.delta db * b.range.width) scale.range.width ≤ b.range.width :=
  Rounding.divide_mem h.scaleWidth_pos h.width_nonneg (h.delta_mem db).1 (h.delta_mem db).2 rounding

theorem exact (db : Int64) (rounding : Rounding) : b.Exact scale db rounding := by
  have hscale := h.scaleWidth_pos
  have hrange := h.width_nonneg
  have hscaleWidth := h.scaleWidth
  have hwidth := h.width
  obtain ⟨hlow, hhigh⟩ := h.delta_mem db
  obtain ⟨hfirst, hlast⟩ := h.divide_mem db rounding
  have hnonneg := Int.mul_nonneg hlow hrange
  have hproduct : scale.range.delta db * b.range.width ≤ (2 ^ 63 - 1) * (2 ^ 63 - 1) :=
    Int.mul_le_mul (by omega) (by omega) hrange (by omega)
  have hend : b.info.min.toInt + b.range.width = b.info.max.toInt := add_sub_cancel _ _
  have hmin := b.info.min.le_toInt
  have hmax := b.info.max.toInt_lt
  exact {
    scaleWidth := ⟨by omega, hscaleWidth⟩
    distance := ⟨by omega, by omega⟩
    width := ⟨by omega, hwidth⟩
    product := ⟨by omega, by omega⟩
    steps := Rounding.isWide_steps hscale hnonneg (by omega) rounding
    quotient := ⟨by omega, by omega⟩
    sum := ⟨by omega, by omega⟩ }

/-- **To come from decibels** to a raw value of the range, at the rounded quotient. -/
theorem ofDb_run (db : Int64) (rounding : Rounding) :
    ∃ raw, b.ofDb db rounding = .ok raw ∧ b.info.min ≤ raw ∧ raw ≤ b.info.max ∧ raw.toInt =
      b.info.min.toInt + rounding.divide (scale.range.delta db * b.range.width) scale.range.width := by
  obtain ⟨hfirst, hlast⟩ := h.divide_mem db rounding
  have hend : b.info.min.toInt + b.range.width = b.info.max.toInt := add_sub_cancel _ _
  have hexact := h.exact db rounding
  obtain ⟨raw, hraw, hreach⟩ := Binding.ofDb_run h.has db rounding h.rises hexact.scaleWidth hexact.width
  exact ⟨raw, hraw, Int64.le_iff_toInt_le.mpr (by omega), Int64.le_iff_toInt_le.mpr (by omega), hreach⟩

theorem ofDb_mono {db' raw' : Int64} (hle : db ≤ db') (hraw : b.ofDb db rounding = .ok raw)
    (hraw' : b.ofDb db' rounding = .ok raw') : raw ≤ raw' := by
  obtain ⟨low, hlow, -, -, hreach⟩ := h.ofDb_run db rounding
  obtain ⟨high, hhigh, -, -, hreach'⟩ := h.ofDb_run db' rounding
  obtain rfl : low = raw := Except.ok.inj (hlow.symm.trans hraw)
  obtain rfl : high = raw' := Except.ok.inj (hhigh.symm.trans hraw')
  have hdelta := Span.delta_mono (DbScale.lo_le_hi h.rises) hle
  have hquotient := Rounding.divide_mono h.scaleWidth_pos
    (Int.mul_le_mul_of_nonneg_right hdelta h.width_nonneg) rounding
  exact Int64.le_iff_toInt_le.mpr (by omega)

/-! ## The decibels of a raw value -/

/-- **Decibels of a raw value** above silence are at the nearest quotient, if the product of the widths fits. -/
theorem toDb_run (hraw : b.info.min < b.info.max) (hfits : 4 * (b.range.width * scale.range.width) < 2 ^ 127)
    (raw : Int64) (hsound : scale.mute = true → b.info.min < raw) :
    ∃ db, b.toDb raw = .ok db ∧ scale.min ≤ db ∧ db ≤ scale.max ∧ db.toInt =
      scale.min.toInt + Rounding.divide (b.range.delta raw * scale.range.width) b.range.width .nearest := by
  have hsource : b.range.lo < b.range.hi := hraw
  have hmute : (scale.mute && decide (raw ≤ b.info.min)) = false := by
    rw [Bool.and_eq_false_imp, decide_eq_false_iff_not, Int64.not_le]
    exact hsound
  obtain ⟨db, hdb, hrun⟩ := Scale.rescale_run hsource (DbScale.lo_le_hi h.rises) hfits raw
  refine ⟨db, ?_, hrun⟩
  rw [toDb, scale_eq_ok h.has, lift_ok_bind, if_neg (Bool.eq_false_iff.mp hmute), ← DbScale.range, hdb]
  rfl

/-- **There and back**: the decibels of the raw value for decibels are at the nearest quotient of the rounded one. -/
theorem toDb_ofDb (hmute : scale.mute = false) (hraw : b.info.min < b.info.max)
    (hfits : 4 * (b.range.width * scale.range.width) < 2 ^ 127) (db : Int64) (rounding : Rounding) :
    ∃ answer, (b.ofDb db rounding >>= b.toDb) = .ok answer ∧ answer.toInt = scale.min.toInt + Rounding.divide
      (rounding.divide (scale.range.delta db * b.range.width) scale.range.width * scale.range.width)
      b.range.width .nearest := by
  obtain ⟨raw, hofDb, hlow, hhigh, hreach⟩ := h.ofDb_run db rounding
  obtain ⟨answer, htoDb, -, -, hanswer⟩ := h.toDb_run hraw hfits raw (by simp [hmute])
  refine ⟨answer, by rw [hofDb]; exact htoDb, ?_⟩
  have hdelta : b.range.delta raw = raw.toInt - b.info.min.toInt := Span.delta_of_mem hlow hhigh
  rw [hanswer, hdelta, hreach, add_sub_cancel_left]

section
variable (hmute : scale.mute = false) (hraw : b.info.min < b.info.max)
  (hfits : 4 * (b.range.width * scale.range.width) < 2 ^ 127) (db : Int64)
include hmute hraw hfits

/-- What was rounded below is not above the decibels on the way back. -/
theorem toDb_ofDb_below : ∃ low, (b.ofDb db .below >>= b.toDb) = .ok low ∧ low ≤ scale.range.clamp db := by
  obtain ⟨low, hlow, hreach⟩ := h.toDb_ofDb hmute hraw hfits db .below
  have hclamp : scale.min.toInt + scale.range.delta db = (scale.range.clamp db).toInt := add_sub_cancel _ _
  have hle := Rounding.divide_divide_below h.scaleWidth_pos (width_pos hraw) (scale.range.delta db)
  exact ⟨low, hlow, Int64.le_iff_toInt_le.mpr (by omega)⟩

theorem toDb_ofDb_above : ∃ high, (b.ofDb db .above >>= b.toDb) = .ok high ∧ scale.range.clamp db ≤ high := by
  obtain ⟨high, hhigh, hreach⟩ := h.toDb_ofDb hmute hraw hfits db .above
  have hclamp : scale.min.toInt + scale.range.delta db = (scale.range.clamp db).toInt := add_sub_cancel _ _
  have hle := Rounding.le_divide_divide_above h.scaleWidth_pos (width_pos hraw) (scale.range.delta db)
  exact ⟨high, hhigh, Int64.le_iff_toInt_le.mpr (by omega)⟩

end

/-! ## The raw value is the exact image, rounded -/

/-- **Decibels are carried to a raw value as the exact image, rounded as was asked.**  Nothing overflows, the raw
value is one of the range, and more decibels never lead to less; and if the scale does not mute and no floating
point is involved, what was rounded below is not above the decibels on the way back, and what was rounded above is not
below. -/
theorem ofDb_rounds :
    (∀ db rounding, b.Exact scale db rounding ∧ ∃ raw, b.ofDb db rounding = .ok raw ∧
      raw.toInt = rounding.round (scale.range.image b.range db) ∧ b.info.min ≤ raw ∧ raw ≤ b.info.max) ∧
    (∀ db db' rounding raw raw', db ≤ db' → b.ofDb db rounding = .ok raw → b.ofDb db' rounding = .ok raw' →
      raw ≤ raw') ∧
    (scale.mute = false → b.info.min < b.info.max → 4 * (b.range.width * scale.range.width) < 2 ^ 127 → ∀ db,
      (∃ low, (b.ofDb db .below >>= b.toDb) = .ok low ∧ low ≤ scale.range.clamp db) ∧
      ∃ high, (b.ofDb db .above >>= b.toDb) = .ok high ∧ scale.range.clamp db ≤ high) := by
  refine ⟨fun db rounding => ⟨h.exact db rounding, ?_⟩, ?_, ?_⟩
  · obtain ⟨raw, hraw, hlow, hhigh, hreach⟩ := h.ofDb_run db rounding
    have himage := Span.round_image scale.range b.range h.scaleWidth_pos db rounding
    exact ⟨raw, hraw, hreach.trans himage.symm, hlow, hhigh⟩
  · intro db db' rounding raw raw' hle hraw hraw'
    exact h.ofDb_mono hle hraw hraw'
  · intro hmute hraw hfits db
    exact ⟨h.toDb_ofDb_below hmute hraw hfits db, h.toDb_ofDb_above hmute hraw hfits db⟩

omit h in
/-- The widest range that is a word, on a scale a quarter as wide: nothing overflows next to the middle, where the
exact image is no integer. -/
theorem ofDb_rounds_widest : ∃ (b : Binding) (scale : DbScale), b.range.width = 2 ^ 63 - 1 ∧ b.Measures scale ∧
    b.Exact scale 1 .nearest ∧ (∃ raw, b.ofDb 1 .above = .ok raw ∧ raw.toInt = ⌈scale.range.image b.range 1⌉) ∧
    ∃ low, (b.ofDb 1 .below >>= b.toDb) = .ok low ∧ low ≤ 1 := by
  let info := (ControlInfo.integer 1 (-4611686018427387904) 4611686018427387903).withDb
    (-1152921504606846976) 1152921504606846976
  let b : Binding := ⟨⟨0, 1⟩, .mixer 1 "Master Playback Volume" 0, info, .volume .playback⟩
  let scale : DbScale := ⟨-1152921504606846976, 1152921504606846976, false⟩
  have h : b.Measures scale := ⟨rfl, by decide, by decide, by decide, by decide⟩
  obtain ⟨hrounds, -, hback⟩ := h.ofDb_rounds
  obtain ⟨-, raw, hraw, himage, -⟩ := hrounds 1 .above
  obtain ⟨⟨low, hlow, hle⟩, -⟩ := hback rfl (by decide) (by decide) 1
  exact ⟨b, scale, by decide, h, (hrounds 1 .nearest).1, ⟨raw, hraw, himage⟩, low, hlow, hle⟩

end Measures

end Binding

end SoundDesk
