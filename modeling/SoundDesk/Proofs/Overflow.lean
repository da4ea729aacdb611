import SoundDesk.Proofs.Decibels

/-!
# Proofs/Overflow — the widths that the conversion from decibels is given up at

    width of the scale      -2^64 ─────── -2^63 ──────────── 0 ──────────── 2^63 ─────── 2^64
                                given up    │  least value   │   converted    │   given up
    width of the range      -2^64 ─────── -2^63 ─────────────────────────── 2^63 ─────── 2^64
                                given up    │           converted             │   given up

The differences of the ends are taken as words, and a difference that is no word gives the conversion up, whatever is
asked: that of the scale at once, that of the range on a scale that rises (`Binding.ofDb_aborts_iff`).  With the ends in
order, the conversion is as it should be exactly if both widths are words (`Binding.ofDb_safe_iff`).
-/

namespace SoundDesk.Binding

variable {b : Binding} {scale : DbScale} {db : Int64} {rounding : Rounding}

/-! ## Widths that are words -/

/-- **The conversion from decibels climbs** from one end of the range to the other: it always answers a value of the
range, the ends of the scale and what is beyond them lead to the ends of the range, and more decibels never lead to
less. -/
structure Climbs (b : Binding) (scale : DbScale) : Prop where
  answers : ∀ db rounding, ∃ raw, b.ofDb db rounding = .ok raw ∧ b.info.min ≤ raw ∧ raw ≤ b.info.max
  first : ∀ db rounding, db ≤ scale.min → b.ofDb db rounding = .ok b.info.min
  last : ∀ db rounding, scale.max ≤ db → b.ofDb db rounding = .ok b.info.max
  mono : ∀ db db' rounding raw raw', db ≤ db' → b.ofDb db rounding = .ok raw → b.ofDb db' rounding = .ok raw' →
    raw ≤ raw'

namespace Measures

variable (h : b.Measures scale)
include h

/-- The raw value for decibels is the word at the rounded quotient. -/
theorem ofDb_of_divide {raw : Int64} (hquotient : b.info.min.toInt +
    rounding.divide (scale.range.delta db * b.range.width) scale.range.width = raw.toInt) :
    b.ofDb db rounding = .ok raw := by
  obtain ⟨raw', hraw, -, -, hreach⟩ := h.ofDb_run db rounding
  rw [hraw, Int64.toInt_inj.mp (hreach.trans hquotient)]

/-- Between widths that are words the conversion climbs. -/
theorem climbs : b.Climbs scale := by
  constructor
  · intro db rounding
    obtain ⟨raw, hraw, hlow, hhigh, -⟩ := h.ofDb_run db rounding
    exact ⟨raw, hraw, hlow, hhigh⟩
  · intro db rounding hdb
    apply h.ofDb_of_divide
    rw [DbScale.delta_first h.rises hdb, Int.zero_mul, Rounding.divide_zero h.scaleWidth_pos, Int.add_zero]
  · intro db rounding hdb
    apply h.ofDb_of_divide
    rw [DbScale.delta_last h.rises hdb, Int.mul_comm, Rounding.divide_mul h.scaleWidth_pos]
    exact add_sub_cancel _ _
  · intro db db' rounding raw raw' hle hraw hraw'
    exact h.ofDb_mono hle hraw hraw'

end Measures

/-! ## Widths that are not -/

/-- **The conversion from decibels overflows**: the width of the scale is no word, or the scale rises and the width of
the range is none. -/
def Overflows (b : Binding) : Prop := ∃ scale, b.info.db = some scale ∧
  (¬ IsWord scale.range.width ∨ scale.min < scale.max ∧ ¬ IsWord b.range.width)

/-- On a scale the conversion answers, or it overflows. -/
theorem ofDb_cases (h : b.info.db = some scale) (db : Int64) (rounding : Rounding) :
    (∃ raw, b.ofDb db rounding = .ok raw) ∨ b.ofDb db rounding = .error (.aborted .overflow) := by
  by_cases hscale : IsWord scale.range.width
  · rcases Int64.lt_or_le scale.min scale.max with hrises | hflat
    · by_cases hwidth : IsWord b.range.width
      · obtain ⟨raw, hraw, -⟩ := ofDb_run h db rounding hrises hscale hwidth
        exact .inl ⟨raw, hraw⟩
      · exact .inr (ofDb_of_wide_range h db rounding hrises hscale hwidth)
    · exact .inl ⟨_, ofDb_of_flat_scale h db rounding hscale hflat⟩
  · exact .inr (ofDb_of_wide_scale h db rounding hscale)

/-- **The conversion from decibels is given up exactly if it overflows**, whatever is asked of it; a reversed range to
clamp to is never the cause. -/
theorem ofDb_aborts_iff {cause : Abort} :
    b.ofDb db rounding = .error (.aborted cause) ↔ cause = .overflow ∧ b.Overflows := by
  rcases b.scale_cases with ⟨scale, hdb, -⟩ | ⟨hdb, reason, hs⟩
  · have hoverflows : b.Overflows ↔
        ¬ IsWord scale.range.width ∨ scale.min < scale.max ∧ ¬ IsWord b.range.width := by
      rw [Overflows, hdb]
      exact ⟨fun ⟨_, heq, h⟩ => Option.some.inj heq ▸ h, fun h => ⟨scale, rfl, h⟩⟩
    rw [hoverflows]
    by_cases hscale : IsWord scale.range.width
    · by_cases hrises : scale.min < scale.max
      · by_cases hwidth : IsWord b.range.width
        · obtain ⟨raw, hraw, -⟩ := ofDb_run hdb db rounding hrises hscale hwidth
          simp [hraw, hscale, hwidth]
        · simp [ofDb_of_wide_range hdb db rounding hrises hscale hwidth, hrises, hwidth, eq_comm]
      · simp [ofDb_of_flat_scale hdb db rounding hscale (Int64.not_lt.mp hrises), hscale, hrises]
    · simp [ofDb_of_wide_scale hdb db rounding hscale, hscale, eq_comm]
  · rw [ofDb, hs, lift_refused_bind, Overflows, hdb]
    simp

/-! ## When the conversion is as it should be -/

section
variable (h : b.info.db = some scale) (hordered : b.info.min ≤ b.info.max) (hrises : scale.min < scale.max)
include h hordered hrises

/-- With the ends in order, a width overflows upwards only. -/
theorem overflows_iff : b.Overflows ↔ ¬ (b.range.width < 2 ^ 63 ∧ scale.range.width < 2 ^ 63) := by
  have hwidth : 0 ≤ b.range.width := Int.sub_nonneg.mpr (Int64.le_iff_toInt_le.mp hordered)
  have hscale := DbScale.width_pos hrises
  have hword : IsWord b.range.width ↔ b.range.width < 2 ^ 63 := ⟨And.right, fun hlt => ⟨by omega, hlt⟩⟩
  have hword' : IsWord scale.range.width ↔ scale.range.width < 2 ^ 63 := ⟨And.right, fun hlt => ⟨by omega, hlt⟩⟩
  rw [Overflows, h, ← hword, ← hword', and_comm, Classical.not_and_iff_not_or_not]
  constructor
  · rintro ⟨_, ⟨⟩, hwide | ⟨-, hwide⟩⟩
    · exact .inl hwide
    · exact .inr hwide
  · exact fun hwide => ⟨scale, rfl, hwide.imp_right fun hwide => ⟨hrises, hwide⟩⟩

/-- **The conversion from decibels is safe exactly if both widths are words**: nothing overflows then, and it climbs
from one end of the range to the other; else there is no answer at all, since every conversion is given up. -/
theorem ofDb_safe_iff :
    ((∀ db rounding, b.Exact scale db rounding) ∧ b.Climbs scale ↔
      b.range.width < 2 ^ 63 ∧ scale.range.width < 2 ^ 63) ∧
    (¬ (b.range.width < 2 ^ 63 ∧ scale.range.width < 2 ^ 63) ↔
      ∀ db rounding, b.ofDb db rounding = .error (.aborted .overflow)) := by
  have hgiven : (¬ (b.range.width < 2 ^ 63 ∧ scale.range.width < 2 ^ 63)) →
      ∀ db rounding, b.ofDb db rounding = .error (.aborted .overflow) := fun hwide db rounding =>
    ofDb_aborts_iff.mpr ⟨rfl, (overflows_iff h hordered hrises).mpr hwide⟩
  refine ⟨⟨fun ⟨hexact, _⟩ => ⟨(hexact 0 .below).width.2, (hexact 0 .below).scaleWidth.2⟩, ?_⟩, hgiven, ?_⟩
  · rintro ⟨hwidth, hscale⟩
    have hmeasures : b.Measures scale := ⟨h, hordered, hrises, hwidth, hscale⟩
    exact ⟨hmeasures.exact, hmeasures.climbs⟩
  · intro hall
    exact (overflows_iff h hordered hrises).mp (ofDb_aborts_iff.mp (hall 0 .below)).2

end

/-- A volume control of one channel with this range and this scale. -/
def ofRange (range : Span) (scale : DbScale) : Binding :=
  ⟨⟨0, 1⟩, .mixer 1 "Master Playback Volume" 0,
    { ControlInfo.integer 1 range.lo range.hi with db := some scale }, .volume .playback⟩

/-- The widest range whose width is a word climbs on a scale of fifty decibels, and one that is wider by a single step
is given up. -/
theorem ofDb_safe_iff_widest : (ofRange ⟨-1, 9223372036854775806⟩ ⟨-5000, 0, false⟩).Climbs ⟨-5000, 0, false⟩ ∧
    ∀ db rounding, (ofRange ⟨-1, 9223372036854775807⟩ ⟨-5000, 0, false⟩).ofDb db rounding =
      .error (.aborted .overflow) := by
  constructor
  · exact ((ofDb_safe_iff rfl (by decide) (by decide)).1.mpr ⟨by decide, by decide⟩).2
  · have hscale : (ofRange ⟨-1, 9223372036854775807⟩ ⟨-5000, 0, false⟩).info.db = some ⟨-5000, 0, false⟩ := rfl
    exact (ofDb_safe_iff hscale (by decide) (by decide)).2.mp (by decide)

/-- **Beyond these widths there is no answer**, though the ends are in order: not for the most decibels of a scale that
is too wide, and not for the middle of a scale in a range that is too wide. -/
theorem ofDb_overflows :
    (∃ (b : Binding) (scale : DbScale), b.info.db = some scale ∧ b.info.min < b.info.max ∧ scale.min < scale.max ∧
      b.ofDb scale.max .nearest = .error (.aborted .overflow)) ∧
    ∃ (b : Binding) (scale : DbScale) (db : Int64), b.info.db = some scale ∧ b.info.min < b.info.max ∧
      scale.min < db ∧ db < scale.max ∧ b.ofDb db .nearest = .error (.aborted .overflow) := by
  constructor
  · let scale : DbScale := ⟨-6000000000000000000, 6000000000000000000, false⟩
    exact ⟨ofRange ⟨0, 10⟩ scale, scale, rfl, by decide, by decide, by decide +kernel⟩
  · let scale : DbScale := ⟨-5000, 0, false⟩
    exact ⟨ofRange ⟨-6000000000000000000, 6000000000000000000⟩ scale, scale, -2500, rfl, by decide, by decide,
      by decide, by decide +kernel⟩

end SoundDesk.Binding
