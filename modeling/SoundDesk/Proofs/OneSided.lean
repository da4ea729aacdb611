import SoundDesk.Proofs.Decibels
import SoundDesk.Proofs.UserRange

/-!
# Proofs/OneSided — decibels that are asked for through a user range

    decibels ──ofDb──▸ raw value ──toUser──▸ value of the user ──toRaw──▸ raw value ──toDb──▸ decibels
              as asked            nearest                       nearest              nearest

Only the first step rounds in the direction that was asked for.  The answer is as many decibels as the raw value
that comes back from the user has, so it keeps to its side exactly if that raw value does, up to half a unit.  A user
range that is not narrower than the control brings every raw value back, and nothing is lost.  A narrower one has one
value for two neighbours, and where the scale has two steps or more for each raw value, the decibels between these two
are answered on the wrong side (`ByName.Life.leans`).
-/

namespace SoundDesk

variable {ε π : Type}

/-! ## Neighbours that are rounded alike -/

namespace Rounding

/-- **A narrower width has one value for two neighbours**, where what it lacks comes to half a unit. -/
theorem divide_collides {R U : Int} (hR : 0 < R) (hU : 0 ≤ U) (hlt : U < R) : ∃ q, 0 ≤ q ∧ q + 1 ≤ R ∧
    divide (q * U) R .nearest = divide ((q + 1) * U) R .nearest := by
  obtain ⟨lack, hlack⟩ : ∃ lack, lack = R - U := ⟨_, rfl⟩
  obtain rfl : U = R - lack := by omega
  have hpos : 0 < 2 * lack := by omega
  have hnonneg : 0 ≤ R / (2 * lack) := Int.ediv_nonneg hR.le hpos.le
  have hlow : R / (2 * lack) * (2 * lack) ≤ R := (Int.le_ediv_iff_mul_le hpos).mp le_rfl
  have hhigh : R < (R / (2 * lack) + 1) * (2 * lack) := (Int.ediv_lt_iff_lt_mul hpos).mp (Int.lt_succ _)
  generalize R / (2 * lack) = q at hnonneg hlow hhigh
  -- up to the first of them half a unit is lacking at most, and up to the second more than that
  have hpart : q ≤ q * lack := le_mul_of_one_le_right hnonneg (by omega)
  have hfirst : divide (q * (R - lack)) R .nearest = q :=
    (divide_nearest_eq_iff hR).mpr (by constructor <;> linarith)
  have hsecond : divide ((q + 1) * (R - lack)) R .nearest = q :=
    (divide_nearest_eq_iff hR).mpr (by constructor <;> linarith)
  have hhalf : 2 * q ≤ R := by linarith
  exact ⟨q, hnonneg, by omega, hfirst.trans hsecond.symm⟩

/-- **Between two neighbours** that are two steps apart there is a step: it is rounded below to the one, and above to
the other, and is neither of what they are carried to. -/
theorem exists_between {R S : Int} (hR : 0 < R) (hS : 2 * R ≤ S) (q : Int) :
    ∃ d, divide (d * R) S .below = q ∧ divide (d * R) S .above = q + 1 ∧
      divide (q * S) R .nearest < d ∧ d < divide ((q + 1) * S) R .nearest := by
  have hpos : 0 < S := by omega
  obtain ⟨low, hfirst⟩ : ∃ low, divide (q * S) R .nearest = low := ⟨_, rfl⟩
  obtain ⟨high, hsecond⟩ : ∃ high, divide ((q + 1) * S) R .nearest = high := ⟨_, rfl⟩
  obtain ⟨hlow, hlow'⟩ := (divide_nearest_eq_iff hR).mp hfirst
  obtain ⟨hhigh, hhigh'⟩ := (divide_nearest_eq_iff hR).mp hsecond
  have hsteps : 4 * R < (2 * high - 2 * low + 2) * R := by linarith
  have hapart := lt_of_mul_lt_mul_right hsteps hR.le
  refine ⟨low + 1, ?_, ?_, by omega, by omega⟩
  · rw [divide, Int.ediv_eq_iff_of_pos hpos]
    constructor <;> linarith
  · rw [divide, neg_eq_iff_eq_neg, Int.ediv_eq_iff_of_pos hpos]
    constructor <;> linarith

end Rounding

/-- Each distance on a range is that of a value. -/
theorem Span.exists_delta (r : Span) {d : Int} (hlow : 0 ≤ d) (hhigh : d ≤ r.width) : ∃ x, r.delta x = d := by
  have hwidth : r.width = r.hi.toInt - r.lo.toInt := rfl
  have hword : (Int64.ofInt (r.lo.toInt + d)).toInt = r.lo.toInt + d :=
    toInt_ofInt (r := r) (by omega) (by omega)
  refine ⟨.ofInt (r.lo.toInt + d), ?_⟩
  rw [delta_of_mem (Int64.le_iff_toInt_le.mpr (by omega)) (Int64.le_iff_toInt_le.mpr (by omega)), hword]
  exact add_sub_cancel_left _ _

/-! ## Through the user range, and back -/

namespace Wiring

variable {v : Wiring} {dir : Direction} {b : Binding} {scale : DbScale} {db : Int64} {rounding : Rounding}

/-- The decibels that are answered for the value that is answered for decibels. -/
def askBack (v : Wiring) (dir : Direction) (b : Binding) (db : Int64) (rounding : Rounding) : Except Fault Int64 := do
  b.toDb (← v.toRaw dir b (← v.toUser dir b (← b.ofDb db rounding)))

theorem askBack_eq {raw value back : Int64} (hraw : b.ofDb db rounding = .ok raw)
    (hvalue : v.toUser dir b raw = .ok value) (hback : v.toRaw dir b value = .ok back) :
    v.askBack dir b db rounding = b.toDb back := by
  rw [askBack, hraw]
  change (liftM (v.toUser dir b raw) >>= _ : Except Fault Int64) = _
  rw [hvalue, lift_word_bind, hback, lift_word_bind]

/-- The conversions there and back keep to their side. -/
def OneSided (v : Wiring) (dir : Direction) (b : Binding) (scale : DbScale) : Prop := ∀ db,
  (∃ low, v.askBack dir b db .below = .ok low ∧ low ≤ scale.range.clamp db) ∧
  ∃ high, v.askBack dir b db .above = .ok high ∧ scale.range.clamp db ≤ high

/-- **Decibels are converted through a user range**: the scale does not mute, the ranges are in order, and no product
of their widths is near the end of the wide numbers. -/
structure Converts (v : Wiring) (dir : Direction) (b : Binding) (scale : DbScale) : Prop where
  ordered : v.Ordered
  has : b.info.db = some scale
  sound : scale.mute = false
  raw : b.info.min < b.info.max
  rises : scale.min < scale.max
  rangeWidth : b.range.width < 2 ^ 60
  scaleWidth : scale.range.width < 2 ^ 60
  userWidth : (v.userRange dir b).width < 2 ^ 60

namespace Converts

variable (h : v.Converts dir b scale)
include h

theorem measures : b.Measures scale :=
  ⟨h.has, Int64.le_of_lt h.raw, h.rises, h.rangeWidth.trans (by decide), h.scaleWidth.trans (by decide)⟩

theorem range_pos : 0 < b.range.width := Binding.width_pos h.raw

theorem user_lt : (v.userRange dir b).lo < (v.userRange dir b).hi := userRange_lt h.ordered h.raw dir

theorem user_pos : 0 < (v.userRange dir b).width := Span.width_pos h.user_lt

theorem fits : 4 * (b.range.width * scale.range.width) < 2 ^ 127 := by
  have hproduct := mul_lt_mul'' h.rangeWidth h.scaleWidth h.range_pos.le h.measures.scaleWidth_pos.le
  omega

theorem fits_user : 4 * (b.range.width * (v.userRange dir b).width) < 2 ^ 127 := by
  have hproduct := mul_lt_mul'' h.rangeWidth h.userWidth h.range_pos.le h.user_pos.le
  omega

/-- **The steps there and back**, each of which answers. -/
theorem steps (db : Int64) (rounding : Rounding) : ∃ raw value back, b.ofDb db rounding = .ok raw ∧
    v.toUser dir b raw = .ok value ∧ v.toRaw dir b value = .ok back ∧ v.askBack dir b db rounding = b.toDb back ∧
    b.range.delta raw = rounding.divide (scale.range.delta db * b.range.width) scale.range.width ∧
    value.toInt = (v.userRange dir b).lo.toInt +
      Rounding.divide (b.range.delta raw * (v.userRange dir b).width) b.range.width .nearest := by
  have hsource : b.range.lo < b.range.hi := h.raw
  obtain ⟨raw, hraw, hlow, hhigh, hreach⟩ := h.measures.ofDb_run db rounding
  obtain ⟨value, hvalue, -, -, himage⟩ := Scale.rescale_run hsource (Int64.le_of_lt h.user_lt) h.fits_user raw
  obtain ⟨back, hback, -⟩ := Scale.rescale_run h.user_lt (Int64.le_of_lt hsource)
    (by rw [Int.mul_comm (v.userRange dir b).width]; exact h.fits_user) value
  have hdelta : b.range.delta raw = raw.toInt - b.info.min.toInt := Span.delta_of_mem hlow hhigh
  refine ⟨raw, value, back, hraw, hvalue, hback, askBack_eq hraw hvalue hback, ?_, himage⟩
  rw [hdelta, hreach, add_sub_cancel_left]

theorem toDb_run (raw : Int64) : ∃ db, b.toDb raw = .ok db ∧ db.toInt =
    scale.min.toInt + Rounding.divide (b.range.delta raw * scale.range.width) b.range.width .nearest := by
  obtain ⟨db, hdb, -, -, hreach⟩ := h.measures.toDb_run h.raw h.fits raw (by simp [h.sound])
  exact ⟨db, hdb, hreach⟩

/-- **The answer** is the exact image of the raw value that comes back, rounded to the nearest integer: it is on the
side that was asked for if that is so up to half a unit. -/
theorem answers (db : Int64) (rounding : Rounding) : ∃ raw value back answer, b.ofDb db rounding = .ok raw ∧
    v.toUser dir b raw = .ok value ∧ v.toRaw dir b value = .ok back ∧ v.askBack dir b db rounding = .ok answer ∧
    (answer ≤ scale.range.clamp db ↔ b.range.image scale.range back < (scale.range.clamp db).toInt + 1 / 2) ∧
    (scale.range.clamp db ≤ answer ↔ (scale.range.clamp db).toInt - 1 / 2 ≤ b.range.image scale.range back) := by
  obtain ⟨raw, value, back, hraw, hvalue, hback, hask, -⟩ := h.steps db rounding
  obtain ⟨answer, hanswer, hreach⟩ := h.toDb_run back
  have hrounds : answer.toInt = Rounding.nearest.round (b.range.image scale.range back) :=
    hreach.trans (Span.round_image b.range scale.range h.range_pos back .nearest).symm
  refine ⟨raw, value, back, answer, hraw, hvalue, hback, hask.trans hanswer, ?_, ?_⟩
  · rw [Int64.le_iff_toInt_le, hrounds, Rounding.round_nearest_le_iff]
  · rw [Int64.le_iff_toInt_le, hrounds, Rounding.le_round_nearest_iff]

/-- Through a user range that is not narrower than the control, nothing is lost. -/
theorem askBack_of_wide (hwide : b.range.width ≤ (v.userRange dir b).width) (db : Int64) (rounding : Rounding) :
    v.askBack dir b db rounding = (b.ofDb db rounding >>= b.toDb) := by
  obtain ⟨raw, hraw, hlow, hhigh, -⟩ := h.measures.ofDb_run db rounding
  obtain ⟨value, hvalue, hback⟩ := toRaw_toUser h.ordered h.raw hwide h.fits_user hlow hhigh
  rw [askBack_eq hraw hvalue hback, hraw]
  rfl

theorem oneSided_of_wide (hwide : b.range.width ≤ (v.userRange dir b).width) : v.OneSided dir b scale := by
  intro db
  rw [h.askBack_of_wide hwide, h.askBack_of_wide hwide]
  exact ⟨h.measures.toDb_ofDb_below h.sound h.raw h.fits db, h.measures.toDb_ofDb_above h.sound h.raw h.fits db⟩

/-- **Decibels between two neighbours that the user cannot tell apart**: one raw value comes back for them, whichever
way they are rounded. -/
theorem exists_collision (hfine : 2 * b.range.width ≤ scale.range.width)
    (hnarrow : (v.userRange dir b).width < b.range.width) : ∃ q db back,
    Rounding.divide (q * scale.range.width) b.range.width .nearest < scale.range.delta db ∧
    scale.range.delta db < Rounding.divide ((q + 1) * scale.range.width) b.range.width .nearest ∧
    v.askBack dir b db .below = b.toDb back ∧ v.askBack dir b db .above = b.toDb back := by
  have hrange := h.range_pos
  have hscale := h.measures.scaleWidth_pos.le
  obtain ⟨q, hq, hnext, hcollides⟩ := Rounding.divide_collides hrange h.user_pos.le hnarrow
  obtain ⟨d, hbelow, habove, hlow, hhigh⟩ := Rounding.exists_between hrange hfine q
  have hfirst := (Rounding.divide_mem hrange hscale hq (by omega) .nearest).1
  have hlast := (Rounding.divide_mem hrange hscale (by omega) hnext .nearest).2
  obtain ⟨db, rfl⟩ := scale.range.exists_delta (d := d) (by omega) (by omega)
  obtain ⟨raw, value, back, -, -, hback, hask, hraw, hvalue⟩ := h.steps db .below
  obtain ⟨raw', value', back', -, -, hback', hask', hraw', hvalue'⟩ := h.steps db .above
  rw [hraw, hbelow] at hvalue
  rw [hraw', habove, ← hcollides] at hvalue'
  obtain rfl : value = value' := Int64.toInt_inj.mp (hvalue.trans hvalue'.symm)
  obtain rfl : back = back' := Except.ok.inj (hback.symm.trans hback')
  exact ⟨q, db, back, hlow, hhigh, hask, hask'⟩

/-- No raw value has decibels between those of two neighbours. -/
theorem toDb_ne_between {q d : Int} {raw : Int64}
    (hlow : Rounding.divide (q * scale.range.width) b.range.width .nearest < d)
    (hhigh : d < Rounding.divide ((q + 1) * scale.range.width) b.range.width .nearest)
    (hdb : b.toDb raw = .ok db) : db.toInt ≠ scale.min.toInt + d := by
  have hscale := h.measures.scaleWidth_pos.le
  obtain ⟨db', hdb', hreach⟩ := h.toDb_run raw
  obtain rfl : db' = db := Except.ok.inj (hdb'.symm.trans hdb)
  rcases Int.lt_or_le q (b.range.delta raw) with hup | hdown
  · have hproduct := Int.mul_le_mul_of_nonneg_right (Int.add_one_le_of_lt hup) hscale
    have hmono := Rounding.divide_mono h.range_pos hproduct .nearest
    omega
  · have hproduct := Int.mul_le_mul_of_nonneg_right hdown hscale
    have hmono := Rounding.divide_mono h.range_pos hproduct .nearest
    omega

/-- **Through a narrower user range a side is lost**, where the scale has two steps or more for each raw value. -/
theorem wide_of_oneSided (hfine : 2 * b.range.width ≤ scale.range.width) (hone : v.OneSided dir b scale) :
    b.range.width ≤ (v.userRange dir b).width := by
  by_contra hnarrow
  obtain ⟨q, db, back, hlow, hhigh, hbelow, habove⟩ := h.exists_collision hfine (not_le.mp hnarrow)
  obtain ⟨⟨low, haskLow, hle⟩, high, haskHigh, hge⟩ := hone db
  rw [hbelow] at haskLow
  rw [habove, haskLow] at haskHigh
  obtain rfl : low = high := Except.ok.inj haskHigh
  -- the one answer can be on neither side but at the decibels, and no raw value has these
  have hclamp : scale.min.toInt + scale.range.delta db = (scale.range.clamp db).toInt := add_sub_cancel _ _
  rw [← Int64.le_antisymm hle hge] at hclamp
  exact h.toDb_ne_between hlow hhigh haskLow hclamp.symm

end Converts

end Wiring

/-- What answers without a change, after what does so as well. -/
theorem Action.bind_answers {σ α β : Type} {x : Action σ α} {f : α → Action σ β} {r : Except Fault α}
    {g : α → Except Fault β} {s : σ} (hx : x s = (r, s)) (hf : ∀ a, f a s = (g a, s)) :
    (x >>= f) s = (r >>= g, s) := by
  rw [bind_run, hx]
  cases r with
  | error err => rfl
  | ok a => exact hf a

namespace Element

variable {e : Element ε} {sessions : List (Session ε)} {dir : Direction} {v : Wiring} {b : Binding} {w : World ε}

/-- Ask for the volume for decibels, and for the decibels of that volume. -/
def askBack (e : Element ε) (sessions : List (Session ε)) (dir : Direction) (db : Int64) (rounding : Rounding) :
    Action (World ε) Int64 := do
  e.volumeToDb sessions dir (← e.dbToVolume sessions dir db rounding)

theorem Leads.through_run {α : Type} (h : e.Leads dir v b) (go : Wiring → Binding → Action (World ε) α)
    (w : World ε) : e.through dir go w = go v b w :=
  operate_run (requireVolume_eq_ok.mpr h.has) h.wiring h.volume w

/-- **To ask there and back** is to convert there and back, and changes nothing. -/
theorem Leads.askBack_run (h : e.Leads dir v b) (hops : e.ops = Wiring.ops) (db : Int64) (rounding : Rounding)
    (w : World ε) : e.askBack sessions dir db rounding w = (v.askBack dir b db rounding, w) := by
  have hthere : e.dbToVolume sessions dir db rounding w =
      (b.ofDb db rounding >>= fun raw => liftM (v.toUser dir b raw), w) := by
    rw [dbToVolume_eq_through hops, h.through_run]
    cases b.ofDb db rounding <;> rfl
  have hback : ∀ value, e.volumeToDb sessions dir value w = (liftM (v.toRaw dir b value) >>= b.toDb, w) := by
    intro value
    rw [volumeToDb_eq_through hops, h.through_run]
    cases v.toRaw dir b value <;> rfl
  rw [askBack, Action.bind_answers hthere hback, bind_assoc]
  rfl

/-- **Asking keeps to its side**: what is asked for below is not above the decibels on the way back, and what is asked
for above is not below. -/
def OneSided (e : Element ε) (sessions : List (Session ε)) (dir : Direction) (scale : DbScale) (w : World ε) : Prop :=
  ∀ db, (∃ low, e.askBack sessions dir db .below w = (.ok low, w) ∧ low ≤ scale.range.clamp db) ∧
    ∃ high, e.askBack sessions dir db .above w = (.ok high, w) ∧ scale.range.clamp db ≤ high

theorem Leads.oneSided_iff (h : e.Leads dir v b) (hops : e.ops = Wiring.ops) {scale : DbScale} :
    e.OneSided sessions dir scale w ↔ v.OneSided dir b scale := by
  have hask : ∀ db rounding answer, e.askBack sessions dir db rounding w = (.ok answer, w) ↔
      v.askBack dir b db rounding = .ok answer := by
    intro db rounding answer
    rw [h.askBack_run hops]
    exact ⟨congrArg Prod.fst, congrArg (·, w)⟩
  simp only [OneSided, Wiring.OneSided, hask]

end Element

namespace ByName

open Mixer (connect)

variable {initial : π} {untouched : Prop}

/-- **Asking there and back through a user range leans to the nearest.**  For an element of a mixer in use, whatever
range was chosen for it: what is asked for decibels is answered there and back, and the answer is on the side that was
asked for exactly if the raw value that comes back from the user is so up to half a unit.  So both ways keep to their
side if the user range is not narrower than the control; and if the scale has two steps or more for each raw value,
they do so only then. -/
theorem Life.leans {m : Mixer ε π} {w : World ε} (h : Life untouched initial m w) {e : Element ε}
    (he : e ∈ m.elements) {dir : Direction} {v : Wiring} {b : Binding} (hleads : e.Leads dir v b) {scale : DbScale}
    (hdb : b.info.db = some scale) (hsound : scale.mute = false) (hraw : b.info.min < b.info.max)
    (hrises : scale.min < scale.max) (hrange : b.range.width < 2 ^ 60) (hscale : scale.range.width < 2 ^ 60)
    (huser : (v.userRange dir b).width < 2 ^ 60) :
    (∀ db rounding, ∃ raw value back answer, b.ofDb db rounding = .ok raw ∧ v.toUser dir b raw = .ok value ∧
      v.toRaw dir b value = .ok back ∧ e.askBack m.sessions dir db rounding w = (.ok answer, w) ∧
      (answer ≤ scale.range.clamp db ↔ b.range.image scale.range back < (scale.range.clamp db).toInt + 1 / 2) ∧
      (scale.range.clamp db ≤ answer ↔ (scale.range.clamp db).toInt - 1 / 2 ≤ b.range.image scale.range back)) ∧
    (b.range.width ≤ (v.userRange dir b).width → e.OneSided m.sessions dir scale w) ∧
    (2 * b.range.width ≤ scale.range.width → e.OneSided m.sessions dir scale w →
      b.range.width ≤ (v.userRange dir b).width) := by
  obtain ⟨hops, -⟩ := h.settled.2 e he
  have hconverts : v.Converts dir b scale :=
    ⟨(h.chosen e he).ordered hleads.wiring, hdb, hsound, hraw, hrises, hrange, hscale, huser⟩
  have hone : e.OneSided m.sessions dir scale w ↔ v.OneSided dir b scale := hleads.oneSided_iff hops
  refine ⟨fun db rounding => ?_, ?_, ?_⟩
  · rw [hleads.askBack_run hops]
    obtain ⟨raw, value, back, answer, hraw, hvalue, hback, hask, hsides⟩ := hconverts.answers db rounding
    exact ⟨raw, value, back, answer, hraw, hvalue, hback, by rw [hask], hsides⟩
  · exact fun hwide => hone.mpr (hconverts.oneSided_of_wide hwide)
  · exact fun hfine hkeeps => hconverts.wide_of_oneSided hfine (hone.mp hkeeps)

/-- A card with a volume from 0 to 10, and a hundred steps of decibels for each of them. -/
def steepVolume : Cards := .ofList [("card", [(.mixer 1 "Master Playback Volume" 0,
  (ControlInfo.integer 2 0 10).withDb 0 1000)])]

/-- A range of forty is chosen for the card: what is asked for keeps to its side. -/
theorem Life.leans_wide : ∃ (m : Mixer Unit Unit) (w : World Unit), Life True () m w ∧ ∃ e ∈ m.elements,
    e.OneSided m.sessions .playback ⟨0, 1000, false⟩ w := by
  have hopen : Life True () _ _ := .opened
    (show connect (provider ()) ⟨"desk", .none⟩ Mixer.overCard ⟨steepVolume, ()⟩ = (.ok _, _) from rfl)
  have hranged := hopen.ranged
    (show Mixer.setVolumeRange _ ⟨"Master", 0⟩ .playback ⟨-20, 20⟩ = .ok _ from rfl)
  obtain ⟨m, w, h, e, he, hhas, hmade⟩ : ∃ (m : Mixer Unit Unit) (w : World Unit), Life True () m w ∧
      ∃ e ∈ m.elements, e.hasVolume .playback = true ∧ ∀ v ∈ e.wiring, ∀ b ∈ v.bindings,
        b.range = ⟨0, 10⟩ ∧ b.info.db = some ⟨0, 1000, false⟩ ∧ v.userRange .playback b = ⟨-20, 20⟩ :=
    ⟨_, _, hranged, by decide +kernel⟩
  obtain ⟨v, b, hleads⟩ := h.leads he hhas
  obtain ⟨hrange, hscale, huser⟩ := hmade v hleads.wiring b (Wiring.volume_eq_ok hleads.volume).1
  have hmin : b.info.min = 0 := congrArg Span.lo hrange
  have hmax : b.info.max = 10 := congrArg Span.hi hrange
  obtain ⟨-, hwide, -⟩ := h.leans he hleads hscale rfl (by rw [hmin, hmax]; decide) (by decide)
    (by rw [hrange]; decide) (by decide) (by rw [huser]; decide)
  exact ⟨m, w, h, e, he, hwide (by rw [hrange, huser]; decide)⟩

/-- **A range of two values loses the side**: six raw values are the upper half, which has the most decibels. -/
theorem Life.leans_over : ∃ (m : Mixer Unit Unit) (w : World Unit), Life True () m w ∧ ∃ e ∈ m.elements,
    ∃ v b, e.Leads .playback v b ∧ b.range = ⟨0, 10⟩ ∧ b.info.db = some ⟨0, 1000, false⟩ ∧
      v.userRange .playback b = ⟨0, 1⟩ ∧ e.askBack m.sessions .playback 600 .below w = (.ok 1000, w) ∧
      ¬ e.OneSided m.sessions .playback ⟨0, 1000, false⟩ w := by
  have hopen : Life True () _ _ := .opened
    (show connect (provider ()) ⟨"desk", .none⟩ Mixer.overCard ⟨steepVolume, ()⟩ = (.ok _, _) from rfl)
  have hranged := hopen.ranged
    (show Mixer.setVolumeRange _ ⟨"Master", 0⟩ .playback ⟨0, 1⟩ = .ok _ from rfl)
  obtain ⟨m, w, h, e, he, hhas, hmade⟩ : ∃ (m : Mixer Unit Unit) (w : World Unit), Life True () m w ∧
      ∃ e ∈ m.elements, e.hasVolume .playback = true ∧ ∀ v ∈ e.wiring, ∀ b ∈ v.bindings,
        b.range = ⟨0, 10⟩ ∧ b.info.db = some ⟨0, 1000, false⟩ ∧ v.userRange .playback b = ⟨0, 1⟩ ∧
        v.askBack .playback b 600 .below = .ok 1000 := ⟨_, _, hranged, by decide +kernel⟩
  obtain ⟨hops, -⟩ := h.settled.2 e he
  obtain ⟨v, b, hleads⟩ := h.leads he hhas
  obtain ⟨hrange, hscale, huser, hmost⟩ := hmade v hleads.wiring b (Wiring.volume_eq_ok hleads.volume).1
  have hask : e.askBack m.sessions .playback 600 .below w = (.ok 1000, w) := by
    rw [hleads.askBack_run hops, hmost]
  refine ⟨m, w, h, e, he, v, b, hleads, hrange, hscale, huser, hask, fun hone => ?_⟩
  obtain ⟨⟨low, hlow, hle⟩, -⟩ := hone 600
  obtain rfl : 1000 = low := Except.ok.inj (congrArg Prod.fst (hask.symm.trans hlow))
  exact absurd hle (by decide)

end ByName

end SoundDesk
