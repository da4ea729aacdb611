import SoundDesk.Proofs.Overflow
import SoundDesk.Proofs.UserRange

/-!
# Proofs/WriteBack — decibels that are read and set again

    raw value  ──toDb──▸  decibels  ──ofDb──▸  raw value         range ≤ scale
        min    ─────────▸  silence  ────────▸  min               where the scale mutes

Raw values and decibels are carried into each other by two definitions, and each of them rounds to the nearest.  On a
scale that is not narrower than the range the raw value comes back, as it does between two ranges; and silence comes
back because it is not above the scale.  So to set the decibels that were read changes nothing
(`ByName.Life.restores`).
-/

namespace SoundDesk

variable {ε π : Type}

namespace Binding.Measures

variable {b : Binding} {scale : DbScale} {raw : Int64} (h : b.Measures scale)
include h

/-- The least value of a scale that mutes is silence. -/
theorem toDb_first (hmute : scale.mute = true) : b.toDb b.info.min = .ok silence := by
  rw [toDb, scale_eq_ok h.has, lift_ok_bind]
  refine if_pos ?_
  rw [hmute, Bool.true_and]
  exact decide_eq_true (Int64.le_refl _)

/-- **Decibels and back**: on a scale that is not narrower than the range, the raw value of its decibels is the raw
value. -/
theorem ofDb_toDb (hraw : b.info.min < b.info.max) (hfine : b.range.width ≤ scale.range.width)
    (hfits : 4 * (b.range.width * scale.range.width) < 2 ^ 127) (hsilent : scale.mute = true → silence ≤ scale.min)
    (hlow : b.info.min ≤ raw) (hhigh : raw ≤ b.info.max) :
    ∃ db, b.toDb raw = .ok db ∧ b.ofDb db .nearest = .ok raw := by
  by_cases hmuted : scale.mute = true ∧ raw = b.info.min
  · obtain ⟨hmute, rfl⟩ := hmuted
    exact ⟨silence, h.toDb_first hmute, h.climbs.first _ _ (hsilent hmute)⟩
  · have hsound : scale.mute = true → b.info.min < raw := fun hmute =>
      Int64.lt_of_le_of_ne hlow fun hmin => hmuted ⟨hmute, hmin.symm⟩
    obtain ⟨db, hdb, hfirst, hlast, hreach⟩ := h.toDb_run hraw hfits raw hsound
    refine ⟨db, hdb, h.ofDb_of_divide ?_⟩
    have hdelta : scale.range.delta db = db.toInt - scale.min.toInt := Span.delta_of_mem hfirst hlast
    have hthere : b.range.delta raw = raw.toInt - b.info.min.toInt := Span.delta_of_mem hlow hhigh
    rw [hdelta, hreach, add_sub_cancel_left, Rounding.divide_divide (width_pos hraw) hfine, hthere]
    exact add_sub_cancel _ _

end Binding.Measures

namespace ByName

open Mixer (connect)

variable {initial : π} {untouched : Prop}

/-- **To set the decibels that were read changes nothing**, for an element of a mixer in use whose scale is not
narrower than its control, and silent only where silence is not above the scale.  Every raw value comes back from its
decibels, that of silence too; and where a channel shows one, its decibels can be read and set, and the whole machine
stays as it is. -/
theorem Life.restores {m : Mixer ε π} {w : World ε} (h : Life untouched initial m w) {e : Element ε}
    (he : e ∈ m.elements) {dir : Direction} {v : Wiring} {b : Binding} (hleads : e.Leads dir v b) {scale : DbScale}
    (hmeasures : b.Measures scale) (hraw : b.info.min < b.info.max) (hfine : b.range.width ≤ scale.range.width)
    (hfits : 4 * (b.range.width * scale.range.width) < 2 ^ 127)
    (hsilent : scale.mute = true → Binding.silence ≤ scale.min) :
    (∀ raw, b.info.min ≤ raw → raw ≤ b.info.max → ∃ db, b.toDb raw = .ok db ∧ b.ofDb db .nearest = .ok raw) ∧
    ∀ channel s raw, b.place (e.volumeChannel dir channel) = .ok s.place → b.Shows m.sessions w.cards s raw →
      b.info.min ≤ raw → raw ≤ b.info.max →
      ∃ db, e.db m.sessions dir channel w = (.ok db, w) ∧
        e.setDb m.sessions dir channel db .nearest w = (.ok (), w) := by
  have hback : ∀ raw, b.info.min ≤ raw → raw ≤ b.info.max →
      ∃ db, b.toDb raw = .ok db ∧ b.ofDb db .nearest = .ok raw :=
    fun raw hlow hhigh => hmeasures.ofDb_toDb hraw hfine hfits hsilent hlow hhigh
  refine ⟨hback, fun channel s raw hp hshows hlow hhigh => ?_⟩
  obtain ⟨hops, -⟩ := h.settled.2 e he
  obtain ⟨db, htoDb, hofDb⟩ := hback raw hlow hhigh
  let a := Adjustment.db dir channel db .nearest
  have hplain := Wiring.isSource_of_volume hleads.volume
  have hcheck : a.check e = .ok () := Element.requireVolume_eq_ok.mpr hleads.has
  have hread : a.Reads e m.sessions v b w raw :=
    Adjustment.reads_of_shows hops hleads.wiring hcheck hleads.volume hshows hp
  have hwrite : a.perform e m.sessions w = (.ok (), w) :=
    Adjustment.writes_back hops hcheck hleads.wiring hleads.volume hplain hshows hp hofDb
  exact ⟨db, hread.trans (congrArg (·, w) htoDb), hwrite⟩

/-- A card whose volume has one step for each hundredth of a decibel, and mutes. -/
def mutedVolume : Cards := .ofList [("card", [(.mixer 1 "Master Playback Volume" 0,
  { ControlInfo.integer 2 0 10 with db := some ⟨-10, 0, true⟩ })])]

/-- The second channel of the card is muted: its silence can be read and set, and so can the decibels of seven. -/
theorem Life.restores_muted : ∃ (m : Mixer Unit Unit) (w : World Unit), Life True () m w ∧ ∃ e ∈ m.elements,
    (e.db m.sessions .playback 1 w).1 = .ok Binding.silence ∧
    (∃ b ∈ e.bindings, ∃ db, b.toDb 7 = .ok db ∧ b.ofDb db .nearest = .ok 7) ∧
    ∃ db, e.db m.sessions .playback 1 w = (.ok db, w) ∧
      e.setDb m.sessions .playback 1 db .nearest w = (.ok (), w) := by
  have hopen : Life True () _ _ := .opened
    (show connect (provider ()) ⟨"desk", .none⟩ Mixer.overCard ⟨mutedVolume, ()⟩ = (.ok _, _) from rfl)
  obtain ⟨m, w, h, e, he, hhas, hsilence, hmade⟩ : ∃ (m : Mixer Unit Unit) (w : World Unit),
      Life True () m w ∧ ∃ e ∈ m.elements, e.hasVolume .playback = true ∧
        (e.db m.sessions .playback 1 w).1 = .ok Binding.silence ∧
        ∀ b ∈ e.bindings, b.info = { ControlInfo.integer 2 0 10 with db := some ⟨-10, 0, true⟩ } ∧
          b.place (e.volumeChannel .playback 1) = .ok 1 ∧ b.Shows m.sessions w.cards ⟨0, 0, 1⟩ 0 :=
    ⟨_, _, hopen, by decide +kernel⟩
  obtain ⟨v, b, hleads⟩ := h.leads he hhas
  have hmem : b ∈ e.bindings := by
    rw [Element.bindings, hleads.wiring]
    exact (Wiring.volume_eq_ok hleads.volume).1
  obtain ⟨hinfo, hp, hshows⟩ := hmade b hmem
  have hmin : b.info.min = 0 := congrArg ControlInfo.min hinfo
  have hmax : b.info.max = 10 := congrArg ControlInfo.max hinfo
  have hscale : b.info.db = some ⟨-10, 0, true⟩ := congrArg ControlInfo.db hinfo
  have hrange : b.range = ⟨0, 10⟩ := by rw [Binding.range, hmin, hmax]
  have hmeasures : b.Measures ⟨-10, 0, true⟩ :=
    ⟨hscale, by rw [hmin, hmax]; decide, by decide, by rw [hrange]; decide, by decide⟩
  obtain ⟨hback, hkept⟩ := h.restores he hleads hmeasures (by rw [hmin, hmax]; decide) (by rw [hrange]; decide)
    (by rw [hrange]; decide) fun _ => by decide
  refine ⟨m, w, h, e, he, hsilence, ⟨b, hmem, ?_⟩, ?_⟩
  · exact hback 7 (by rw [hmin]; decide) (by rw [hmax]; decide)
  · exact hkept 1 ⟨0, 0, 1⟩ 0 hp hshows (by rw [hmin]; decide) (by rw [hmax]; decide)

end ByName

end SoundDesk
