import SoundDesk.Proofs.Adjustments
import SoundDesk.Proofs.Arrivals
import SoundDesk.Proofs.Rounding

/-!
# Proofs/UserRange — a volume that is set and read through a user range

    value of the user  ──toRaw──▸  raw value on the device  ──toUser──▸  value of the user

A value of the user is carried to the raw range to be set, and a raw value to the user range to be read.  Both ways
round, and the way over the wider range loses nothing: a user range that is not wider than the control gives back
every value that was set, and one that is not narrower tells the raw values apart, so that what was read can be set
again (`ByName.Life.recovers`).
-/

namespace SoundDesk

variable {ε π : Type}

/-! ## To write what is there -/

theorem Card.write_self {c : Card} {numid : Nat} {k : CardControl} (hk : c.control? numid = some k) :
    c.write numid k.values = (.ok false, c) := by
  rw [write, hk]
  dsimp only
  rw [if_neg fun hne => hne rfl, if_pos rfl]

namespace Wiring

variable {h : Handle ε} {w : World ε} {b : Binding}

theorem write_self {seat : Seat} {values : List Int64} (hb : b.Reaches h.sessions w.cards seat values) :
    write h b values w = (.ok (), w) := by
  obtain ⟨s, hs, rfl⟩ := inSlot_of_leads hb.leads
  obtain ⟨k, hk, rfl⟩ := Option.map_eq_some_iff.mp hb.holds
  rw [write_eq hs, Line.writeValues, Line.remote, Card.write_self hk]
  dsimp only
  rw [Cards.update_self rfl]

/-- **To write what a channel shows** changes nothing. -/
theorem writeChannel_self {s : Spot} {value : Int64} (hs : b.Shows h.sessions w.cards s value) {channel : Nat}
    (hp : b.place channel = .ok s.place) : writeChannel h b channel value w = (.ok (), w) := by
  obtain ⟨seat, values, hb, hvalue⟩ := hs.reaches
  obtain ⟨hlt, rfl⟩ := List.getElem?_eq_some_iff.mp hvalue
  rw [writeChannel, hp]
  change (read h b >>= _) w = _
  rw [Action.bind_run, read_run hb]
  dsimp only
  rw [if_pos hlt, List.set_getElem_self]
  exact write_self hb

end Wiring

/-! ## To read back, and to write back -/

namespace Adjustment

variable {e : Element ε} {sessions : List (Session ε)} {v : Wiring} {b : Binding} {w w' : World ε} {a : Adjustment}
  {raw : Int64}

/-- **What was adjusted is read back**: the getter reads the converted value. -/
theorem reads_back (hops : e.ops = Wiring.ops) (hv : e.wiring = some v) (hb : a.binding v = .ok b)
    (hplain : Wiring.isSource b.role = false) (hset : a.perform e sessions w = (.ok (), w')) :
    ∃ raw, a.raw v b = .ok raw ∧ a.Reads e sessions v b w' raw := by
  obtain ⟨err, hx⟩ | ⟨v', b', cards, hv', hb', hx, hadjusted⟩ := perform_cases hops a sessions w
  · cases (congrArg Prod.fst hx).symm.trans (congrArg Prod.fst hset)
  · obtain rfl : v' = v := Option.some.inj (hv'.symm.trans hv)
    obtain rfl : b' = b := Except.ok.inj (hb'.symm.trans hb)
    obtain rfl : w' = { w with cards } := (congrArg Prod.snd hset).symm.trans (congrArg Prod.snd hx)
    obtain ⟨s, raw, hraw, hp, -, hshows, -⟩ := hadjusted.plain hplain
    exact ⟨raw, hraw, hadjusted.reads _ s raw hshows hp⟩

/-- **To write back what the channel shows** changes nothing on the whole machine. -/
theorem writes_back (hops : e.ops = Wiring.ops) (hcheck : a.check e = .ok ()) (hv : e.wiring = some v)
    (hb : a.binding v = .ok b) (hplain : Wiring.isSource b.role = false) {s : Spot}
    (hshows : b.Shows sessions w.cards s raw) (hp : b.place (a.channel e) = .ok s.place)
    (hraw : a.raw v b = .ok raw) : a.perform e sessions w = (.ok (), w) := by
  rw [perform_eq hops, Element.operate_run hcheck hv hb, go_plain hplain, hraw]
  exact Wiring.writeChannel_self hshows hp

end Adjustment

/-! ## Between the user range and the raw range -/

namespace Wiring

variable {v : Wiring} {b : Binding} {dir : Direction}

/-- The user range of a control with two raw values has two values. -/
theorem userRange_lt (h : v.Ordered) (hraw : b.info.min < b.info.max) (dir : Direction) :
    (v.userRange dir b).lo < (v.userRange dir b).hi := by
  rw [userRange]
  cases hrange : v.ranges.get? dir with
  | none => exact hraw
  | some range => exact h dir range hrange

/-- A value that is carried to the device comes back, if the user range is not the wider one. -/
theorem toUser_toRaw (h : v.Ordered) (hraw : b.info.min < b.info.max)
    (hnarrow : (v.userRange dir b).width ≤ b.range.width)
    (hfits : 4 * (b.range.width * (v.userRange dir b).width) < 2 ^ 127) {value raw : Int64}
    (hvalue : v.toRaw dir b value = .ok raw) : v.toUser dir b raw = .ok ((v.userRange dir b).clamp value) :=
  Scale.rescale_rescale (userRange_lt h hraw dir) hnarrow (by rwa [Int.mul_comm b.range.width] at hfits) hvalue

/-- A raw value is carried to the user, and comes back, if the user range is not the narrower one. -/
theorem toRaw_toUser (h : v.Ordered) (hraw : b.info.min < b.info.max)
    (hwide : b.range.width ≤ (v.userRange dir b).width)
    (hfits : 4 * (b.range.width * (v.userRange dir b).width) < 2 ^ 127) {raw : Int64}
    (hlow : b.info.min ≤ raw) (hhigh : raw ≤ b.info.max) :
    ∃ value, v.toUser dir b raw = .ok value ∧ v.toRaw dir b value = .ok raw := by
  have hsource : b.range.lo < b.range.hi := hraw
  obtain ⟨value, hvalue, -⟩ := Scale.rescale_run hsource (Int64.le_of_lt (userRange_lt h hraw dir)) hfits raw
  have hback := Scale.rescale_rescale hsource hwide hfits hvalue
  have hsame : b.range.clamp raw = raw := Span.clamp_of_mem hlow hhigh
  refine ⟨value, ?_, ?_⟩
  · rw [toUser, hvalue]
  · rw [toRaw, hback, hsame]

end Wiring

namespace ByName

open Mixer (connect)

variable {initial : π} {untouched : Prop}

/-- **An element with a volume leads to a binding**, as long as the application leaves settings alone. -/
theorem Life.leads {m : Mixer ε π} {w : World ε} (h : Life True initial m w) {e : Element ε} (he : e ∈ m.elements)
    {dir : Direction} (hhas : e.hasVolume dir = true) : ∃ v b, e.Leads dir v b := by
  obtain ⟨-, v, hv, hsettings⟩ := h.settled.2 e he
  have hcaps : e.caps = v.caps := congrArg Settings.caps (hsettings trivial)
  obtain ⟨b, hb⟩ := Wiring.exists_volume ((Element.hasVolume_iff hcaps dir).mp hhas)
  exact ⟨v, b, hhas, hv, hb⟩

/-- **What is set is read, and what is read can be set again**, through any user range of an element of a mixer in
use, as long as no floating point is involved.  If the user range is not wider than the control, a value that was
set is the one that is read, clamped to the range.  If it is not narrower, the value that is read for a raw value
puts nothing but this raw value there, and the whole machine stays as it is. -/
theorem Life.recovers {m : Mixer ε π} {w : World ε} (h : Life untouched initial m w) {e : Element ε}
    (he : e ∈ m.elements) {dir : Direction} {v : Wiring} {b : Binding} (hleads : e.Leads dir v b)
    (hraw : b.info.min < b.info.max)
    (hfits : 4 * (b.range.width * (v.userRange dir b).width) < 2 ^ 127) :
    ((v.userRange dir b).width ≤ b.range.width → ∀ channel value w',
      e.setVolume m.sessions dir channel value w = (.ok (), w') →
      e.volume m.sessions dir channel w' = (.ok ((v.userRange dir b).clamp value), w')) ∧
    (b.range.width ≤ (v.userRange dir b).width → ∀ channel s raw,
      b.place (e.volumeChannel dir channel) = .ok s.place → b.Shows m.sessions w.cards s raw →
      b.info.min ≤ raw → raw ≤ b.info.max →
      ∃ value, e.volume m.sessions dir channel w = (.ok value, w) ∧
        e.setVolume m.sessions dir channel value w = (.ok (), w)) := by
  obtain ⟨hops, -⟩ := h.settled.2 e he
  have hordered := (h.chosen e he).ordered hleads.wiring
  have hplain := Wiring.isSource_of_volume hleads.volume
  constructor
  · intro hnarrow channel value w' hset
    obtain ⟨raw, htoRaw, hread⟩ :=
      Adjustment.reads_back (a := .volume dir channel value) hops hleads.wiring hleads.volume hplain hset
    have htoUser := Wiring.toUser_toRaw hordered hraw hnarrow hfits (mapError_eq_ok_iff.mp htoRaw)
    exact hread.trans (congrArg (·, w') (mapError_eq_ok_iff.mpr htoUser))
  · intro hwide channel s raw hp hshows hlow hhigh
    obtain ⟨value, htoUser, htoRaw⟩ := Wiring.toRaw_toUser hordered hraw hwide hfits hlow hhigh
    let a := Adjustment.volume dir channel value
    have hcheck : a.check e = .ok () := Element.requireVolume_eq_ok.mpr hleads.has
    have hread : a.Reads e m.sessions v b w raw :=
      Adjustment.reads_of_shows hops hleads.wiring hcheck hleads.volume hshows hp
    have hwrite : a.perform e m.sessions w = (.ok (), w) :=
      Adjustment.writes_back hops hcheck hleads.wiring hleads.volume hplain hshows hp
        (mapError_eq_ok_iff.mpr htoRaw)
    exact ⟨value, hread.trans (congrArg (·, w) (mapError_eq_ok_iff.mpr htoUser)), hwrite⟩

/-- A range of the same width is chosen for a control from 0 to 10: what is set beyond its end reads as the end,
and what is read can be set again. -/
theorem Life.recovers_shifted : ∃ (m : Mixer Unit Unit) (w : World Unit), Life True () m w ∧ ∃ e ∈ m.elements,
    (∃ w', e.setVolume m.sessions .playback 1 9 w = (.ok (), w') ∧
      e.volume m.sessions .playback 1 w' = (.ok 5, w')) ∧
    ∃ value, e.volume m.sessions .playback 1 w = (.ok value, w) ∧
      e.setVolume m.sessions .playback 1 value w = (.ok (), w) := by
  have hopen : Life True () _ _ := .opened
    (show connect (provider ()) ⟨"desk", .none⟩ Mixer.overCard ⟨Mixer.oneCard, ()⟩ = (.ok _, _) from rfl)
  have hranged := hopen.ranged
    (show Mixer.setVolumeRange _ ⟨"Master", 0⟩ .playback ⟨-5, 5⟩ = .ok _ from rfl)
  obtain ⟨m, w, h, e, he, hhas, hset, hchosen, hmade⟩ : ∃ (m : Mixer Unit Unit) (w : World Unit),
      Life True () m w ∧ ∃ e ∈ m.elements, e.hasVolume .playback = true ∧
        (e.setVolume m.sessions .playback 1 9 w).1 = .ok () ∧
        (∀ v ∈ e.wiring, v.ranges.get? .playback = some ⟨-5, 5⟩) ∧
        ∀ b ∈ e.bindings, b.range = ⟨0, 10⟩ ∧ b.place (e.volumeChannel .playback 1) = .ok 1 ∧
          b.Shows m.sessions w.cards ⟨0, 0, 1⟩ 0 := ⟨_, _, hranged, by decide +kernel⟩
  obtain ⟨v, b, hleads⟩ := h.leads he hhas
  rw [Element.bindings, hleads.wiring] at hmade
  obtain ⟨hrange, hp, hshows⟩ := hmade b (Wiring.volume_eq_ok hleads.volume).1
  have huser : v.userRange .playback b = ⟨-5, 5⟩ := by
    rw [Wiring.userRange, hchosen v hleads.wiring, Option.getD_some]
  have hmin : b.info.min = 0 := congrArg Span.lo hrange
  have hmax : b.info.max = 10 := congrArg Span.hi hrange
  obtain ⟨hread, hkept⟩ := h.recovers he hleads (by rw [hmin, hmax]; decide)
    (by rw [hrange, huser]; decide)
  rw [hrange, huser] at hread hkept
  refine ⟨m, w, h, e, he, ⟨_, Prod.ext hset rfl, ?_⟩, ?_⟩
  · exact hread (by decide) 1 9 _ (Prod.ext hset rfl)
  · exact hkept (by decide) 1 ⟨0, 0, 1⟩ 0 hp hshows (by rw [hmin]; decide) (by rw [hmax]; decide)

end ByName

end SoundDesk
