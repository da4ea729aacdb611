import SoundDesk.Element.Operations
import Mathlib.Data.List.Basic

/-!
# Proofs/Abilities — what an element can do, told by its bindings

The bits of an element are those of all its bindings together, so a question about a bit is a question
whether some binding has a role (`Wiring.caps_intersects`).  A question about joined channels is whether
*some* binding of the role has one value, whichever of them an operation then goes to.
-/

namespace SoundDesk

/-! ## Bits -/

namespace Caps

variable {a b c : Caps}

theorem intersects_union : (a.union b).intersects c = (a.intersects c || b.intersects c) := by
  have hbits : (a.bits ||| b.bits) &&& c.bits = a.bits &&& c.bits ||| b.bits &&& c.bits := by
    refine UInt32.toBitVec_inj.mp ?_
    ext i
    simp [Bool.and_or_distrib_right]
  rw [Bool.eq_iff_iff]
  simp only [intersects, union, hbits, ne_eq, decide_eq_true_eq, Bool.or_eq_true,
    UInt32.or_eq_zero_iff, not_and_or]

theorem intersects_empty : a.intersects .empty = false := by
  simp [intersects, empty]

theorem empty_intersects : empty.intersects a = false := by
  simp [intersects, empty]

/-- The bit of the volume of a direction. -/
def volumeOf : Direction → Caps
  | .common => commonVolume
  | .playback => playbackVolume
  | .capture => captureVolume

/-- The bit of the switch of a direction. -/
def switchOf : Direction → Caps
  | .common => commonSwitch
  | .playback => playbackSwitch
  | .capture => captureSwitch

/-- The bit that the channels of the volume of a direction move together. -/
def volumeJoinedOf : Direction → Caps
  | .common => empty
  | .playback => playbackVolumeJoined
  | .capture => captureVolumeJoined

/-- The bit that the channels of the switch of a direction move together. -/
def switchJoinedOf : Direction → Caps
  | .common => empty
  | .playback => playbackSwitchJoined
  | .capture => captureSwitchJoined

end Caps

/-! ## Bindings -/

namespace Wiring

variable {w : Wiring} {b : Binding}

/-- **A bit of an element is one of its bindings.** -/
theorem caps_intersects (w : Wiring) (bit : Caps) :
    w.caps.intersects bit = w.bindings.any fun b => (bindingCaps b).intersects bit := by
  have hfold : ∀ (l : List Binding) (start : Caps),
      (l.foldl (fun c b => c.union (bindingCaps b)) start).intersects bit
        = (start.intersects bit || l.any fun b => (bindingCaps b).intersects bit) := by
    intro l
    induction l with
    | nil => simp
    | cons b l ih =>
      intro start
      rw [List.foldl_cons, ih, Caps.intersects_union, List.any_cons, Bool.or_assoc]
  rw [caps, hfold, Caps.empty_intersects, Bool.false_or]

/-- The role is a capture source. -/
def isSource : Role → Bool
  | .source _ => true
  | _ => false

theorem isSource_iff {role : Role} : isSource role = true ↔ ∃ item, role = .source item := by
  cases role <;> simp [isSource]

/-- The role is the volume of a direction. -/
def isVolume (dir : Direction) : Role → Bool
  | .volume d => d = dir
  | _ => false

theorem isVolume_iff {dir : Direction} {role : Role} : isVolume dir role = true ↔ role = .volume dir := by
  cases role <;> simp [isVolume]

/-- What a role lets an element do, told bit by bit: a volume, a switch, a source. -/
theorem roleCaps_intersects (role : Role) (dir : Direction) :
    (roleCaps role).1.intersects (.volumeOf dir) = isVolume dir role ∧
    (roleCaps role).1.intersects (.switchOf dir) = isSwitch dir role ∧
    (roleCaps role).1.intersects (.volumeJoinedOf dir) = false ∧
    (roleCaps role).1.intersects (.switchJoinedOf dir) = false ∧
    (roleCaps role).1.intersects .captureSwitchExclusive = isSource role := by
  rcases role with d | d | d | n
  · cases d <;> cases dir <;> decide
  · cases d <;> cases dir <;> decide
  · cases d <;> cases dir <;> decide
  · simp only [roleCaps, isVolume, isSwitch, isSource]
    cases dir <;> decide

/-- What a role adds for a control with one value: the bit that its channels move together. -/
theorem roleCaps_joined (role : Role) (dir : Direction) :
    (roleCaps role).2.intersects (.volumeOf dir) = false ∧
    (roleCaps role).2.intersects (.switchOf dir) = false ∧
    (roleCaps role).2.intersects (.volumeJoinedOf dir) = (dir ≠ .common && isVolume dir role) ∧
    (roleCaps role).2.intersects (.switchJoinedOf dir) = (dir ≠ .common && isSwitch dir role) ∧
    (roleCaps role).2.intersects .captureSwitchExclusive = false := by
  rcases role with d | d | d | n
  · cases d <;> cases dir <;> decide
  · cases d <;> cases dir <;> decide
  · cases d <;> cases dir <;> decide
  · simp only [roleCaps, isVolume, isSwitch]
    cases dir <;> decide

/-- The bit of a binding is one of its role, or one that its role adds for a control with one value. -/
theorem bindingCaps_intersects (b : Binding) (bit : Caps) :
    (bindingCaps b).intersects bit
      = ((roleCaps b.role).1.intersects bit || b.isJoined && (roleCaps b.role).2.intersects bit) := by
  rw [bindingCaps]
  cases b.isJoined with
  | true => rw [if_pos rfl, Caps.intersects_union, Bool.true_and]
  | false => rw [if_neg Bool.false_ne_true, Bool.false_and, Bool.or_false]

/-! ## First bindings -/

variable {dir : Direction}

/-- The binding that is found bears the role that was looked for. -/
theorem volume_eq_ok (h : w.volume dir = .ok b) : b ∈ w.bindings ∧ b.role = .volume dir := by
  rw [volume] at h
  split at h <;> cases h
  rename_i hfind
  exact ⟨List.mem_of_find?_eq_some hfind, by simpa using List.find?_some hfind⟩

theorem switch_eq_ok (h : w.switch dir = .ok b) : b ∈ w.bindings ∧ isSwitch dir b.role = true := by
  rw [switch] at h
  split at h <;> cases h
  rename_i hfind
  have hrole := List.find?_some hfind
  exact ⟨List.mem_of_find?_eq_some hfind, hrole⟩

/-- Where a binding is the volume of a direction, one is the first. -/
theorem exists_volume (h : ∃ b ∈ w.bindings, b.role = .volume dir) : ∃ b, w.volume dir = .ok b := by
  have hfind := List.find?_isSome.mpr (h.imp fun b hb => ⟨hb.1, decide_eq_true hb.2⟩)
  obtain ⟨b, hb⟩ := Option.isSome_iff_exists.mp hfind
  exact ⟨b, by rw [volume, hb]⟩

/-- Where a binding is a switch of a direction, one is the first. -/
theorem exists_switch (h : ∃ b ∈ w.bindings, isSwitch dir b.role = true) : ∃ b, w.switch dir = .ok b := by
  have hfind := List.find?_isSome.mpr h
  obtain ⟨b, hb⟩ := Option.isSome_iff_exists.mp hfind
  exact ⟨b, by rw [switch, hb]⟩

theorem direction_of_isSwitch {role : Role} (h : isSwitch dir role = true) : role.direction = dir := by
  cases role with
  | volume => cases h
  | switch => exact of_decide_eq_true h
  | choice => cases h
  | source => exact (of_decide_eq_true h).symm

end Wiring

/-! ## Elements -/

namespace Element

variable {ε : Type} {e : Element ε} {w : Wiring}

/-- **An element has a volume** exactly if a binding bears it. -/
theorem hasVolume_iff (h : e.caps = w.caps) (dir : Direction) :
    e.hasVolume dir = true ↔ ∃ b ∈ w.bindings, b.role = .volume dir := by
  have hbit : e.hasVolume dir = w.caps.intersects (.volumeOf dir) := by
    rw [← h]
    cases dir <;> rfl
  rw [hbit, Wiring.caps_intersects, List.any_eq_true]
  simp only [Wiring.bindingCaps_intersects, (Wiring.roleCaps_intersects _ dir).1,
    (Wiring.roleCaps_joined _ dir).1, Bool.and_false, Bool.or_false, Wiring.isVolume_iff]

/-- **An element has a switch** exactly if a binding switches. -/
theorem hasSwitch_iff (h : e.caps = w.caps) (dir : Direction) :
    e.hasSwitch dir = true ↔ ∃ b ∈ w.bindings, Wiring.isSwitch dir b.role = true := by
  have hbit : e.hasSwitch dir = w.caps.intersects (.switchOf dir) := by
    rw [← h]
    cases dir <;> rfl
  rw [hbit, Wiring.caps_intersects, List.any_eq_true]
  simp only [Wiring.bindingCaps_intersects, (Wiring.roleCaps_intersects _ dir).2.1,
    (Wiring.roleCaps_joined _ dir).2.1, Bool.and_false, Bool.or_false]

/-- **The channels of the volume move together** if some volume of the direction has one value. -/
theorem hasVolumeJoined_iff (h : e.caps = w.caps) (dir : Direction) :
    e.hasVolumeJoined dir = true ↔
      dir ≠ .common ∧ ∃ b ∈ w.bindings, b.role = .volume dir ∧ b.isJoined = true := by
  have hbit : e.hasVolumeJoined dir = w.caps.intersects (.volumeJoinedOf dir) := by
    rw [← h]
    cases dir
    · rfl
    · rfl
    · exact Caps.intersects_empty.symm
  rw [hbit, Wiring.caps_intersects, List.any_eq_true]
  simp only [Wiring.bindingCaps_intersects, (Wiring.roleCaps_intersects _ dir).2.2.1,
    (Wiring.roleCaps_joined _ dir).2.2.1, Bool.false_or, Bool.and_eq_true, decide_eq_true_eq,
    Wiring.isVolume_iff]
  grind

/-- **The channels of the switch move together** if some switch of the direction has one value. -/
theorem hasSwitchJoined_iff (h : e.caps = w.caps) (dir : Direction) :
    e.hasSwitchJoined dir = true ↔
      dir ≠ .common ∧ ∃ b ∈ w.bindings, Wiring.isSwitch dir b.role = true ∧ b.isJoined = true := by
  have hbit : e.hasSwitchJoined dir = w.caps.intersects (.switchJoinedOf dir) := by
    rw [← h]
    cases dir
    · rfl
    · rfl
    · exact Caps.intersects_empty.symm
  rw [hbit, Wiring.caps_intersects, List.any_eq_true]
  simp only [Wiring.bindingCaps_intersects, (Wiring.roleCaps_intersects _ dir).2.2.2.1,
    (Wiring.roleCaps_joined _ dir).2.2.2.1, Bool.false_or, Bool.and_eq_true, decide_eq_true_eq]
  grind

/-- A switch is exclusive exactly if a capture source takes part. -/
theorem hasSwitchExclusive_iff (h : e.caps = w.caps) :
    e.hasSwitchExclusive .capture = true ↔ ∃ b ∈ w.bindings, Wiring.isSource b.role = true := by
  rw [hasSwitchExclusive, h, Wiring.caps_intersects, decide_eq_true rfl, Bool.true_and, List.any_eq_true]
  simp only [Wiring.bindingCaps_intersects, (Wiring.roleCaps_intersects _ .capture).2.2.2.2,
    (Wiring.roleCaps_joined _ .capture).2.2.2.2, Bool.and_false, Bool.or_false]

end Element

end SoundDesk
