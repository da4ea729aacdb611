import SoundDesk.Proofs.Aborts

/-!
# Proofs/Lookups — what an element says it can do, it has a control for

    bindings  ──caps──▸  bits  ──check──▸  may operate          (kept at the element)
        └───────────── lookup ─────────▸  a control             (at every operation)

The check of an operation reads the bits of the element, the operation then looks its control up among the
bindings, and the two use different tables of roles.  They agree (`Element.hasVolume_iff`,
`Element.hasSwitch_iff`, `Element.hasEnum_iff`), and the bits are those of the bindings for the whole life of a
mixer, so no operation ends with the failure of a lookup (`ByName.Life.capable`).
-/

namespace SoundDesk

variable {ε π α β : Type}

/-! ## Failures of a lookup -/

namespace Wiring

/-- **The failures of a lookup** among the bindings of an element: it has no control of the wanted role. -/
inductive Unbound : Error → Prop where
  | volume (dir : Direction) : Unbound (.invalid ("no " ++ dir.name ++ " volume control"))
  | switch (dir : Direction) : Unbound (.invalid ("no " ++ dir.name ++ " switch control"))
  | choice : Unbound (.invalid "no enumerated control")

/-- A text that does not begin with `no` is not that of a lookup. -/
theorem not_unbound_of_text {reason : String} (h : reason.toList.take 2 ≠ ['n', 'o']) :
    ¬ Unbound (.invalid reason) := by
  generalize herr : Error.invalid reason = err
  rintro (dir | dir | -) <;> obtain rfl := Error.invalid.inj herr
  · exact h (by simp)
  · exact h (by simp)
  · exact h (by simp)

/-- **These are all the failures of lookups**, one for each that is made. -/
theorem unbound_iff {err : Error} : Unbound err ↔ ∃ v : Wiring,
    (∃ dir, v.volume dir = .error err) ∨ (∃ dir, v.switch dir = .error err) ∨ v.choice = .error err := by
  constructor
  · rintro (dir | dir | -)
    · exact ⟨⟨[], .empty⟩, .inl ⟨dir, rfl⟩⟩
    · exact ⟨⟨[], .empty⟩, .inr (.inl ⟨dir, rfl⟩)⟩
    · exact ⟨⟨[], .empty⟩, .inr (.inr rfl)⟩
  · rintro ⟨v, ⟨dir, h⟩ | ⟨dir, h⟩ | h⟩
    · rw [volume] at h
      split at h <;> cases h
      exact .volume dir
    · rw [switch] at h
      split at h <;> cases h
      exact .switch dir
    · rw [choice] at h
      split at h <;> cases h
      exact .choice

end Wiring

/-- **A computation finds its control**: none of its failures is one of a lookup. -/
def Finds (r : Except Error α) : Prop := ∀ err, r = .error err → ¬ Wiring.Unbound err

/-- An operation finds its control, in every world: it is not refused for the failure of a lookup. -/
def AlwaysFinds (x : Action (World ε) α) : Prop :=
  ∀ w err, (x w).1 = .error (.refused err) → ¬ Wiring.Unbound err

theorem finds_ok (a : α) : Finds (.ok a) := nofun

/-- A failure that is none of a lookup. -/
theorem finds_error {err : Error} (h : ¬ Wiring.Unbound err) : Finds (.error err : Except Error α) := by
  rintro _ ⟨⟩
  exact h

/-- Steps that find what they look for do so one after the other. -/
theorem Finds.bind {r : Except Error α} {f : α → Except Error β} (hr : Finds r)
    (hf : ∀ a, r = .ok a → Finds (f a)) : Finds (r >>= f) := by
  rcases r with e | a
  · exact finds_error (hr e rfl)
  · exact hf a rfl

theorem alwaysFinds_pure (a : α) : AlwaysFinds (pure a : Action (World ε) α) := nofun

theorem alwaysFinds_throw {err : Error} (h : ¬ Wiring.Unbound err) :
    AlwaysFinds (throw (.refused err) : Action (World ε) α) := by
  rintro _ _ ⟨⟩
  exact h

/-- Actions that find what they look for do so one after the other. -/
theorem AlwaysFinds.bind {x : Action (World ε) α} {f : α → Action (World ε) β} (hx : AlwaysFinds x)
    (hf : ∀ a, AlwaysFinds (f a)) : AlwaysFinds (x >>= f) := by
  intro w err
  rw [Action.bind_run]
  have hfirst := hx w
  revert hfirst
  rcases x w with ⟨fault | a, w'⟩
  · rintro hfirst ⟨⟩
    exact hfirst err rfl
  · exact fun _ => hf a w' err

/-- What is worked out beside the world comes first. -/
theorem Finds.lift_bind {r : Except Error α} {f : α → Action (World ε) β} (hr : Finds r)
    (hf : ∀ a, r = .ok a → AlwaysFinds (f a)) : AlwaysFinds ((liftM r : Action (World ε) α) >>= f) := by
  rcases r with e | a
  · rintro _ _ ⟨⟩
    exact hr e rfl
  · exact fun w => hf a rfl w

/-- What is found outside the world is found in it. -/
theorem alwaysFinds_lift {r : Except Error α} (h : Finds r) : AlwaysFinds (liftM r : Action (World ε) α) := by
  rcases r with e | a
  · rintro _ _ ⟨⟩
    exact h e rfl
  · nofun

/-- What may only be given up is not refused. -/
theorem alwaysFinds_word (r : Except Abort α) : AlwaysFinds (liftM r : Action (World ε) α) := by
  cases r <;> nofun

/-! ## What an operation is made of -/

namespace Binding

variable (b : Binding)

theorem finds_place (channel : Nat) : Finds (b.place channel) := by
  rw [place]
  split
  · exact finds_ok _
  · split
    · exact finds_ok _
    · exact finds_error (Wiring.not_unbound_of_text (by simp [toString]))

/-- A missing scale is told in its own words. -/
theorem finds_scale : Finds b.scale := by
  rw [scale]
  split
  · exact finds_ok _
  · exact finds_error (Wiring.not_unbound_of_text (by simp [toString]))

/-- A conversion is refused for the lack of a scale only. -/
theorem alwaysFinds_toDb (raw : Int64) : AlwaysFinds (liftM (b.toDb raw) : Action (World ε) Int64) := by
  intro _ err hrefused
  have hrefused : b.toDb raw = .error (.refused err) := hrefused
  rcases b.scale_cases with ⟨scale, -, hs⟩ | ⟨-, reason, hs⟩
  · rw [toDb, hs, lift_ok_bind] at hrefused
    split at hrefused
    · cases hrefused
    · exact absurd hrefused lift_ne_refused
  · rw [toDb, hs, lift_refused_bind] at hrefused
    cases hrefused
    exact b.finds_scale _ hs

/-- The conversion from decibels misses a scale at most. -/
theorem alwaysFinds_ofDb (db : Int64) (rounding : Rounding) :
    AlwaysFinds (liftM (b.ofDb db rounding) : Action (World ε) Int64) := by
  intro _ err hrefused
  have hrefused : b.ofDb db rounding = .error (.refused err) := hrefused
  rcases b.scale_cases with ⟨scale, hdb, -⟩ | ⟨-, reason, hs⟩
  · rcases ofDb_cases hdb db rounding with ⟨raw, hraw⟩ | habort
    · cases hraw.symm.trans hrefused
    · cases habort.symm.trans hrefused
  · rw [ofDb, hs, lift_refused_bind] at hrefused
    cases hrefused
    exact b.finds_scale _ hs

end Binding

namespace Wiring

variable (h : Handle ε) (b : Binding)

theorem finds_inSlot (sessions : List (Session ε)) (slot : Nat) : Finds (Session.inSlot sessions slot) := by
  rw [Session.inSlot]
  split
  · exact finds_ok _
  · exact finds_error (by rintro ⟨⟩)

/-- **A read of a control** fails for reasons of the card. -/
theorem alwaysFinds_read : AlwaysFinds (read h b) := by
  have hget : AlwaysFinds (get : Action (World ε) (World ε)) := nofun
  refine (finds_inSlot _ _).lift_bind fun s _ => hget.bind fun w => alwaysFinds_lift ?_
  rw [Line.readValues]
  split
  · exact finds_ok _
  · exact finds_error (by rintro ⟨⟩)

/-- So does a write. -/
theorem alwaysFinds_write (values : List Int64) : AlwaysFinds (write h b values) := by
  have hget : AlwaysFinds (get : Action (World ε) (World ε)) := nofun
  refine (finds_inSlot _ _).lift_bind fun s _ => hget.bind fun w => ?_
  have hwritten : Finds (s.line.writeValues w.cards b.id values).1 := by
    rw [Line.writeValues]
    split
    · exact finds_ok _
    · exact finds_error (by rintro ⟨⟩)
  rcases hw : s.line.writeValues w.cards b.id values with ⟨e | changed, cards⟩
  · rw [hw] at hwritten
    exact alwaysFinds_throw (hwritten e rfl)
  · rintro _ _ ⟨⟩

theorem alwaysFinds_readChannel (channel : Nat) : AlwaysFinds (readChannel h b channel) := by
  refine (b.finds_place channel).lift_bind fun place _ => (alwaysFinds_read h b).bind fun values => ?_
  split
  · exact alwaysFinds_pure _
  · exact alwaysFinds_throw (not_unbound_of_text (by simp [toString]))

theorem alwaysFinds_writeChannel (channel : Nat) (raw : Int64) :
    AlwaysFinds (writeChannel h b channel raw) := by
  refine (b.finds_place channel).lift_bind fun place _ => (alwaysFinds_read h b).bind fun values => ?_
  split
  · exact alwaysFinds_write h b _
  · exact alwaysFinds_throw (not_unbound_of_text (by simp [toString]))

theorem alwaysFinds_writeSwitch (channel : Nat) (on : Bool) : AlwaysFinds (writeSwitch h b channel on) := by
  rw [writeSwitch]
  split
  · split
    · exact alwaysFinds_write h b _
    · exact alwaysFinds_pure ()
  · exact alwaysFinds_writeChannel h b channel _

/-- An item that is out of range is no failed lookup. -/
theorem not_unbound_noItem (item : Nat) : ¬ Unbound (noItem b item) := not_unbound_of_text (by simp [toString])

theorem finds_itemOf (value : Int64) : Finds (itemOf b value) := by
  rw [itemOf]
  split
  · exact finds_ok _
  · exact finds_error (not_unbound_of_text (by simp [toString]))

/-! ## Lookups and roles -/

variable {v : Wiring} {dir : Direction}

/-- A volume is found if some binding bears the role. -/
theorem exists_volume_iff : (∃ b, v.volume dir = .ok b) ↔ ∃ b ∈ v.bindings, b.role = .volume dir :=
  ⟨fun ⟨b, hb⟩ => ⟨b, volume_eq_ok hb⟩, exists_volume⟩

/-- A switch is found if some binding switches the direction. -/
theorem exists_switch_iff : (∃ b, v.switch dir = .ok b) ↔ ∃ b ∈ v.bindings, isSwitch dir b.role = true :=
  ⟨fun ⟨b, hb⟩ => ⟨b, switch_eq_ok hb⟩, exists_switch⟩

/-- A choice is found if some binding chooses. -/
theorem exists_choice_iff : (∃ b, v.choice = .ok b) ↔ ∃ b ∈ v.bindings, isChoice b.role = true := by
  rw [← List.find?_isSome, choice]
  split
  · next b hb => simp [hb]
  · next hnone => simp [hnone]

theorem isChoice_iff {role : Role} : isChoice role = true ↔ ∃ dir, role = .choice dir := by
  cases role <;> simp [isChoice]

/-- What switches a direction: a switch of it, or a capture source. -/
theorem isSwitch_iff {role : Role} :
    isSwitch dir role = true ↔ role = .switch dir ∨ dir = .capture ∧ ∃ item, role = .source item := by
  cases role <;> simp [isSwitch]

/-- What a role lets an element do, told for the two bits of an enumeration. -/
theorem roleCaps_choice (role : Role) :
    (roleCaps role).1.intersects (Caps.playbackEnum.union .captureEnum) = isChoice role ∧
    (roleCaps role).2.intersects (Caps.playbackEnum.union .captureEnum) = false := by
  rcases role with d | d | d | n
  · cases d <;> decide
  · cases d <;> decide
  · cases d <;> decide
  · simp only [roleCaps, isChoice]
    decide

end Wiring

namespace Element

variable {e : Element ε} {v : Wiring} {dir : Direction} {sessions : List (Session ε)}

/-- **The element is an enumeration** if some binding is one. -/
theorem hasEnum_iff (h : e.caps = v.caps) :
    e.hasEnum = true ↔ ∃ b ∈ v.bindings, Wiring.isChoice b.role = true := by
  rw [hasEnum, h, Wiring.caps_intersects, List.any_eq_true]
  simp only [Wiring.bindingCaps_intersects, (Wiring.roleCaps_choice _).1, (Wiring.roleCaps_choice _).2,
    Bool.and_false, Bool.or_false]

/-! ## Operations -/

/-- What can be asked of an element; the index is what is answered. -/
inductive Operation : Type → Type where
  | isActive : Operation Bool
  | hasChannel (dir : Direction) (channel : Nat) : Operation Bool
  | channels (dir : Direction) : Operation Nat
  | volumeRange (dir : Direction) : Operation Span
  | dbRange (dir : Direction) : Operation Span
  | volumeToDb (dir : Direction) (value : Int64) : Operation Int64
  | dbToVolume (dir : Direction) (value : Int64) (rounding : Rounding) : Operation Int64
  | volume (dir : Direction) (channel : Nat) : Operation Int64
  | db (dir : Direction) (channel : Nat) : Operation Int64
  | setVolume (dir : Direction) (channel : Nat) (value : Int64) : Operation Unit
  | setDb (dir : Direction) (channel : Nat) (value : Int64) (rounding : Rounding) : Operation Unit
  | switch (dir : Direction) (channel : Nat) : Operation Bool
  | setSwitch (dir : Direction) (channel : Nat) (on : Bool) : Operation Unit
  | setVolumeAll (dir : Direction) (value : Int64) : Operation Unit
  | setDbAll (dir : Direction) (value : Int64) (rounding : Rounding) : Operation Unit
  | setSwitchAll (dir : Direction) (on : Bool) : Operation Unit
  | isEnum (dir : Direction) : Operation Bool
  | itemCount : Operation Nat
  | itemName (place : Nat) : Operation String
  | item (channel : Nat) : Operation Nat
  | setItem (channel place : Nat) : Operation Unit

/-- The operation on an element. -/
def Operation.perform (e : Element ε) (sessions : List (Session ε)) : Operation α → Action (World ε) α
  | isActive => e.isActive sessions
  | hasChannel dir channel => e.hasChannel sessions dir channel
  | channels dir => e.channels sessions dir
  | volumeRange dir => e.volumeRange sessions dir
  | dbRange dir => e.dbRange sessions dir
  | volumeToDb dir value => e.volumeToDb sessions dir value
  | dbToVolume dir value rounding => e.dbToVolume sessions dir value rounding
  | volume dir channel => e.volume sessions dir channel
  | db dir channel => e.db sessions dir channel
  | setVolume dir channel value => e.setVolume sessions dir channel value
  | setDb dir channel value rounding => e.setDb sessions dir channel value rounding
  | switch dir channel => e.switch sessions dir channel
  | setSwitch dir channel on => e.setSwitch sessions dir channel on
  | setVolumeAll dir value => e.setVolumeAll sessions dir value
  | setDbAll dir value rounding => e.setDbAll sessions dir value rounding
  | setSwitchAll dir on => e.setSwitchAll sessions dir on
  | isEnum dir => e.isEnum sessions dir
  | itemCount => e.itemCount sessions
  | itemName place => e.itemName sessions place
  | item channel => e.item sessions channel
  | setItem channel place => e.setItem sessions channel place

theorem finds_requireVolume : Finds (e.requireVolume dir) := by
  rw [requireVolume]
  split
  · exact finds_ok _
  · exact finds_error (Wiring.not_unbound_of_text (by simp [toString]))

theorem finds_requireSwitch : Finds (e.requireSwitch dir) := by
  rw [requireSwitch]
  split
  · exact finds_ok _
  · exact finds_error (Wiring.not_unbound_of_text (by simp [toString]))

theorem finds_requireEnum : Finds e.requireEnum := by
  rw [requireEnum]
  split
  · exact finds_ok _
  · exact finds_error (Wiring.not_unbound_of_text (by simp [toString]))

theorem requireSwitch_eq_ok : e.requireSwitch dir = .ok () ↔ e.hasSwitch dir = true := by
  rw [requireSwitch]
  split <;> simp [*]

theorem requireEnum_eq_ok : e.requireEnum = .ok () ↔ e.hasEnum = true := by
  rw [requireEnum]
  split <;> simp [*]

/-- **An element is backed** by its bindings: it is operated through them, and its bits are theirs. -/
structure Backed (e : Element ε) (v : Wiring) : Prop where
  ops : e.ops = Wiring.ops
  wiring : e.wiring = some v
  caps : e.caps = v.caps

/-- An operation that checks the bits, looks a control up, and goes on with it. -/
def operate (e : Element ε) (check : Except Error Unit) (look : Wiring → Except Error Binding)
    (go : Wiring → Binding → Action (World ε) α) : Action (World ε) α := do
  check
  let v ← Wiring.ofView e.toElementView
  let b ← look v
  go v b

namespace Backed

variable (h : e.Backed v)
include h

/-- **A check is passed** exactly if the lookup after it succeeds. -/
theorem requireVolume_iff : e.requireVolume dir = .ok () ↔ ∃ b, v.volume dir = .ok b :=
  (requireVolume_eq_ok.trans (hasVolume_iff h.caps dir)).trans Wiring.exists_volume_iff.symm

/-- **The check of a switch passes** exactly if its lookup does. -/
theorem requireSwitch_iff : e.requireSwitch dir = .ok () ↔ ∃ b, v.switch dir = .ok b :=
  (requireSwitch_eq_ok.trans (hasSwitch_iff h.caps dir)).trans Wiring.exists_switch_iff.symm

/-- **The check of a choice passes** exactly if its lookup does. -/
theorem requireEnum_iff : e.requireEnum = .ok () ↔ ∃ b, v.choice = .ok b :=
  (requireEnum_eq_ok.trans (hasEnum_iff h.caps)).trans Wiring.exists_choice_iff.symm

theorem finds_view : Finds (Wiring.ofView e.toElementView) := ofView_eq_ok.mpr h.wiring ▸ finds_ok v

/-- **What passes its check finds its control.** -/
theorem alwaysFinds_operate {check : Except Error Unit} {look : Wiring → Except Error Binding}
    {go : Wiring → Binding → Action (World ε) α} (hcheck : Finds check)
    (hlook : check = .ok () → ∃ b, look v = .ok b) (hgo : ∀ b, AlwaysFinds (go v b)) :
    AlwaysFinds (e.operate check look go) := by
  refine hcheck.lift_bind fun _ hpassed => ?_
  obtain ⟨b, hb⟩ := hlook hpassed
  rw [ofView_eq_ok.mpr h.wiring]
  refine (finds_ok v).lift_bind fun _ hv => ?_
  obtain rfl := Except.ok.inj hv
  rw [hb]
  exact (finds_ok b).lift_bind fun _ _ => hgo _

variable {go : Wiring → Binding → Action (World ε) α} (hgo : ∀ b, AlwaysFinds (go v b))
include hgo

/-- **An operation on a volume** finds the binding that its check promised. -/
theorem alwaysFinds_through (dir : Direction) : AlwaysFinds (e.through dir go) :=
  h.alwaysFinds_operate finds_requireVolume h.requireVolume_iff.mp hgo

/-- An operation on a switch does, too. -/
theorem alwaysFinds_switch (dir : Direction) :
    AlwaysFinds (e.operate (e.requireSwitch dir) (Wiring.switch · dir) go) :=
  h.alwaysFinds_operate finds_requireSwitch h.requireSwitch_iff.mp hgo

/-- And one on a choice. -/
theorem alwaysFinds_choice : AlwaysFinds (e.operate e.requireEnum Wiring.choice go) :=
  h.alwaysFinds_operate finds_requireEnum h.requireEnum_iff.mp hgo

end Backed

/-- An operation on every channel finds what one on a single channel finds. -/
theorem alwaysFinds_eachChannel {joined : Bool} {operate : Nat → Action (World ε) Unit}
    (hchannel : ∀ channel, AlwaysFinds (e.hasChannel sessions dir channel))
    (hoperate : ∀ channel, AlwaysFinds (operate channel)) (channels : List Nat) :
    AlwaysFinds (e.eachChannel sessions dir joined operate channels) := by
  induction channels with
  | nil => exact alwaysFinds_pure ()
  | cons channel rest ih =>
    refine (hchannel channel).bind fun there => ?_
    split
    · refine (hoperate channel).bind fun _ => ?_
      split
      · exact alwaysFinds_pure ()
      · exact ih
    · exact ih

namespace Backed

variable (h : e.Backed v)
include h

theorem alwaysFinds_hasChannel (channel : Nat) : AlwaysFinds (e.hasChannel sessions dir channel) := by
  rw [hasChannel, h.ops]
  exact h.finds_view.lift_bind fun w _ => alwaysFinds_pure _

theorem alwaysFinds_setVolume (channel : Nat) (value : Int64) :
    AlwaysFinds (e.setVolume sessions dir channel value) := by
  rw [setVolume_eq_through h.ops]
  exact h.alwaysFinds_through (fun b => (alwaysFinds_word _).bind fun raw =>
    Wiring.alwaysFinds_writeChannel _ b _ raw) dir

theorem alwaysFinds_setDb (channel : Nat) (db : Int64) (rounding : Rounding) :
    AlwaysFinds (e.setDb sessions dir channel db rounding) := by
  rw [setDb_eq_through h.ops]
  exact h.alwaysFinds_through (fun b => (b.alwaysFinds_ofDb _ _).bind fun raw =>
    Wiring.alwaysFinds_writeChannel _ b _ raw) dir

theorem alwaysFinds_setSwitch (channel : Nat) (on : Bool) :
    AlwaysFinds (e.setSwitch sessions dir channel on) := by
  rw [setSwitch, h.ops]
  exact h.alwaysFinds_switch (fun b => Wiring.alwaysFinds_writeSwitch _ b _ on) dir

/-- **Every operation on a backed element finds its control.** -/
theorem alwaysFinds_perform (op : Operation α) (sessions : List (Session ε)) :
    AlwaysFinds (op.perform e sessions) := by
  have hread : ∀ b channel, AlwaysFinds (Wiring.readChannel (e.handle sessions) b channel) :=
    Wiring.alwaysFinds_readChannel _
  have hwrite : ∀ b channel raw, AlwaysFinds (Wiring.writeChannel (e.handle sessions) b channel raw) :=
    Wiring.alwaysFinds_writeChannel _
  cases op with rw [Operation.perform]
  | isActive =>
    rw [isActive, h.ops]
    exact alwaysFinds_pure true
  | hasChannel dir channel => exact h.alwaysFinds_hasChannel channel
  | channels dir =>
    rw [channels, h.ops]
    exact h.finds_view.lift_bind fun w _ => alwaysFinds_pure _
  | volumeRange dir =>
    rw [volumeRange, h.ops]
    exact h.alwaysFinds_through (fun b => alwaysFinds_pure _) dir
  | dbRange dir =>
    rw [dbRange, h.ops]
    exact h.alwaysFinds_through (fun b => b.finds_scale.lift_bind fun _ _ => alwaysFinds_pure _) dir
  | volumeToDb dir value =>
    rw [volumeToDb_eq_through h.ops]
    exact h.alwaysFinds_through (fun b => (alwaysFinds_word _).bind b.alwaysFinds_toDb) dir
  | dbToVolume dir value rounding =>
    rw [dbToVolume_eq_through h.ops]
    exact h.alwaysFinds_through (fun b => (b.alwaysFinds_ofDb _ _).bind fun _ => alwaysFinds_word _) dir
  | volume dir channel =>
    rw [volume_eq_through h.ops]
    exact h.alwaysFinds_through (fun b => (hread b _).bind fun _ => alwaysFinds_word _) dir
  | db dir channel =>
    rw [db_eq_through h.ops]
    exact h.alwaysFinds_through (fun b => (hread b _).bind b.alwaysFinds_toDb) dir
  | setVolume dir channel value => exact h.alwaysFinds_setVolume channel value
  | setDb dir channel db rounding => exact h.alwaysFinds_setDb channel db rounding
  | switch dir channel =>
    rw [switch, h.ops]
    exact h.alwaysFinds_switch (fun b => (hread b _).bind fun _ => alwaysFinds_pure _) dir
  | setSwitch dir channel on => exact h.alwaysFinds_setSwitch channel on
  | setVolumeAll dir value =>
    exact finds_requireVolume.lift_bind fun _ _ => alwaysFinds_eachChannel h.alwaysFinds_hasChannel
      (fun channel => h.alwaysFinds_setVolume channel value) _
  | setDbAll dir db rounding =>
    exact finds_requireVolume.lift_bind fun _ _ => alwaysFinds_eachChannel h.alwaysFinds_hasChannel
      (fun channel => h.alwaysFinds_setDb channel db rounding) _
  | setSwitchAll dir on =>
    exact finds_requireSwitch.lift_bind fun _ _ => alwaysFinds_eachChannel h.alwaysFinds_hasChannel
      (fun channel => h.alwaysFinds_setSwitch channel on) _
  | isEnum dir =>
    rw [isEnum, h.ops]
    split
    · exact h.finds_view.lift_bind fun w _ => alwaysFinds_pure _
    · exact alwaysFinds_pure false
  | itemCount =>
    rw [itemCount, h.ops]
    exact h.alwaysFinds_choice fun b => alwaysFinds_pure _
  | itemName place =>
    rw [itemName, h.ops]
    refine h.alwaysFinds_choice fun b => ?_
    split
    · exact alwaysFinds_pure _
    · exact alwaysFinds_throw (Wiring.not_unbound_noItem b place)
  | item channel =>
    rw [item, h.ops]
    exact h.alwaysFinds_choice fun b => (hread b _).bind fun raw => alwaysFinds_lift (Wiring.finds_itemOf b raw)
  | setItem channel place =>
    rw [setItem, h.ops]
    refine h.alwaysFinds_choice fun b => ?_
    split
    · exact hwrite b channel _
    · exact alwaysFinds_throw (Wiring.not_unbound_noItem b place)

/-- The choice of a range finds the volume it is for. -/
theorem finds_setVolumeRange (dir : Direction) (range : Span) : Finds (e.setVolumeRange dir range) := by
  rw [setVolumeRange]
  split
  · exact finds_error (Wiring.not_unbound_of_text (by simp [toString]))
  · refine finds_requireVolume.bind fun _ hpassed => ?_
    obtain ⟨b, hb⟩ := h.requireVolume_iff.mp hpassed
    have hset : Finds (e.ops.setRange e.toElementView dir range) := by
      rw [h.ops]
      refine h.finds_view.bind fun w hw => ?_
      obtain rfl := Option.some.inj (h.wiring.symm.trans (ofView_eq_ok.mp hw))
      rw [hb]
      exact finds_ok _
    exact hset.bind fun _ _ => finds_ok _

end Backed

/-! ## Bits and bindings -/

/-- **An element can do what its bits say**: they are those of its bindings, each says which bindings there are,
a check is passed exactly if the lookup after it succeeds, and whatever is asked of the element, its control is
found. -/
structure Capable (e : Element ε) (v : Wiring) : Prop where
  wiring : e.wiring = some v
  caps : e.caps = v.caps
  group : e.group = v.group
  volume (dir : Direction) : e.hasVolume dir = true ↔ ∃ b ∈ v.bindings, b.role = .volume dir
  switch (dir : Direction) : e.hasSwitch dir = true ↔
    ∃ b ∈ v.bindings, b.role = .switch dir ∨ dir = .capture ∧ ∃ item, b.role = .source item
  choice : e.hasEnum = true ↔ ∃ b ∈ v.bindings, ∃ dir, b.role = .choice dir
  volumeFound (dir : Direction) : e.requireVolume dir = .ok () ↔ ∃ b, v.volume dir = .ok b
  switchFound (dir : Direction) : e.requireSwitch dir = .ok () ↔ ∃ b, v.switch dir = .ok b
  choiceFound : e.requireEnum = .ok () ↔ ∃ b, v.choice = .ok b
  /-- No operation fails for want of a control, on any cards and whatever the sessions are. -/
  finds {α : Type} (op : Operation α) (sessions : List (Session ε)) : AlwaysFinds (op.perform e sessions)
  ranged (dir : Direction) (range : Span) : Finds (e.setVolumeRange dir range)

/-- **Abilities that the wiring backs** are kept by every operation. -/
theorem Capable.of_backed (h : e.Backed v) (hgroup : e.group = v.group) : e.Capable v where
  wiring := h.wiring
  caps := h.caps
  group := hgroup
  volume := hasVolume_iff h.caps
  switch dir := (hasSwitch_iff h.caps dir).trans (by simp only [Wiring.isSwitch_iff])
  choice := (hasEnum_iff h.caps).trans (by simp only [Wiring.isChoice_iff])
  volumeFound _ := h.requireVolume_iff
  switchFound _ := h.requireSwitch_iff
  choiceFound := h.requireEnum_iff
  finds := h.alwaysFinds_perform
  ranged := h.finds_setVolumeRange

end Element

namespace ByName

open Mixer (connect)

variable {initial : π}

/-- **Bits, bindings and operations agree**, for the whole life of a mixer: after any events, whether or not they
were handled without a failure. -/
theorem Life.capable {m : Mixer ε π} {w : World ε} (h : Life True initial m w) :
    ∀ e ∈ m.elements, ∃ v, e.Capable v := by
  intro e he
  obtain ⟨hops, v, hv, hsettings⟩ := h.settled.2 e he
  have hcaps : e.caps = v.caps := congrArg Settings.caps (hsettings trivial)
  exact ⟨v, Element.Capable.of_backed ⟨hops, hv, hcaps⟩ (congrArg Settings.group (hsettings trivial))⟩

/-- An element gains a switch in a round that fails afterwards, and the switch is found. -/
theorem Life.capable_refused : ∃ (m : Mixer Unit Unit) (w : World Unit), Life True () m w ∧
    (m.handleEvents w).1 = .error (.invalid "no") ∧ ∃ e ∈ (m.handleEvents w).2.1.elements,
      e.hasSwitch .playback = true ∧ ∃ v, e.Capable v ∧ ∃ b ∈ v.bindings, b.role = .switch .playback := by
  have hopen : Life True () _ _ := .opened
    (show connect (provider ()) ⟨"desk", .none⟩ Mixer.overCard ⟨Mixer.oneCard, ()⟩ = (.ok _, _) from rfl)
  have hplug : ∀ {m : Mixer Unit Unit} {w}, Life True () m w → Life True () m ⟨w.cards.update 0 fun card =>
      (card.addControl (.mixer 2 "Master Playback Switch" 0) (.boolean 2)).addControl
        (.mixer 3 "PCM Playback Volume" 0) (.integer 2 0 10), w.app⟩ :=
    fun h => h.elsewhere _
  have hrun := hplug (hopen.watched (some fun _ app => (.error (.invalid "no"), app)) none)
  obtain ⟨m, w, h, hfailed, e, he, hhas⟩ : ∃ (m : Mixer Unit Unit) (w : World Unit), Life True () m w ∧
      (m.handleEvents w).1 = .error (.invalid "no") ∧
      ∃ e ∈ (m.handleEvents w).2.1.elements, e.hasSwitch .playback = true := ⟨_, _, hrun, by decide +kernel⟩
  obtain ⟨v, hv⟩ := Life.capable h.handled e he
  have hbound : ∃ b ∈ v.bindings, b.role = .switch .playback := by
    obtain ⟨b, hb, hrole | ⟨hdir, -⟩⟩ := (hv.switch .playback).mp hhas
    · exact ⟨b, hb, hrole⟩
    · cases hdir
  exact ⟨m, w, h, hfailed, e, he, hhas, v, hv, hbound⟩

end ByName

end SoundDesk
