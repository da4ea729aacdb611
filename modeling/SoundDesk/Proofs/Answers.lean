import SoundDesk.Proofs.Lines
import SoundDesk.Proofs.Steps

/-!
# Proofs/Answers — bindings and attachments tell the same story

In a wired core the keys of an element's bindings are the controls that are attached to it, and every element
has one (`ByName.Wired`).  A removal drops the bindings first and the attachments at its end, and takes the
elements that are left with nothing (`controlRemoved_dropped`); a change touches neither
(`controlChanged_cases`).
-/

namespace SoundDesk.ByName

open Mixer (Board callProvider removeFrom removeEmpty controlRemoved controlChanged)

variable {ε π : Type} {cards : Cards} {line : Line} {ctl : ControlRef} {Q : Element ε → Prop}
  {c c' : Core ε} {id : ElementId} {key : ControlKey}

/-! ## Wired cores -/

/-- **A wired core**: bindings and attachments agree, and no element is without a binding. -/
structure Wired (Q : Element ε → Prop) (c : Core ε) : Prop extends Tended Q c where
  keys : ∀ id key, key ∈ (c.bindings id).map Binding.key ↔ key ∈ c.attachments.controlsOf id
  bound : ∀ id ∈ c.ids, c.bindings id ≠ []

/-- Whether a core is wired is a matter of its elements and links alone. -/
theorem Wired.congr (h : Wired Q c) (he : c'.elems = c.elems) (ha : c'.attachments = c.attachments) :
    Wired Q c' := by
  have hb : ∀ id, c'.bindings id = c.bindings id := fun id => by
    simp only [Core.bindings, Core.element?, Core.search?, Core.position?, he]
  refine ⟨⟨h.sound.congr he ha, he ▸ h.all⟩, ?_, ?_⟩
  · intro id key
    rw [hb, ha]; exact h.keys id key
  · intro id hid
    rw [hb]
    rw [Core.ids, he] at hid
    exact h.bound id hid

/-- An identity is in a wired core exactly if it has a binding there. -/
theorem Wired.mem_ids_iff (h : Wired Q c) : id ∈ c.ids ↔ c.bindings id ≠ [] :=
  ⟨h.bound id, fun hb => by_contra fun hn => hb (Core.bindings_of_not_mem hn)⟩

/-- **A control leads to the elements that are bound to it.** -/
theorem Wired.elementsOf (h : Wired Q c) :
    id ∈ c.attachments.elementsOf key ↔ key ∈ (c.bindings id).map Binding.key := by
  rw [h.keys, h.sound.coherent.mem_iff]

/-- What tells the same keys keeps the core wired. -/
theorem Wired.rewired {f : List Binding → List Binding} {done : List ElementId} (h : Wired Q c)
    (hr : Rewired Q done f c c') (hf : ∀ l, (f l).map Binding.key = l.map Binding.key) :
    Wired Q c' := by
  have hkeys : ∀ j, (c'.bindings j).map Binding.key = (c.bindings j).map Binding.key := fun j => by
    rw [hr.bindings]
    split
    · exact hf _
    · rfl
  refine ⟨hr.toTended, ?_, ?_⟩
  · intro j k
    rw [hkeys, hr.attachments]; exact h.keys j k
  · intro j hj hnil
    have hnone := hkeys j
    rw [hnil, List.map_nil] at hnone
    rw [hr.ids] at hj
    exact h.bound j hj (List.map_eq_nil_iff.mp hnone.symm)

/-- What happens to the elements of a control happens to all, if it leaves lists without the control alone. -/
theorem Wired.turned {f : List Binding → List Binding} (h : Wired Q c)
    (hr : Rewired Q (c.attachments.elementsOf key) f c c')
    (hf : ∀ l, key ∉ l.map Binding.key → f l = l) : Turned (fun _ => f) c c' := by
  refine ⟨hr.compare, hr.listener, fun j => ?_⟩
  rw [hr.bindings]
  split
  · rfl
  · rename_i hj
    exact (hf _ fun hk => hj (h.elementsOf.mpr hk)).symm

/-- A binding that is made keeps a core wired. -/
theorem Wired.bind {b : Binding} (h : Wired Q c) (hb : Bound Q id b c c') : Wired Q c' where
  toTended := hb.toTended
  keys j k := by
    rw [hb.controls, ← h.keys, hb.bindings]
    split
    · rename_i hj
      simp [hj, or_comm, eq_comm]
    · rename_i hj
      simp [hj]
  bound j hj := by
    rw [hb.bindings]
    split
    · exact List.append_ne_nil_of_right_ne_nil _ (List.cons_ne_nil b [])
    · rename_i hne
      exact h.bound j (((hb.ids j).mp hj).resolve_left hne)

/-! ## The answer of the provider -/

/-- The provider by names keeps nothing to itself: a call is its answer, run on the stage. -/
theorem callProvider_eq (initial : π) (mask : EventMask) (id : Option ElementId) (b : Board ε π) :
    callProvider (provider initial) cards line ctl mask id b =
      ((exec cards line (answer ctl mask id) b.1).1, (exec cards line (answer ctl mask id) b.1).2,
        b.2) := by
  rw [callProvider, provider, Program.run_bind]
  rfl

/-! ## A removal -/

theorem answer_remove (id : ElementId) :
    (answer ctl .remove (some id) : Step ε Unit) = unbindControl ctl.key id := by
  simp [answer]

/-- The bindings that do not belong to a control. -/
def dropped (key : ControlKey) (bindings : List Binding) : List Binding :=
  bindings.filter (·.key ≠ key)

theorem dropped_dropped (key : ControlKey) (l : List Binding) :
    dropped key (dropped key l) = dropped key l := by
  simp [dropped, List.filter_filter]

theorem mem_keys_dropped {k : ControlKey} {l : List Binding} :
    k ∈ (dropped key l).map Binding.key ↔ k ≠ key ∧ k ∈ l.map Binding.key := by
  simp only [dropped, List.mem_map, List.mem_filter, decide_eq_true_eq]
  constructor
  · rintro ⟨b, ⟨hb, hne⟩, rfl⟩
    exact ⟨hne, b, hb, rfl⟩
  · rintro ⟨hne, b, hb, rfl⟩
    exact ⟨b, ⟨hb, hne⟩, rfl⟩

theorem dropped_eq_self {l : List Binding} (h : key ∉ l.map Binding.key) : dropped key l = l := by
  refine List.filter_eq_self.mpr fun b hb => ?_
  rw [decide_eq_true_eq]
  exact fun he => h (he ▸ List.mem_map_of_mem hb)

/-- The answers to a removal drop the bindings of every element that they are asked about. -/
theorem removeFrom_rewired (cards : Cards) (line : Line) (hQ : Stable Q) (initial : π)
    (members : List ElementId) (failure : Option Error) {b : Board ε π} (h : Tended Q b.1.core)
    (hmem : ∀ id ∈ members, id ∈ b.1.core.attachments.elementsOf ctl.key) :
    Rewired Q members (dropped ctl.key) b.1.core
        (removeFrom (provider initial) cards line ctl members failure b).2.1.core ∧
      ((∀ e, Q e → e.Calm) →
        (removeFrom (provider initial) cards line ctl members failure b).1 = failure) := by
  induction members generalizing failure b with
  | nil => exact ⟨rewired_nil h, fun _ => rfl⟩
  | cons id rest ih =>
    have hid := hmem id List.mem_cons_self
    have hunbind := unbindControl_rewired cards line hQ h (h.sound.present ctl.key id hid) ctl.key
    rw [removeFrom, if_pos (Attachments.isAttached_iff.mpr hid), callProvider_eq, answer_remove]
    revert hunbind
    rcases exec cards line (unbindControl ctl.key id) b.1 with ⟨r, st⟩
    rintro ⟨hrewired, hr⟩
    have hrest := ih (b := (st, b.2)) (Error.first failure r) hrewired.toTended
      fun j hj => by
        dsimp only at hrewired ⊢
        rw [hrewired.attachments]
        exact hmem j (List.mem_cons_of_mem id hj)
    refine ⟨hrewired.trans (dropped_dropped ctl.key) hrest.1, fun hcalm => ?_⟩
    rw [hrest.2 hcalm]
    dsimp only at hr
    rw [hr hcalm]
    cases failure <;> rfl

/-- Wired but for these elements, which may be without a binding. -/
structure Loose (Q : Element ε → Prop) (left : List ElementId) (c : Core ε) : Prop
    extends Tended Q c where
  keys : ∀ id key, key ∈ (c.bindings id).map Binding.key ↔ key ∈ c.attachments.controlsOf id
  bound : ∀ id ∈ c.ids, id ∉ left → c.bindings id ≠ []

/-- An element has no control left exactly if it has no binding left. -/
theorem Loose.controlsOf_eq_nil {left : List ElementId} (h : Loose Q left c) :
    c.attachments.controlsOf id = [] ↔ c.bindings id = [] := by
  rw [List.eq_nil_iff_forall_not_mem, ← List.map_eq_nil_iff (f := Binding.key),
    List.eq_nil_iff_forall_not_mem]
  exact forall_congr' fun key => not_congr (h.keys id key).symm

/-- The links of the control go after its bindings. -/
theorem Wired.discard (h : Wired Q c)
    (hr : Rewired Q (c.attachments.elementsOf key) (dropped key) c c') :
    Loose Q (c.attachments.elementsOf key)
      { c' with attachments := (c'.attachments.discard key).2 } where
  sound := hr.sound.discard
  all := hr.all
  keys j k := by
    change k ∈ (c'.bindings j).map Binding.key ↔ _
    rw [Attachments.controlsOf_discard hr.sound.coherent, hr.attachments, hr.bindings,
      List.mem_filter, ← h.keys]
    split
    · rw [mem_keys_dropped, and_comm, decide_eq_true_eq]
    · rename_i hj
      rw [decide_eq_true_eq, iff_self_and]
      rintro hk rfl
      exact hj (h.elementsOf.mpr hk)
  bound j hj hleft := by
    change c'.bindings j ≠ []
    rw [hr.bindings, if_neg hleft]
    have hj : j ∈ c'.ids := hj
    rw [hr.ids] at hj
    exact h.bound j hj

/-- The removal of an element without a binding changes no bindings. -/
theorem turned_remove {st : Stage ε} (hs : st.core.Sound) (hnil : st.core.bindings id = []) :
    Turned (fun _ l => l) st.core (st.remove id).2.core := by
  rcases st.remove_cases id with ⟨-, h⟩ | ⟨i, e, r, app, hfound, -, h⟩
  · rw [h]
    exact ⟨rfl, rfl, fun _ => rfl⟩
  · rw [h]
    refine ⟨rfl, rfl, fun j => ?_⟩
    change Core.bindings { st.core with
      elems := { st.core.elems with elems := st.core.elems.elems.eraseIdx i } } j = _
    rw [Core.bindings, Core.element?_erase hs.nodup_ids hfound]
    split
    · rename_i hj
      exact hj ▸ hnil.symm
    · rfl

/-- An element that nothing is attached to is removed. -/
theorem Loose.remove {left : List ElementId} {st : Stage ε} (h : Loose Q (id :: left) st.core)
    (hid : id ∈ st.core.ids) (hnone : st.core.attachments.controlsOf id = []) :
    Loose Q left (st.remove id).2.core ∧ Turned (fun _ l => l) st.core (st.remove id).2.core ∧
      ((∀ e, Q e → e.Calm) → (st.remove id).1 = .ok ()) := by
  have hturned := turned_remove h.sound (h.controlsOf_eq_nil.mp hnone)
  have hcontrols := Stage.controlsOf_remove hnone
  rcases st.remove_cases id with ⟨hout, -⟩ | ⟨i, e, r, app, hs, ht, hrem⟩
  · exact absurd hid hout
  have hids : (st.remove id).2.core.ids = st.core.ids.filter (· ≠ id) := by
    rw [hrem]
    exact Core.Sound.ids_erase h.sound.nodup_ids hs
  refine ⟨⟨⟨?_, ?_⟩, ?_, ?_⟩, hturned, ?_⟩
  · rw [hrem]
    exact (h.sound.erase hs).congr rfl rfl
  · intro a ha
    rw [hrem] at ha
    exact h.all a (List.mem_of_mem_eraseIdx ha)
  · intro j k
    rw [hturned.bindings, hcontrols]
    exact h.keys j k
  · intro j hj hleft
    rw [hids, List.mem_filter, decide_eq_true_eq] at hj
    rw [hturned.bindings]
    refine h.bound j hj.1 fun hin => ?_
    exact (List.mem_cons.mp hin).elim hj.2 hleft
  · intro hcalm
    have hr := (hcalm e (h.all e (List.mem_of_getElem? (Core.search?_eq_some hs).2.1))).tell
      .remove st.app
    rw [hrem]
    rwa [ht] at hr

/-- **The elements that are left with nothing go.** -/
theorem Loose.removeEmpty {members : List ElementId} (failure : Option Error) {st : Stage ε}
    (h : Loose Q members st.core) :
    Wired Q (removeEmpty members failure st).2.core ∧
      Turned (fun _ l => l) st.core (removeEmpty members failure st).2.core ∧
      ((∀ e, Q e → e.Calm) → (removeEmpty members failure st).1 = failure) := by
  induction members generalizing failure st with
  | nil =>
    exact ⟨⟨h.toTended, h.keys, fun id hid => h.bound id hid List.not_mem_nil⟩,
      ⟨rfl, rfl, fun _ => rfl⟩, fun _ => rfl⟩
  | cons id rest ih =>
    rw [Mixer.removeEmpty]
    split
    · rename_i hempty
      rw [Bool.and_eq_true, Option.isSome_iff_ne_none, Ne, Core.position?_eq_none, not_not] at hempty
      have hremove := h.remove hempty.1 (List.isEmpty_iff.mp hempty.2)
      revert hremove
      rcases st.remove id with ⟨r, st'⟩
      rintro ⟨hloose, hturned, hr⟩
      obtain ⟨hwired, hrest, hf⟩ := ih (Error.first failure r) hloose
      refine ⟨hwired, hturned.trans hrest, fun hcalm => ?_⟩
      rw [hf hcalm]
      dsimp only at hr
      rw [hr hcalm]
      cases failure <;> rfl
    · rename_i hkept
      refine ih failure ⟨h.toTended, h.keys, fun j hj hleft hnil => ?_⟩
      rcases eq_or_ne j id with rfl | hne
      · refine hkept ?_
        rw [Bool.and_eq_true, Option.isSome_iff_ne_none, Ne, Core.position?_eq_none, not_not]
        exact ⟨hj, List.isEmpty_iff.mpr (h.controlsOf_eq_nil.mpr hnil)⟩
      · exact h.bound j hj (fun hin => (List.mem_cons.mp hin).elim hne hleft) hnil

/-- **A removal drops the bindings of the control**, whatever the listeners answer. -/
theorem controlRemoved_dropped (cards : Cards) (line : Line) (ctl : ControlRef) (hQ : Stable Q)
    (initial : π) {b : Board ε π} (h : Wired Q b.1.core) :
    Wired Q (controlRemoved (provider initial) cards line ctl b).2.1.core ∧
      Turned (fun _ => dropped ctl.key) b.1.core
        (controlRemoved (provider initial) cards line ctl b).2.1.core ∧
      ((∀ e, Q e → e.Calm) →
        (controlRemoved (provider initial) cards line ctl b).1 = .ok ()) := by
  have hfrom := removeFrom_rewired cards line hQ initial
    (b.1.core.attachments.elementsOf ctl.key) none h.toTended fun _ hid => hid
  rw [controlRemoved]
  revert hfrom
  generalize removeFrom (provider initial) cards line ctl
    (b.1.core.attachments.elementsOf ctl.key) none b = calls
  obtain ⟨failure, stage, memory⟩ := calls
  rintro ⟨hrewired, hfailure⟩
  have hloose : Loose Q _ (Mixer.discard ctl.key stage).core := h.discard hrewired
  obtain ⟨hwired, hrest, hf⟩ := hloose.removeEmpty failure
  have hturned := h.turned hrewired fun l => dropped_eq_self
  have hdiscard : Turned (fun _ l => l) stage.core (Mixer.discard ctl.key stage).core :=
    ⟨rfl, rfl, fun _ => rfl⟩
  have hall := (hturned.trans hdiscard).trans hrest
  refine ⟨hwired, hall, fun hcalm => ?_⟩
  change Error.outcome (removeEmpty _ failure (Mixer.discard ctl.key stage)).1 = _
  rw [hf hcalm, show failure = none from hfailure hcalm]
  rfl

/-! ## A change -/

theorem renew_renew (key : ControlKey) (info : ControlInfo) (l : List Binding) :
    renew key info (renew key info l) = renew key info l := by
  rw [renew, renew, List.map_map]
  refine List.map_congr_left fun b _ => ?_
  by_cases hb : b.key = key <;> simp [hb]

theorem keys_renew (key : ControlKey) (info : ControlInfo) (l : List Binding) :
    (renew key info l).map Binding.key = l.map Binding.key := by
  rw [renew, List.map_map]
  refine List.map_congr_left fun b _ => ?_
  by_cases hb : b.key = key <;> simp [hb]

/-- What a change does to the bindings of an element: it renews them, if the description changed. -/
def Renews (cards : Cards) (line : Line) (ctl : ControlRef) (mask : EventMask)
    (f : List Binding → List Binding) : Prop :=
  if mask.isInfo then ∃ info, line.readInfo cards ctl.id = .ok info ∧ f = renew ctl.key info
  else f = fun l => l

variable {mask : EventMask} {f : List Binding → List Binding}

/-- To renew bindings twice is to renew them. -/
theorem Renews.twice (h : Renews cards line ctl mask f) (l : List Binding) : f (f l) = f l := by
  rw [Renews] at h
  split at h
  · obtain ⟨info, -, rfl⟩ := h
    exact renew_renew ctl.key info l
  · rw [h]

/-- Renewed bindings stay at their controls. -/
theorem Renews.keys (h : Renews cards line ctl mask f) (l : List Binding) :
    (f l).map Binding.key = l.map Binding.key := by
  rw [Renews] at h
  split at h
  · obtain ⟨info, -, rfl⟩ := h
    exact keys_renew ctl.key info l
  · rw [h]

/-- The notification at the end of an answer changes no binding. -/
theorem notifyValue_rewired {done : List ElementId} {st : Stage ε} (h : Rewired Q done f c st.core)
    (hid : id ∈ c.ids) (mask : EventMask) :
    Rewired Q done f c (exec cards line
        (if mask.isValue then attempt (core (.notifyValue id)) else pure ()) st).2.core ∧
      ((∀ e, Q e → e.Calm) → (exec cards line
        (if mask.isValue then attempt (core (.notifyValue id)) else pure ()) st).1 = .ok ()) := by
  split
  · obtain ⟨app, hn, hcalm⟩ := notify_of_mem h.toTended (h.ids.symm ▸ hid) .value
    rw [exec_notifyValue, hn]
    exact ⟨h.counted, hcalm⟩
  · exact ⟨h, fun _ => rfl⟩

/-- **A change** is nothing to the attachments; it renews bindings, unless the control cannot be read. -/
theorem change_cases (cards : Cards) (line : Line) {st : Stage ε} (hQ : Stable Q)
    (h : Tended Q st.core) (hr : mask.isRemove = false) (ha : mask.isAdd = false)
    (hid : id ∈ st.core.ids) :
    (∃ e, mask.isInfo = true ∧ line.readInfo cards ctl.id = .error e ∧
      exec cards line (answer ctl mask (some id)) st = (.error e, st)) ∨
    ∃ f, Renews cards line ctl mask f ∧
      Rewired Q [id] f st.core (exec cards line (answer ctl mask (some id)) st).2.core ∧
      ((∀ e, Q e → e.Calm) →
        (exec cards line (answer ctl mask (some id)) st).1 = .ok ()) := by
  simp only [answer, hr, ha]
  rcases hinfo : mask.isInfo with _ | _
  · have hsame : Rewired Q [id] (fun l => l) st.core st.core :=
      ⟨h, rfl, rfl, rfl, rfl, fun j => (ite_self _).symm⟩
    exact .inr ⟨_, by rw [Renews, hinfo]; rfl, notifyValue_rewired hsame hid mask⟩
  · simp only [if_true, exec_bind]
    rcases refresh_cases cards line hQ h ctl hid with ⟨e, he, hx⟩ | ⟨info, hi, hx, hok⟩
    · rw [hx]
      exact .inl ⟨e, trivial, he, rfl⟩
    · refine .inr ⟨_, by rw [Renews, hinfo]; exact ⟨info, hi, rfl⟩, ?_⟩
      revert hx hok
      rcases exec cards line (refresh ctl id) st with ⟨_ | _, st'⟩
      · exact fun hx hok => ⟨hx, fun hcalm => hok hcalm⟩
      · exact fun hx _ => notifyValue_rewired hx hid mask

/-- An event renews bindings in one way only. -/
theorem Renews.unique {f' : List Binding → List Binding} (h : Renews cards line ctl mask f)
    (h' : Renews cards line ctl mask f') : f = f' := by
  rw [Renews] at h h'
  split at h
  · rename_i hinfo
    rw [if_pos hinfo] at h'
    obtain ⟨info, hi, rfl⟩ := h
    obtain ⟨info', hi', rfl⟩ := h'
    rw [Except.ok.inj (hi.symm.trans hi')]
  · rename_i hinfo
    rw [if_neg hinfo] at h'
    rw [h, h']

/-- The control cannot be read for a change of its description. -/
def Unreadable (cards : Cards) (line : Line) (ctl : ControlRef) (mask : EventMask) : Prop :=
  mask.isInfo = true ∧ ∃ e, line.readInfo cards ctl.id = .error e

theorem unreadable_or_renews (cards : Cards) (line : Line) (ctl : ControlRef) (mask : EventMask) :
    Unreadable cards line ctl mask ∨ ∃ f, Renews cards line ctl mask f := by
  rcases hinfo : mask.isInfo with _ | _
  · exact .inr ⟨fun l => l, by rw [Renews, hinfo]; rfl⟩
  · rcases hread : line.readInfo cards ctl.id with e | info
    · exact .inl ⟨hinfo, e, hread⟩
    · exact .inr ⟨renew ctl.key info, by rw [Renews, hinfo]; exact ⟨info, hread, rfl⟩⟩

theorem Renews.readable (h : Renews cards line ctl mask f) : ¬ Unreadable cards line ctl mask := by
  rintro ⟨hinfo, e, he⟩
  rw [Renews, if_pos hinfo] at h
  obtain ⟨info, hi, -⟩ := h
  rw [he] at hi
  cases hi

/-- The walk of a change over elements that are attached to the control: it gets nowhere if the control
cannot be read, and else renews one element after the other until a listener fails. -/
theorem walk_change (hQ : Stable Q) (initial : π) (hr : mask.isRemove = false)
    (ha : mask.isAdd = false) (members : List ElementId) {b : Board ε π} (h : Tended Q b.1.core)
    (hmem : ∀ id ∈ members, id ∈ b.1.core.attachments.elementsOf ctl.key) :
    let r := walk (m := StateM (Board ε π))
      (fun id b => (b.1.core.attachments.isAttached ctl.key id, b))
      (fun id b => callProvider (provider initial) cards line ctl mask (some id) b) members b
    (Unreadable cards line ctl mask ∧ r.2 = b) ∨
      ∃ f done, Renews cards line ctl mask f ∧ Rewired Q done f b.1.core r.2.1.core ∧
        ((∀ e, Q e → e.Calm) → done = members ∧ r.1 = .ok ()) := by
  induction members generalizing b with
  | nil =>
    rcases unreadable_or_renews cards line ctl mask with hun | ⟨f, hf⟩
    · exact .inl ⟨hun, rfl⟩
    · exact .inr ⟨f, [], hf, rewired_nil h, fun _ => ⟨rfl, rfl⟩⟩
  | cons id rest ih =>
    have hid := hmem id List.mem_cons_self
    dsimp only
    rw [walk_cons, if_pos (Attachments.isAttached_iff.mpr hid), callProvider_eq]
    dsimp only
    rcases change_cases cards line hQ h hr ha (h.sound.present ctl.key id hid) with
      ⟨e, hinfo, he, hx⟩ | ⟨f, hf, hx, hok⟩
    · rw [hx]
      exact .inl ⟨⟨hinfo, e, he⟩, rfl⟩
    · revert hx hok
      rcases exec cards line (answer ctl mask (some id)) b.1 with ⟨e | u, st⟩
      · exact fun hx hok => .inr ⟨f, [id], hf, hx, fun hcalm => absurd (hok hcalm) (by simp)⟩
      · intro hx _
        dsimp only at hx ⊢
        have hmem' : ∀ j ∈ rest, j ∈ st.core.attachments.elementsOf ctl.key := fun j hj => by
          rw [hx.attachments]
          exact hmem j (List.mem_cons_of_mem id hj)
        rcases ih (b := (st, b.2)) hx.toTended hmem' with ⟨hun, -⟩ | ⟨f', done, hf', hrest, hok⟩
        · exact absurd hun hf.readable
        · obtain rfl := hf.unique hf'
          exact .inr ⟨f, id :: done, hf, hx.trans hf.twice hrest,
            fun hcalm => ⟨congrArg (id :: ·) (hok hcalm).1, (hok hcalm).2⟩⟩

/-- **A change keeps a core wired**, whatever the listeners answer. -/
theorem controlChanged_cases (cards : Cards) (line : Line) (ctl : ControlRef) (hQ : Stable Q)
    (initial : π) (hr : mask.isRemove = false) (ha : mask.isAdd = false) {b : Board ε π}
    (h : Wired Q b.1.core) :
    (Unreadable cards line ctl mask ∧
      (controlChanged (provider initial) cards line ctl mask b).2 = b) ∨
    ∃ f done, Renews cards line ctl mask f ∧
      Rewired Q done f b.1.core (controlChanged (provider initial) cards line ctl mask b).2.1.core ∧
      ((∀ e, Q e → e.Calm) → done = b.1.core.attachments.elementsOf ctl.key ∧
        (controlChanged (provider initial) cards line ctl mask b).1 = .ok ()) :=
  walk_change hQ initial hr ha _ h.toTended fun _ hid => hid

end SoundDesk.ByName
