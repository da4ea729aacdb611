import SoundDesk.Proofs.Additions
import SoundDesk.Proofs.Endpoints
import SoundDesk.Proofs.Registered

/-!
# Proofs/Orphans — the one way in which bindings and attachments part

    new element  ──▸  told to the listener of the mixer  ──▸  attached to its control

A listener that refuses a new element cuts this short: the element stays with its binding, nothing is ever
attached to it, and no removal of its control finds it.  Whatever else fails in a round, the bindings
of every element and its attachments name the same controls, all of them cached (`ByName.Linked`).
-/

namespace SoundDesk

variable {ε π : Type}

/-! ## The listener of the mixer -/

namespace Mixer

/-- No provider replaces the listener of the mixer, for the addition of a control. -/
theorem controlAdded_listener (p : Provider ε π) (cards : Cards) (line : Line) (ctl : ControlRef)
    (b : Board ε π) : (controlAdded p cards line ctl b).2.1.core.listener = b.1.core.listener := by
  rw [controlAdded]
  exact callProvider_keeps (I := fun st => st.core.listener = b.1.core.listener)
    (fun c st hst => (c.perform_step st).listener.trans hst) .add none rfl

/-- **The round ends with a refusal**: its failure is what the listener of the mixer answers to this new
element. -/
def Refuses (m : Mixer ε π) (w : World ε) (e : ElementView) : Prop :=
  ∃ err hear before, (m.handleEvents w).1 = .error err ∧ m.core.listener = some hear ∧
    hear (.add, e) before = (.error err, (m.handleEvents w).2.2.app)

end Mixer

namespace ByName

open Mixer (Board Caches Registers fanout reference controlAdded controlRemoved controlChanged connect)

variable {sessions : List (Session ε)} {slot : Nat} {s : Session ε} {b : Board ε π}

/-! ## Elements of the provider -/

/-- An element that the provider by names operates. -/
def Basic (e : Element ε) : Prop := e.ops = Wiring.ops ∧ ∃ w, e.wiring = some w

theorem stable_basic : Stable (Basic (ε := ε)) where
  wiring h := h.2
  rewire f h := by
    obtain ⟨hops, w, hw⟩ := h
    exact ⟨hops, _, by simp [Stage.revise, rewire, hw, Element.withSettings, settings]; rfl⟩
  new id b := ⟨rfl, _, rfl⟩

/-- Nothing is wired before there is an element. -/
theorem wired_empty (Q : Element ε → Prop) : Wired Q (Core.empty : Core ε) where
  sound := Core.sound_empty
  all e he := absurd he List.not_mem_nil
  keys id key := by
    simp [Core.bindings, Core.element?_eq_none.mpr, Core.ids, Core.empty, Attachments.controlsOf,
      Attachments.empty, SortedIndex.empty]
  bound id hid := absurd hid List.not_mem_nil

/-! ## One event -/

/-- **Bindings, attachments and caches agree**: the core is wired, and what is registered is cached. -/
structure Attached (sessions : List (Session ε)) (c : Core ε) : Prop where
  wired : Wired Basic c
  cached : ∀ key, c.attachments.isRegistered key = true → Caches sessions key

/-- What is registered in a wired core. -/
theorem Wired.registers {Q : Element ε → Prop} {c : Core ε} (h : Wired Q c) :
    Registers (fun key => c.attachments.isRegistered key = true) c := ⟨h.sound, fun _ => .rfl⟩

/-- A control leaves its cache and is forgotten. -/
theorem Attached.removed (cards : Cards) (line : Line) (initial : π) {i : Nat} {c : CachedControl ε}
    (h : Attached sessions b.1.core) (hs : sessions[slot]? = some s)
    (hi : s.controls.elems[i]? = some c) :
    let b' := (controlRemoved (provider initial) cards line (reference slot s c) b).2
    Attached (sessions.set slot (s.without i)) b'.1.core ∧
      b'.1.core.listener = b.1.core.listener := by
  intro b'
  obtain ⟨hwired, hturned, -⟩ :=
    controlRemoved_dropped cards line (reference slot s c) stable_basic initial h.wired
  refine ⟨⟨hwired, fun key hkey => ?_⟩, hturned.listener⟩
  have hregisters : Registers _ b'.1.core := Mixer.controlRemoved_registers h.wired.registers
  obtain ⟨hne, hbefore⟩ := (hregisters.registered key).mp hkey
  exact (Mixer.caches_without hs hi hne).mpr (h.cached key hbefore)

/-- A control enters its cache and is registered, though its element may be refused. -/
theorem Attached.added (cards : Cards) (line : Line) (initial : π) {id : ControlId} {i : Nat}
    {controls : SortedIndex (CachedControl ε)} (h : Attached sessions b.1.core)
    (hs : sessions[slot]? = some s) (hi : s.controls.insert (.ofId id) = .ok (i, controls)) :
    Leaves (fun b' => Attached (sessions.set slot { s with controls }) b'.1.core ∧
        b'.1.core.listener = b.1.core.listener)
      (fun e b' => Attached (sessions.set slot { s with controls }) b'.1.core ∨
        Refused b.1.core.listener e b'.1)
      (controlAdded (provider initial) cards line (reference slot { s with controls } (.ofId id)) b) := by
  have hcached : ∀ key, (controlAdded (provider initial) cards line
      (reference slot { s with controls } (.ofId id)) b).2.1.core.attachments.isRegistered key = true →
      Caches (sessions.set slot { s with controls }) key := by
    intro key hkey
    have hregisters : Registers _ (controlAdded (provider initial) cards line
        (reference slot { s with controls } (.ofId id)) b).2.1.core :=
      Mixer.controlAdded_registers h.wired.registers
    exact (Mixer.caches_insert hs hi key).mpr
      (((hregisters.registered key).mp hkey).imp_right (h.cached key))
  have hlistener := Mixer.controlAdded_listener (provider initial) cards line
    (reference slot { s with controls } (.ofId id)) b
  rcases controlAdded_wired cards line (reference slot { s with controls } (.ofId id)) stable_basic
    initial h.wired with hwired | ⟨err, herr, hrefused⟩
  · exact leaves_of ⟨⟨hwired, hcached⟩, hlistener⟩ fun _ => .inl ⟨hwired, hcached⟩
  · rw [Leaves, herr]
    exact .inr hrefused

/-- A change of a control is nothing to its registration. -/
theorem Attached.changed (cards : Cards) (line : Line) (ctl : ControlRef) (initial : π)
    {mask : EventMask} (h : Attached sessions b.1.core) (hr : mask.isRemove = false)
    (ha : mask.isAdd = false) :
    let b' := (controlChanged (provider initial) cards line ctl mask b).2
    Attached sessions b'.1.core ∧ b'.1.core.listener = b.1.core.listener := by
  intro b'
  rcases controlChanged_cases cards line ctl stable_basic initial hr ha h.wired with
    ⟨-, hsame⟩ | ⟨f, done, hf, hrewired, -⟩
  · rw [show b' = b from hsame]
    exact ⟨h, rfl⟩
  · refine ⟨⟨h.wired.rewired hrewired hf.keys, fun key hkey => h.cached key ?_⟩, hrewired.listener⟩
    rwa [← hrewired.attachments]

/-- **One event keeps bindings, attachments and caches together**, unless the listener of the mixer refuses
an element that is new. -/
theorem Attached.apply (cards : Cards) (initial : π) {event : ControlEvent}
    (h : Attached sessions b.1.core) (hs : sessions[slot]? = some s) :
    Leaves (fun t => Attached (sessions.set slot t.1) t.2.1.core ∧
        t.2.1.core.listener = b.1.core.listener)
      (fun e t => Attached (sessions.set slot t.1) t.2.1.core ∨ Refused b.1.core.listener e t.2.1)
      (s.apply (fanout (provider initial) slot) cards event b) := by
  have hset : Attached (sessions.set slot s) b.1.core := by
    obtain ⟨hlt, rfl⟩ := List.getElem?_eq_some_iff.mp hs
    rwa [List.set_getElem_self]
  refine Session.apply_rule
    (J := fun t (b' : Board ε π) => Attached (sessions.set slot t) b'.1.core ∧
      b'.1.core.listener = b.1.core.listener)
    (E := fun e t (b' : Board ε π) => Attached (sessions.set slot t) b'.1.core ∨
      Refused b.1.core.listener e b'.1)
    (fun {t b'} hJ _ => .inl hJ.1) (fun _ _ => .inl hset) (fun {i c} _ hf => ?_)
    (fun {i controls} _ hi => h.added cards _ initial hs hi) (fun {t b' i c} _ hJ _ => ?_) ⟨hset, rfl⟩
  · have hremoved := h.removed cards s.line initial hs (Session.search?_eq_some hf).2
    exact leaves_of hremoved fun _ => .inl hremoved.1
  · simp only [fanout, EventMask.isRemove_changes]
    split
    · rename_i hr; cases hr
    · split
      · have hchanged := hJ.1.changed cards t.line (reference slot t c) initial
          event.mask.isRemove_changes event.mask.isAdd_changes
        exact leaves_of ⟨hchanged.1, hchanged.2.trans hJ.2⟩ fun _ => .inl hchanged.1
      · exact hJ

/-! ## The opening -/

/-- **An opening attaches everything**: nobody listens to the mixer yet. -/
theorem attached_connect {initial : π} {request : OpenRequest} {d : MixerDefinition} {w w' : World ε}
    {m : Mixer ε π} (h : connect (provider initial) request d w = (.ok m, w')) :
    m.provider = provider initial ∧ Attached m.sessions m.core := by
  obtain ⟨hprovider, -, hl⟩ := Mixer.connect_eq_ok h
  have hempty := core_opening initial request d w
  have hopen : Registers (Caches ([] : List (Session ε)))
      (Mixer.opening (provider initial) request d w).2.stage.core :=
    (Mixer.registers_opening _ request d w).congr fun key => by simp [Caches]
  have hloaded := Mixer.loadSessions_rule
    (J := fun front _ _ (b : Board ε π) => Registers (Caches front) b.1.core ∧
      Wired Basic b.1.core ∧ b.1.core.listener = none)
    (fun {front rest cards b s s' b'} hJ hs => ?_) []
    ⟨hopen, hempty ▸ wired_empty _, by rw [hempty]; rfl⟩ hl
  · exact ⟨hprovider, hloaded.2.1, fun key hkey => (hloaded.1.registered key).mp hkey⟩
  · refine ⟨(Mixer.registers_load hJ.1 hs).1, ?_⟩
    obtain ⟨controls, -, rfl, -, hann⟩ := Session.load_eq_ok hs
    refine Session.announce_rule
      (J := fun _ (b : Board ε π) => Wired Basic b.1.core ∧ b.1.core.listener = none)
      (fun {told c b b'} hJ ha => ?_) [] hJ.2 hann
    have ha : controlAdded (provider initial) _ s.line
      (reference front.length { s with controls } c) b = _ := ha
    have hlistener := Mixer.controlAdded_listener (provider initial) (s.line.listen cards true) s.line
      (reference front.length { s with controls } c) b
    have hwired := controlAdded_wired (s.line.listen cards true) s.line
      (reference front.length { s with controls } c) stable_basic initial hJ.1
    rw [ha] at hlistener hwired
    refine ⟨hwired.resolve_right ?_, hlistener.trans hJ.2⟩
    rintro ⟨err, herr, -⟩
    cases herr

/-! ## What the application changes -/

/-- An edit that keeps an element and its bindings is nothing to the rest. -/
theorem edit_rewired {Q : Element ε → Prop} {m m' : Mixer ε π} {id : ElementId}
    {f : Element ε → Element ε} (h : Wired Q m.core) (hm : m.edit? id f = some m')
    (hf : ∀ e ∈ m.elements, e.id = id →
      Q (Stage.revise f e) ∧ (Stage.revise f e).bindings = e.bindings) :
    m'.provider = m.provider ∧ m'.sessions = m.sessions ∧
      Rewired Q [id] (fun l => l) m.core m'.core := by
  obtain ⟨i, hi, rfl⟩ := Mixer.edit?_eq_some hm
  exact ⟨rfl, rfl, rewired_update h.toTended hf hi⟩

/-- The choice of a volume range puts it into the wiring. -/
theorem setRange_eq_ok {e : Element ε} {dir : Direction} {range : Span} {settings : Settings}
    (he : e.ops = Wiring.ops) (hs : e.ops.setRange e.toElementView dir range = .ok settings) :
    ∃ w, e.wiring = some w ∧
      settings = { e.toSettings with wiring := some { w with ranges := w.ranges.insert dir range } } := by
  rw [he] at hs
  simp only [Wiring.ops, Wiring.ofView] at hs
  rcases hw : e.wiring with _ | w
  · rw [hw] at hs
    cases hs
  · simp only [hw, bind, Except.bind] at hs
    split at hs
    · cases hs
    · exact ⟨w, rfl, (Except.ok.inj hs).symm⟩

/-- The choice of a volume range keeps the bindings. -/
theorem bindings_setRange {e : Element ε} {dir : Direction} {range : Span} {settings : Settings}
    (he : e.ops = Wiring.ops) (hs : e.ops.setRange e.toElementView dir range = .ok settings) :
    ∃ w ranges, e.wiring = some w ∧
      settings = { e.toSettings with wiring := some { w with ranges } } := by
  obtain ⟨w, hw, hsettings⟩ := setRange_eq_ok he hs
  exact ⟨w, _, hw, hsettings⟩

/-! ## Runs -/

/-- **Every element is linked**: its bindings and its attachments name the same controls, there is one, and
each is cached in its slot. -/
def Linked (m : Mixer ε π) : Prop := ∀ e ∈ m.elements,
  (∀ key, key ∈ e.bindings.map Binding.key ↔ key ∈ m.core.attachments.controlsOf e.id) ∧
  m.core.attachments.controlsOf e.id ≠ [] ∧
  ∀ b ∈ e.bindings, ∃ s, m.sessions[b.key.slot]? = some s ∧
    ∃ c ∈ s.controls.elems, c.id.numid = b.key.numid

/-- **What agrees is linked**, every element to at least one cached control. -/
theorem Attached.toLinked {m : Mixer ε π} (h : Attached m.sessions m.core) : Linked m := by
  intro e he
  have hbindings := Core.bindings_of_mem h.wired.sound.nodup_ids he
  have hkeys := h.wired.keys e.id
  rw [hbindings] at hkeys
  refine ⟨hkeys, ?_, ?_⟩
  · intro hnone
    have hbound := h.wired.bound e.id (Core.mem_ids.mpr ⟨e, he, rfl⟩)
    rw [hbindings] at hbound
    obtain ⟨b, hb⟩ := List.exists_mem_of_ne_nil _ hbound
    have hkey := (hkeys b.key).mp (List.mem_map_of_mem hb)
    rw [hnone] at hkey
    exact List.not_mem_nil hkey
  · intro b hb
    have hkey := (hkeys b.key).mp (List.mem_map_of_mem hb)
    have hmem := (h.wired.sound.coherent.mem_iff b.key e.id).mpr hkey
    obtain ⟨s, hs, hn⟩ := h.cached b.key (Attachments.isRegistered_of_mem hmem)
    exact ⟨s, hs, List.mem_map.mp hn⟩

/-- An orphan is not linked. -/
theorem Orphaned.not_linked {m : Mixer ε π} {id : ElementId} (h : Orphaned m.core id) :
    ¬ Linked m := by
  intro hlinked
  obtain ⟨e, he, rfl⟩ := Core.mem_ids.mp h.there
  exact (hlinked e he).2.1 h.alone

/-- **The runs of a mixer** of the provider by names, up to a round that ends with a refusal of a new element.
Reads, fetches and the listeners of elements may fail at any time. -/
inductive Run (initial : π) : Mixer ε π → World ε → Prop where
  | opened {request d w m w'} (h : connect (provider initial) request d w = (.ok m, w')) :
      Run initial m w'
  /-- Events are handled, with or without a failure. -/
  | handled {m w} (h : Run initial m w) (hr : ∀ e, ¬ m.Refuses w e) :
      Run initial (m.handleEvents w).2.1 (m.handleEvents w).2.2
  | reordered {m w compare m'} (h : Run initial m w) (hc : Element.Lawful compare)
      (hm : m.setCompare compare = .ok m') : Run initial m' w
  /-- The application edits an element; what it is made of belongs to the provider. -/
  | edited {m w id f m'} (h : Run initial m w) (hf : ∀ e : Element ε, (f e).wiring = e.wiring)
      (hm : m.edit? id f = some m') : Run initial m' w
  | ranged {m w id dir range m'} (h : Run initial m w)
      (hm : m.setVolumeRange id dir range = .ok m') : Run initial m' w
  /-- The application replaces what it keeps at the mixer. -/
  | watched {m w} (h : Run initial m w) (listener : Option (MixerListener ε)) (note : Option Int64) :
      Run initial { m with core := { m.core with listener, note } } w
  /-- The cards and the application do anything; an operation on an element acts here alone. -/
  | elsewhere {m w} (h : Run initial m w) (w' : World ε) : Run initial m w'

/-- **Every event keeps what is attached**, and one that breaks it was refused by the listener of the mixer. -/
theorem upkeep_attached (initial : π) (listener : Option (MixerListener ε)) :
    Mixer.Upkeep (provider initial) (fun _ _ _ => True)
      (fun _ sessions b => Attached sessions b.1.core ∧ b.1.core.listener = listener)
      (fun e _ sessions b => Attached sessions b.1.core ∨ Refused listener e b.1) where
  quiet hJ _ _ := hJ
  broken hJ _ _ := .inl hJ.1
  event hJ hs _ _ := hJ.2 ▸ hJ.1.apply _ initial hs

/-- **A round keeps everything attached**, or the listener of the mixer refuses an element. -/
theorem Attached.handleEvents {initial : π} {m : Mixer ε π} (hp : m.provider = provider initial)
    (h : Attached m.sessions m.core) (w : World ε) :
    Attached (m.handleEvents w).2.1.sessions (m.handleEvents w).2.1.core ∨
      ∃ e, m.Refuses w e ∧ Orphaned (m.handleEvents w).2.1.core e.id := by
  have hround := Mixer.handleEvents_rule (m := m) (w := w)
    (hp ▸ upkeep_attached initial m.core.listener) (fun _ _ => trivial) ⟨h, rfl⟩
  rw [Leaves] at hround
  split at hround
  · exact .inl hround.1
  · rename_i err herr
    rcases hround with hattached | ⟨hear, e, before, hl, hhear, horphan⟩
    · exact .inl hattached
    · exact .inr ⟨e, ⟨err, hear, before, herr, hl, hhear⟩, horphan⟩

/-- Rewiring elements keeps what is attached, as long as no binding moves to another control. -/
theorem Attached.rewired {f : List Binding → List Binding} {done : List ElementId} {c c' : Core ε}
    (h : Attached sessions c) (hr : Rewired Basic done f c c')
    (hf : ∀ l, (f l).map Binding.key = l.map Binding.key) : Attached sessions c' where
  wired := h.wired.rewired hr hf
  cached key hkey := h.cached key (by rwa [← hr.attachments])

/-- What is attached is a matter of the elements and the links alone. -/
theorem Attached.congr {c c' : Core ε} (h : Attached sessions c) (he : c'.elems = c.elems)
    (ha : c'.attachments = c.attachments) : Attached sessions c' where
  wired := h.wired.congr he ha
  cached key hkey := h.cached key (by rwa [← ha])

/-- Another order of the elements is nothing to their bindings. -/
theorem Wired.setCompare {Q : Element ε → Prop} {c : Core ε}
    {compare : Element ε → Element ε → Ordering} {elems : SortedIndex (Element ε)} (h : Wired Q c)
    (hc : Element.Lawful compare) (hs : c.elems.setCompare compare = .ok elems) :
    Wired Q { c with elems } := by
  have := hc.trans
  have hsound := h.sound.setCompare hc hs
  obtain ⟨rfl, hp, -⟩ := SortedIndex.setCompare_cases hs
  have hbindings : ∀ id, Core.bindings { c with elems } id = c.bindings id := fun id => by
    rw [Core.bindings, Core.element?_congr h.sound.nodup_ids hsound.nodup_ids fun e => hp.mem_iff]
    rfl
  have hids : (Core.ids { c with elems }).Perm c.ids := hp.map _
  refine ⟨⟨hsound, fun e he => h.all e (hp.mem_iff.mp he)⟩, ?_, ?_⟩
  · intro id key
    rw [hbindings]
    exact h.keys id key
  · intro id hid
    rw [hbindings]
    exact h.bound id (hids.mem_iff.mp hid)

/-- **Every run leaves everything attached**, by the provider that it began with. -/
theorem Run.attached {initial : π} {m : Mixer ε π} {w : World ε} (h : Run initial m w) :
    m.provider = provider initial ∧ Attached m.sessions m.core := by
  induction h with
  | opened h => exact attached_connect h
  | @handled m w _ hr ih =>
    refine ⟨ih.1, (ih.2.handleEvents ih.1 w).resolve_right ?_⟩
    rintro ⟨e, hrefuses, -⟩
    exact hr e hrefuses
  | reordered _ hc hm ih =>
    obtain ⟨elems, hs, rfl⟩ := Mixer.setCompare_eq_ok hm
    exact ⟨ih.1, ih.2.wired.setCompare hc hs, ih.2.cached⟩
  | @edited m w id f m' _ hf hm ih =>
    obtain ⟨hp, hs, hrewired⟩ := edit_rewired ih.2.wired hm fun e he _ => by
      have hwiring : (Stage.revise f e).wiring = e.wiring := hf e
      have hbasic := ih.2.wired.all e he
      exact ⟨⟨hbasic.1, hwiring ▸ hbasic.2⟩, by rw [Element.bindings, hwiring, Element.bindings]⟩
    exact ⟨hp.trans ih.1, hs ▸ ih.2.rewired hrewired fun _ => rfl⟩
  | @ranged m w id dir range m' _ hm ih =>
    obtain ⟨e, settings, he, hset, hm⟩ := Mixer.setVolumeRange_eq_ok hm
    obtain ⟨hmem, hid⟩ := Core.element?_eq_some he
    obtain ⟨v, ranges, hv, rfl⟩ := bindings_setRange (ih.2.wired.all e hmem).1 hset
    obtain ⟨hp, hs, hrewired⟩ := edit_rewired ih.2.wired hm fun a ha haid => by
      obtain rfl := Core.eq_of_id_eq ih.2.wired.sound.nodup_ids ha hmem (haid.trans hid.symm)
      exact ⟨⟨(ih.2.wired.all a ha).1, _, rfl⟩, by rw [Element.bindings, Element.bindings, hv]; rfl⟩
    exact ⟨hp.trans ih.1, hs ▸ ih.2.rewired hrewired fun _ => rfl⟩
  | watched _ listener note ih => exact ⟨ih.1, ih.2.congr rfl rfl⟩
  | elsewhere _ w' ih => exact ih

/-- **Bindings and attachments agree** in every run, for every element and with the caches; a round parts them
exactly if it ends with a refusal of a new element by the listener of the mixer, which leaves that
element with a binding and without a control. -/
theorem Run.linked {initial : π} {m : Mixer ε π} {w : World ε} (h : Run initial m w) :
    Linked m ∧ (¬ Linked (m.handleEvents w).2.1 ↔
      ∃ e, m.Refuses w e ∧ Orphaned (m.handleEvents w).2.1.core e.id) := by
  obtain ⟨hp, hattached⟩ := h.attached
  refine ⟨hattached.toLinked, fun hn => ?_, fun ⟨e, _, horphan⟩ => horphan.not_linked⟩
  exact (hattached.handleEvents hp w).resolve_left fun hafter => hn hafter.toLinked

/-- A run that binds the one control of a card and chooses the volume range of its element. -/
theorem Run.linked_ranged : ∃ (m : Mixer Unit Unit) (w : World Unit), Run () m w ∧
    m.core.attachments.isAttached ⟨0, 1⟩ ⟨"Master", 0⟩ = true ∧ Linked m := by
  have hopen : Run () _ _ := .opened
    (show connect (provider ()) ⟨"desk", .none⟩ Mixer.overCard ⟨Mixer.oneCard, ()⟩ = (.ok _, _) from rfl)
  have hranged := hopen.ranged
    (show Mixer.setVolumeRange _ ⟨"Master", 0⟩ .playback ⟨0, 100⟩ = .ok _ from rfl)
  exact ⟨_, _, hranged, by decide +kernel, hranged.linked.1⟩

/-- **An orphan comes about and stays**: the listener refuses the element of a control that was plugged in, and
when the control is gone again the element still has its binding. -/
theorem Run.orphaned : ∃ (m : Mixer Unit Unit) (w : World Unit), Run () m w ∧
    (m.handleEvents w).1 = .error (.invalid "no") ∧ ¬ Linked (m.handleEvents w).2.1 ∧
    let m' := (m.handleEvents w).2.1
    let w' : World Unit :=
      ⟨(m.handleEvents w).2.2.cards.update 0 fun c => (c.removeControl 2).2, ()⟩
    (m'.handleEvents w').1 = .ok 1 ∧ ¬ Linked (m'.handleEvents w').2.1 := by
  have hopen : Run () _ _ := .opened
    (show connect (provider ()) ⟨"desk", .none⟩ Mixer.overCard ⟨Mixer.oneCard, ()⟩ = (.ok _, _) from rfl)
  have hplug : ∀ {m : Mixer Unit Unit} {w}, Run () m w → Run () m ⟨w.cards.update 0
      (·.addControl (.mixer 2 "PCM Playback Volume" 0) (.integer 2 0 10)), w.app⟩ :=
    fun h => h.elsewhere _
  have hrun := hplug (hopen.watched (some fun _ app => (.error (.invalid "no"), app)) none)
  have horphan : ∀ {m : Mixer Unit Unit}, (⟨"PCM", 0⟩ : ElementId) ∈ m.core.ids ∧
      m.core.bindings ⟨"PCM", 0⟩ ≠ [] ∧ m.core.attachments.controlsOf ⟨"PCM", 0⟩ = [] → ¬ Linked m :=
    fun ⟨hthere, hbound, halone⟩ => Orphaned.not_linked ⟨hthere, hbound, halone⟩
  exact ⟨_, _, hrun, by decide +kernel, horphan (by decide +kernel), by decide +kernel,
    horphan (by decide +kernel)⟩

end ByName

end SoundDesk
