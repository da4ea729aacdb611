import SoundDesk.Proofs.Fanout
import SoundDesk.Proofs.Lines
import SoundDesk.Proofs.Loading
import SoundDesk.Proofs.Requests
import SoundDesk.Provider.ByName

/-!
# Proofs/Registered — a control is registered exactly as long as its session caches it

    cache of the session  ──added / removed──▸  registered controls  ──attach──▸  elements

The cache and the registration change at different moments of one event, and what a provider does in
between is any program.  No command registers or forgets a control (`Core.Step.isRegistered`), so
the two fall together again when the event is over, whatever failed on the way (`Aligned`).
-/

namespace SoundDesk

variable {ε π : Type}

namespace Session

/-- The numbers of the cached controls. -/
def numids (s : Session ε) : List Nat := s.controls.elems.map (·.id.numid)

theorem numids_without {s : Session ε} {i : Nat} {c : CachedControl ε} (hs : s.numids.Nodup)
    (hi : s.controls.elems[i]? = some c) :
    (s.without i).numids = s.numids.filter (· ≠ c.id.numid) := by
  rw [numids, without, eraseIdx_eq_filter_key hs hi, numids, List.filter_map]
  rfl

/-- Every other number stays. -/
theorem mem_numids_without {s : Session ε} {i n : Nat} {c : CachedControl ε}
    (hi : s.controls.elems[i]? = some c) (hne : c.id.numid ≠ n) :
    n ∈ (s.without i).numids ↔ n ∈ s.numids := by
  refine ⟨fun hn => ((List.eraseIdx_sublist ..).map _).subset hn, fun hn => ?_⟩
  obtain ⟨a, ha, rfl⟩ := List.mem_map.mp hn
  obtain ⟨j, hj⟩ := List.mem_iff_getElem?.mp ha
  refine List.mem_map.mpr ⟨a, List.mem_eraseIdx_iff_getElem?.mpr ⟨j, fun hji => hne ?_, hj⟩, rfl⟩
  rw [hji, hi] at hj
  rw [Option.some.inj hj]

/-- A record that is put in adds its number. -/
theorem numids_insert {s : Session ε} {id : ControlId} {i : Nat}
    {controls : SortedIndex (CachedControl ε)} (hi : s.controls.insert (.ofId id) = .ok (i, controls)) :
    (numids { s with controls }).Perm (id.numid :: s.numids) :=
  (SortedIndex.insert_perm hi).2.map _

end Session

namespace Mixer

variable {p : Provider ε π} {cards : Cards} {line : Line} {ctl : ControlRef} {b : Board ε π}

/-! ## Registration alone -/

/-- A sound core in which exactly these controls are registered. -/
structure Registers (R : ControlKey → Prop) (c : Core ε) : Prop where
  sound : c.Sound
  registered : ∀ key, c.attachments.isRegistered key = true ↔ R key

variable {R : ControlKey → Prop}

theorem Registers.congr {R' : ControlKey → Prop} {c : Core ε} (h : Registers R c)
    (hR : ∀ key, R key ↔ R' key) : Registers R' c :=
  ⟨h.sound, fun key => (h.registered key).trans (hR key)⟩

/-- No command changes what is registered. -/
theorem Registers.perform (cmd : CoreCommand ε) (st : Stage ε) (h : Registers R st.core) :
    Registers R (cmd.perform st).2.core :=
  ⟨(cmd.perform_step st).sound h.sound, fun key => by
    rw [(cmd.perform_step st).isRegistered, h.registered]⟩

theorem callProvider_registers (mask : EventMask) (id : Option ElementId) (h : Registers R b.1.core) :
    Registers R (callProvider p cards line ctl mask id b).2.1.core :=
  callProvider_keeps (I := fun st => Registers R st.core) (fun c st => Registers.perform c st) mask id h

/-- A control that comes is registered, whatever the provider answers. -/
theorem controlAdded_registers (h : Registers R b.1.core) :
    Registers (fun key => ctl.key = key ∨ R key) (controlAdded p cards line ctl b).2.1.core := by
  refine callProvider_registers .add none ⟨h.sound.register, fun key => ?_⟩
  simp only [Attachments.isRegistered_register, Bool.or_eq_true, decide_eq_true_eq, h.registered]

theorem controlChanged_registers {mask : EventMask} (h : Registers R b.1.core) :
    Registers R (controlChanged p cards line ctl mask b).2.1.core :=
  controlChanged_rule (I := fun b => Registers R b.1.core)
    (fun id _ _ h => callProvider_registers mask (some id) h) h

/-- A control that goes is forgotten, whatever the provider answers. -/
theorem controlRemoved_registers (h : Registers R b.1.core) :
    Registers (fun key => ctl.key ≠ key ∧ R key) (controlRemoved p cards line ctl b).2.1.core := by
  refine controlRemoved_rule (I := fun b => Registers R b.1.core)
    (K := fun b => Registers (fun key => ctl.key ≠ key ∧ R key) b.1.core)
    (fun id _ _ h => callProvider_registers .remove (some id) h) (fun b h => ?_)
    (fun id b _ h => h.perform (.remove id) b.1) h
  refine ⟨h.sound.discard, fun key => ?_⟩
  simp only [discard, Attachments.isRegistered_discard, Bool.and_eq_true, decide_eq_true_eq,
    h.registered]

/-! ## Registration and caches -/

/-- The session in the slot of a key caches a control with its number. -/
def Caches (sessions : List (Session ε)) (key : ControlKey) : Prop :=
  ∃ s, sessions[key.slot]? = some s ∧ key.numid ∈ s.numids

variable {sessions : List (Session ε)} {slot : Nat} {s s' : Session ε}

/-- What one session caches is nothing to the other slots. -/
theorem caches_set (hs : sessions[slot]? = some s) (key : ControlKey) :
    Caches (sessions.set slot s') key ↔
      if slot = key.slot then key.numid ∈ s'.numids else Caches sessions key := by
  obtain ⟨hlt, -⟩ := List.getElem?_eq_some_iff.mp hs
  simp only [Caches, List.getElem?_set, hlt, if_true]
  split <;> simp

/-- **Registration agrees with the caches**, and no cache holds a number twice. -/
structure Aligned (sessions : List (Session ε)) (c : Core ε) : Prop where
  registers : Registers (Caches sessions) c
  numids : ∀ s ∈ sessions, s.numids.Nodup

theorem caches_iff (hs : sessions[slot]? = some s) {n : Nat} :
    Caches sessions ⟨slot, n⟩ ↔ n ∈ s.numids :=
  ⟨fun ⟨_, ht, h⟩ => Option.some.inj (hs.symm.trans ht) ▸ h, fun h => ⟨s, hs, h⟩⟩

/-- An insertion caches one key more. -/
theorem caches_insert {id : ControlId} {i : Nat} {controls : SortedIndex (CachedControl ε)}
    (hs : sessions[slot]? = some s) (hi : s.controls.insert (.ofId id) = .ok (i, controls))
    (key : ControlKey) : Caches (sessions.set slot { s with controls }) key ↔
      ⟨slot, id.numid⟩ = key ∨ Caches sessions key := by
  obtain ⟨slot', n⟩ := key
  rw [caches_set hs, (Session.numids_insert hi).mem_iff, List.mem_cons]
  by_cases hslot : slot = slot'
  · subst hslot
    rw [if_pos rfl, caches_iff hs]
    simp [eq_comm (a := n)]
  · simp [hslot]

/-- What leaves a cache leaves every other key cached. -/
theorem caches_without {i : Nat} {c : CachedControl ε} (hs : sessions[slot]? = some s)
    (hi : s.controls.elems[i]? = some c) {key : ControlKey} (hne : ⟨slot, c.id.numid⟩ ≠ key) :
    Caches (sessions.set slot (s.without i)) key ↔ Caches sessions key := by
  obtain ⟨slot', n⟩ := key
  rw [caches_set hs]
  split
  · rename_i hslot
    obtain rfl : slot = slot' := hslot
    have hn : c.id.numid ≠ n := fun hn => hne (by rw [hn])
    rw [Session.mem_numids_without hi hn, caches_iff hs]
  · rfl

theorem nodup_set (h : ∀ t ∈ sessions, t.numids.Nodup) (hs : s.numids.Nodup) :
    ∀ t ∈ sessions.set slot s, t.numids.Nodup := by
  intro t ht
  rcases List.mem_or_eq_of_mem_set ht with ht | rfl
  · exact h t ht
  · exact hs

/-- A control leaves its cache and is forgotten. -/
theorem Aligned.removed {i : Nat} {c : CachedControl ε} (h : Aligned sessions b.1.core)
    (hs : sessions[slot]? = some s) (hi : s.controls.elems[i]? = some c) :
    Aligned (sessions.set slot (s.without i))
      (controlRemoved p cards line (reference slot s c) b).2.1.core := by
  have hwithout := Session.numids_without (h.numids s (List.mem_of_getElem? hs)) hi
  refine ⟨(controlRemoved_registers h.registers).congr ?_, nodup_set h.numids ?_⟩
  · intro key
    change (⟨slot, c.id.numid⟩ : ControlKey) ≠ key ∧ Caches sessions key ↔ _
    rcases eq_or_ne ⟨slot, c.id.numid⟩ key with rfl | hne
    · rw [caches_set hs, if_pos rfl, hwithout]
      simp
    · rw [caches_without hs hi hne, and_iff_right hne]
  · rw [hwithout]
    exact (h.numids s (List.mem_of_getElem? hs)).filter _

/-- A control enters its cache and is registered. -/
theorem Aligned.added {id : ControlId} {i : Nat} {controls : SortedIndex (CachedControl ε)}
    (h : Aligned sessions b.1.core) (hs : sessions[slot]? = some s) (hid : id.numid ∉ s.numids)
    (hi : s.controls.insert (.ofId id) = .ok (i, controls)) :
    Aligned (sessions.set slot { s with controls })
      (controlAdded p cards line (reference slot { s with controls } (.ofId id)) b).2.1.core where
  registers := (controlAdded_registers h.registers).congr fun key => (caches_insert hs hi key).symm
  numids := nodup_set h.numids ((Session.numids_insert hi).nodup_iff.mpr
    (List.nodup_cons.mpr ⟨hid, h.numids s (List.mem_of_getElem? hs)⟩))

/-- **One event keeps registration and caches together**, if it adds no number that is cached. -/
theorem Aligned.apply {event : ControlEvent} (h : Aligned sessions b.1.core)
    (hs : sessions[slot]? = some s) (hnew : event.mask.isAdd = true → event.id.numid ∉ s.numids) :
    Aligned (sessions.set slot (s.apply (fanout p slot) cards event b).2.1)
      (s.apply (fanout p slot) cards event b).2.2.1.core := by
  have hset : Aligned (sessions.set slot s) b.1.core := by
    obtain ⟨hlt, rfl⟩ := List.getElem?_eq_some_iff.mp hs
    rwa [List.set_getElem_self]
  refine leaves_const.mp (Session.apply_rule
    (J := fun t (b : Board ε π) => Aligned (sessions.set slot t) b.1.core)
    (E := fun _ t (b : Board ε π) => Aligned (sessions.set slot t) b.1.core)
    (fun hJ _ => hJ) (fun _ _ => hset) (fun {i c} _ hf => leaves_const.mpr ?_)
    (fun {i controls} ha hi => leaves_const.mpr (h.added hs (hnew ha) hi))
    (fun {t b' i c} _ hJ _ => leaves_const.mpr ?_) hset)
  · exact h.removed hs (Session.search?_eq_some hf).2
  · simp only [fanout, EventMask.isRemove_changes]
    split
    · rename_i hr; cases hr
    · split
      · exact ⟨controlChanged_registers hJ.registers, hJ.numids⟩
      · exact hJ

/-! ## The opening -/

theorem caches_append (front : List (Session ε)) (s : Session ε) (key : ControlKey) :
    Caches (front ++ [s]) key ↔
      Caches front key ∨ key.slot = front.length ∧ key.numid ∈ s.numids := by
  rcases Nat.lt_trichotomy key.slot front.length with hlt | heq | hgt
  · simp only [Caches, List.getElem?_append_left hlt, Nat.ne_of_lt hlt, false_and, or_false]
  · simp [Caches, heq]
  · have hnone : ∀ l : List (Session ε), l.length ≤ front.length + 1 → l[key.slot]? = none :=
      fun l hl => List.getElem?_eq_none (Nat.le_trans hl hgt)
    simp [Caches, hnone front (Nat.le_succ _), hnone (front ++ [s]) (by simp), Nat.ne_of_gt hgt]

/-- No program of a provider registers a control, or opens a session that is loaded. -/
theorem registers_opening (p : Provider ε π) (request : OpenRequest) (d : MixerDefinition)
    (w : World ε) : Registers (fun _ => False) (opening p request d w).2.stage.core := by
  rw [opening]
  refine Program.run_induction (I := fun o : Opening ε => Registers (fun _ => False) o.stage.core)
    (?_) (p.connect request d p.initial) ⟨Core.sound_empty, ?_⟩
  · intro c o h
    cases c with
    | core c => exact h.perform c o.stage
    | connect endpoint =>
      simp only [OpenCommand.perform]
      split
      · exact h
      · split <;> exact h
    | taken => exact h
  · intro key
    simp [Core.empty, Attachments.empty, Attachments.isRegistered]

/-- What is registered while a session is announced: the caches of the sessions before it, and the controls
of its own that were told. -/
def CachesSoFar (front : List (Session ε)) (told : List (CachedControl ε)) (key : ControlKey) : Prop :=
  Caches front key ∨ key.slot = front.length ∧ ∃ c ∈ told, c.id.numid = key.numid

/-- One control more is told. -/
theorem Registers.told {front : List (Session ε)} {told : List (CachedControl ε)}
    {c : CachedControl ε} (h : Registers (CachesSoFar front told) b.1.core) :
    Registers (CachesSoFar front (told ++ [c]))
      (controlAdded p cards line (reference front.length s c) b).2.1.core := by
  refine (controlAdded_registers h).congr fun ⟨slot, n⟩ => ?_
  simp only [CachesSoFar, ControlRef.key, reference, ControlKey.mk.injEq, List.mem_append,
    List.mem_singleton]
  grind

theorem Registers.told_nil {front : List (Session ε)} {c : Core ε} (h : Registers (Caches front) c) :
    Registers (CachesSoFar front []) c := h.congr fun key => by simp [CachesSoFar]

theorem Registers.told_all {front : List (Session ε)} {c : Core ε}
    (h : Registers (CachesSoFar front s.controls.elems) c) : Registers (Caches (front ++ [s])) c :=
  h.congr fun key => by simp only [CachesSoFar, caches_append, Session.numids, List.mem_map]

/-- **A load registers what it caches**, control by control. -/
theorem registers_load {front : List (Session ε)} {b' : Board ε π}
    (h : Registers (Caches front) b.1.core)
    (hl : s.load (fanout p front.length) cards b = (.ok (), s', b')) :
    Registers (Caches (front ++ [s'])) b'.1.core ∧
      s'.line = s.line ∧ s'.numids.Perm ((s.line.listing cards).map ControlId.numid) := by
  obtain ⟨controls, hempty, rfl, hfill, hann⟩ := Session.load_eq_ok hl
  refine ⟨?_, rfl, ?_⟩
  · refine Registers.told_all (s := { s with controls }) (Session.announce_rule
      (J := fun told (b : Board ε π) => Registers (CachesSoFar front told) b.1.core)
      (fun {told c b b'} hJ ha => ?_) [] h.told_nil hann)
    change controlAdded p cards s.line (reference front.length { s with controls } c) b = _ at ha
    have hadded : Registers _ (controlAdded p cards s.line
        (reference front.length { s with controls } c) b).2.1.core := hJ.told
    rwa [ha] at hadded
  · have hmap := (Session.ids_fill hempty hfill).map ControlId.numid
    rwa [Session.ids, List.map_map] at hmap

/-- **An opening aligns registration and caches**, if no listing holds a number twice. -/
theorem aligned_connect {request : OpenRequest} {d : MixerDefinition} {w w' : World ε}
    {m : Mixer ε π} (h : connect p request d w = (.ok m, w'))
    (hlist : ∀ s ∈ m.sessions, ((s.line.listing w'.cards).map ControlId.numid).Nodup) :
    Aligned m.sessions m.core := by
  obtain ⟨-, -, hl⟩ := connect_eq_ok h
  have hopen : Registers (Caches ([] : List (Session ε))) (opening p request d w).2.stage.core :=
    (registers_opening p request d w).congr fun key => by simp [Caches]
  have hloaded := loadSessions_rule
    (J := fun front _ cards (b : Board ε π) => Registers (Caches front) b.1.core ∧
      ∀ s ∈ front, s.numids.Perm ((s.line.listing cards).map ControlId.numid))
    (fun {front rest cards b s s' b'} hJ hs => ?_) [] ⟨hopen, by simp⟩ hl
  · exact ⟨hloaded.1, fun s hs => (hloaded.2 s hs).nodup_iff.mpr (hlist s hs)⟩
  · obtain ⟨hreg, hline, hperm⟩ := registers_load hJ.1 hs
    refine ⟨hreg, fun t ht => ?_⟩
    rw [Line.listing_listen]
    rcases List.mem_append.mp ht with ht | ht
    · exact hJ.2 t ht
    · obtain rfl := List.mem_singleton.mp ht
      rwa [hline, ← Line.listing_listen]

/-! ## Runs -/

/-- **The runs of an open mixer** with a provider of which nothing is assumed.  No listing that a
session is loaded from holds a number twice, and no addition brings a number that the session caches. -/
inductive Run (p : Provider ε π) : Mixer ε π → World ε → Prop where
  | opened {request d w m w'} (h : connect p request d w = (.ok m, w'))
      (hlist : ∀ s ∈ m.sessions, ((s.line.listing w'.cards).map ControlId.numid).Nodup) : Run p m w'
  /-- Events are handled, with or without a failure. -/
  | handled {m w} (h : Run p m w)
      (hnew : ∀ q ∈ m.applied w, q.2.2.mask.isAdd = true → q.2.2.id.numid ∉ q.2.1.numids) :
      Run p (m.handleEvents w).2.1 (m.handleEvents w).2.2
  | reordered {m w compare m'} (h : Run p m w) (hc : Element.Lawful compare)
      (hm : m.setCompare compare = .ok m') : Run p m' w
  | edited {m w id f m'} (h : Run p m w) (hm : m.edit? id f = some m') : Run p m' w
  | ranged {m w id dir range m'} (h : Run p m w) (hm : m.setVolumeRange id dir range = .ok m') :
      Run p m' w
  /-- The application replaces what it keeps at the mixer. -/
  | watched {m w} (h : Run p m w) (listener : Option (MixerListener ε)) (note : Option Int64) :
      Run p { m with core := { m.core with listener, note } } w
  /-- The cards and the application do anything; an operation on an element acts here alone. -/
  | elsewhere {m w} (h : Run p m w) (w' : World ε) : Run p m w'

/-- **Every event keeps links and caches aligned**, whatever the provider answers. -/
theorem upkeep_aligned (p : Provider ε π) :
    Upkeep p (fun _ s event => event.mask.isAdd = true → event.id.numid ∉ s.numids)
      (fun _ sessions b => Aligned sessions b.1.core) (fun _ _ sessions b => Aligned sessions b.1.core)
    where
  quiet hJ _ _ := hJ
  broken hJ _ _ := hJ
  event hJ hs _ hP := leaves_const.mpr (hJ.apply hs hP)

theorem Aligned.congr {c c' : Core ε} (h : Aligned sessions c) (hs : c'.Sound)
    (ha : c'.attachments = c.attachments) : Aligned sessions c' :=
  ⟨⟨hs, fun key => ha ▸ h.registers.registered key⟩, h.numids⟩

theorem Aligned.edit? {m m' : Mixer ε π} {id : ElementId} {f : Element ε → Element ε}
    (h : Aligned m.sessions m.core) (hm : m.edit? id f = some m') :
    m'.provider = m.provider ∧ Aligned m'.sessions m'.core := by
  obtain ⟨i, -, rfl⟩ := edit?_eq_some hm
  exact ⟨rfl, h.congr (h.registers.sound.update f) rfl⟩

/-- **Registration agrees with the caches in every run.** -/
theorem Run.aligned {p : Provider ε π} {m : Mixer ε π} {w : World ε} (h : Run p m w) :
    m.provider = p ∧ Aligned m.sessions m.core := by
  induction h with
  | opened h hlist => exact ⟨(connect_eq_ok h).1, aligned_connect h hlist⟩
  | @handled m w _ hnew ih =>
    obtain ⟨rfl, ih⟩ := ih
    exact ⟨rfl, leaves_const.mp (handleEvents_rule (upkeep_aligned m.provider) hnew ih)⟩
  | reordered _ hc hm ih =>
    obtain ⟨elems, hs, rfl⟩ := setCompare_eq_ok hm
    exact ⟨ih.1, ih.2.congr (ih.2.registers.sound.setCompare hc hs) rfl⟩
  | edited _ hm ih => exact ⟨(ih.2.edit? hm).1.trans ih.1, (ih.2.edit? hm).2⟩
  | ranged _ hm ih =>
    obtain ⟨-, settings, -, -, hf⟩ := setVolumeRange_eq_ok hm
    exact ⟨(ih.2.edit? hf).1.trans ih.1, (ih.2.edit? hf).2⟩
  | watched _ listener note ih => exact ⟨ih.1, ih.2.congr (ih.2.registers.sound.congr rfl rfl) rfl⟩
  | elsewhere _ w' ih => exact ih

/-- **In every run** a key is registered exactly as long as the session in its slot caches a control with
its number; an attached pair has a registered key and an element that is there, and stands once on
each side; and the elements stand in strict order under distinct identities. -/
theorem Run.consistent {p : Provider ε π} {m : Mixer ε π} {w : World ε} (h : Run p m w) :
    (∀ slot n, m.core.attachments.isRegistered ⟨slot, n⟩ = true ↔
      ∃ s, m.sessions[slot]? = some s ∧ ∃ c ∈ s.controls.elems, c.id.numid = n) ∧
    (∀ key id, id ∈ m.core.attachments.elementsOf key ∨ key ∈ m.core.attachments.controlsOf id →
      m.core.attachments.isRegistered key = true ∧ (∃ e ∈ m.elements, e.id = id) ∧
      (m.core.attachments.elementsOf key).count id = 1 ∧
      (m.core.attachments.controlsOf id).count key = 1) ∧
    (m.elements.map (·.id)).Nodup ∧
    m.elements.Pairwise fun a b => m.core.elems.compare a b = .lt := by
  have hregisters := h.aligned.2.registers
  have hsound := hregisters.sound
  refine ⟨?_, ?_, hsound.nodup_ids, hsound.sorted⟩
  · intro slot n
    rw [hregisters.registered]
    simp only [Caches, Session.numids, List.mem_map]
  · intro key id hpair
    have hid : id ∈ m.core.attachments.elementsOf key :=
      hpair.elim (fun hid => hid) (hsound.coherent.mem_iff key id).mpr
    have hkey := (hsound.coherent.mem_iff key id).mp hid
    refine ⟨Attachments.isRegistered_of_mem hid, Core.mem_ids.mp (hsound.present key id hid), ?_, ?_⟩
    · exact List.count_eq_one_of_mem (hsound.coherent.nodup_elements key) hid
    · exact List.count_eq_one_of_mem (hsound.coherent.nodup_controls id) hkey

/-- A machine of one card with one control. -/
def oneCard : Cards :=
  .ofList [("card", [(.mixer 1 "Master Playback Volume" 0, .integer 2 0 10)])]

/-- The mixer over that card. -/
def overCard : MixerDefinition := (MixerDefinition.ofType "basic").withParam "device" (.string "card")

/-- A run that opens a mixer, plugs in a control and meets a listener that refuses its element. -/
theorem Run.consistent_refused : ∃ (m : Mixer Unit Unit) (w : World Unit),
    Run (ByName.provider ()) m w ∧ (m.handleEvents w).1 = .error (.invalid "no") ∧
    (m.handleEvents w).2.1.core.attachments.isAttached ⟨0, 1⟩ ⟨"Master", 0⟩ = true ∧
    ((m.handleEvents w).2.1.core.attachments.isRegistered ⟨0, 2⟩ = true ↔
      ∃ s, (m.handleEvents w).2.1.sessions[0]? = some s ∧
        ∃ c ∈ s.controls.elems, c.id.numid = 2) := by
  have hopen := Run.opened
    (show connect (ByName.provider ()) ⟨"desk", .none⟩ overCard ⟨oneCard, ()⟩ = (.ok _, _) from rfl)
    (by decide +kernel)
  have hplug : ∀ {m : Mixer Unit Unit} {w}, Run (ByName.provider ()) m w →
      Run (ByName.provider ()) m ⟨w.cards.update 0
        (·.addControl (.mixer 2 "PCM Playback Volume" 0) (.integer 2 0 10)), w.app⟩ :=
    fun h => h.elsewhere _
  have hrun := hplug (hopen.watched (some fun _ app => (.error (.invalid "no"), app)) none)
  refine ⟨_, _, hrun, by decide +kernel, by decide +kernel, ?_⟩
  exact (Run.consistent (hrun.handled (by decide +kernel))).1 0 2

end Mixer

end SoundDesk
