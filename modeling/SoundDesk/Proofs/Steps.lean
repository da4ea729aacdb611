import SoundDesk.Proofs.Bindings
import SoundDesk.Proofs.Fanout
import SoundDesk.Provider.ByName

/-!
# Proofs/Steps — what one step of the provider by names does to the elements

A step is a program that may fail (`ByName.exec`).  To bind a control appends a binding and attaches the
control, to unbind it takes its bindings away, to refresh it replaces what they know of it; each tells the
listener of the element afterwards.  One thing goes wrong: an element that the listener of the mixer refuses
stays where it is, and nothing is attached to it (`ByName.bindControl_cases`).
-/

namespace SoundDesk

variable {ε π α β : Type} {cards : Cards} {line : Line}

/-- The listener of the element refuses nothing. -/
def Element.Calm (e : Element ε) : Prop :=
  ∀ hear, e.listener = some hear → ∀ v app, (hear v app).1 = .ok ()

/-- A calm element refuses nothing. -/
theorem Element.Calm.tell {e : Element ε} (h : e.Calm) (mask : EventMask) (app : ε) :
    (e.tell mask app).1 = .ok () := by
  rw [Element.tell]
  split
  · rfl
  · rename_i hear hl
    exact h hear hl _ app

namespace ByName

/-! ## Running a step -/

/-- Run a step on a stage. -/
def exec (cards : Cards) (line : Line) (s : Step ε α) (st : Stage ε) : Except Error α × Stage ε :=
  Program.run (EventCommand.perform cards line) (ExceptT.run s) st

/-- **Steps run one after the other**, up to the first failure. -/
theorem exec_bind (s : Step ε α) (f : α → Step ε β) (st : Stage ε) :
    exec cards line (s >>= f) st =
      match exec cards line s st with
      | (.ok a, st) => exec cards line (f a) st
      | (.error e, st) => (.error e, st) := by
  have hrun := Program.run_bind (EventCommand.perform cards line) (ExceptT.run s)
    (fun r => ExceptT.bindCont f r) st
  refine hrun.trans ?_
  rw [exec]
  rcases Program.run (EventCommand.perform cards line) (ExceptT.run s) st with ⟨_ | a, st'⟩ <;> rfl

theorem exec_element? (id : ElementId) (st : Stage ε) :
    exec cards line (element? id) st = (.ok (st.core.element? id), st) := rfl

theorem exec_readInfo (id : ControlId) (st : Stage ε) :
    exec cards line (readInfo id : Step ε ControlInfo) st = (line.readInfo cards id, st) := rfl

theorem exec_attach (id : ElementId) (key : ControlKey) (st : Stage ε) :
    exec cards line (attempt (core (.attach id key))) st = st.attach id key := rfl

theorem exec_add (e : Element ε) (st : Stage ε) :
    exec cards line (attempt (core (.add e))) st = st.add e := rfl

theorem exec_notifyInfo (id : ElementId) (st : Stage ε) :
    exec cards line (attempt (core (.notifyInfo id))) st = st.notify id .info := rfl

theorem exec_notifyValue (id : ElementId) (st : Stage ε) :
    exec cards line (attempt (core (.notifyValue id))) st = st.notify id .value := rfl

/-- An update rewires the element under its own identifier. -/
theorem exec_update (e : Element ε) {w : Wiring} (hw : e.wiring = some w)
    (f : List Binding → List Binding) (st : Stage ε) :
    exec cards line (update e f) st = (.ok (f w.bindings).length, (st.edit e.id (rewire f)).2) := by
  rw [update, exec_bind]
  have hview : exec cards line (liftM (Wiring.ofView e.toElementView) : Step ε Wiring) st = (.ok w, st) := by
    rw [Wiring.ofView, hw]
    rfl
  rw [hview]
  rfl

/-! ## Changing the bindings of an element -/

/-- A property of elements that the provider keeps: its elements know what they are made of. -/
structure Stable (Q : Element ε → Prop) : Prop where
  wiring : ∀ {e}, Q e → ∃ w, e.wiring = some w
  rewire : ∀ {e} f, Q e → Q (Stage.revise (ByName.rewire f) e)
  new : ∀ id b, Q (.new id (Ranking.weight id.name) (settings (.single b)) Wiring.ops)

/-- Rewiring an element is what it says, on its bindings. -/
theorem bindings_rewire {e : Element ε} (hw : ∃ w, e.wiring = some w)
    (f : List Binding → List Binding) : (Stage.revise (rewire f) e).bindings = f e.bindings := by
  obtain ⟨w, hw⟩ := hw
  simp [Element.bindings, Stage.revise, rewire, hw, Element.withSettings, settings]

/-- A sound core whose elements all have a property. -/
structure Tended (Q : Element ε → Prop) (c : Core ε) : Prop where
  sound : c.Sound
  all : ∀ e ∈ c.elems.elems, Q e

/-- **Some elements are rewired**: nothing else changes. -/
structure Rewired (Q : Element ε → Prop) (done : List ElementId) (f : List Binding → List Binding)
    (c c' : Core ε) : Prop extends Tended Q c' where
  compare : c'.elems.compare = c.elems.compare
  listener : c'.listener = c.listener
  ids : c'.ids = c.ids
  attachments : c'.attachments = c.attachments
  bindings : ∀ j, c'.bindings j = if j ∈ done then f (c.bindings j) else c.bindings j

variable {Q : Element ε → Prop} {c : Core ε} {id : ElementId} {i : Nat}

/-- **One element is rewired**, and the others are what they were. -/
theorem rewired_update {g : Element ε → Element ε} {f : List Binding → List Binding} (h : Tended Q c)
    (hg : ∀ e ∈ c.elems.elems, e.id = id →
      Q (Stage.revise g e) ∧ (Stage.revise g e).bindings = f e.bindings)
    (hp : c.position? id = some i) :
    Rewired Q [id] f c { c with elems := c.elems.update i (Stage.revise g) } where
  sound := h.sound.update _
  all e he := by
    rw [SortedIndex.update, Core.modify_eq_map h.sound.nodup_ids hp] at he
    obtain ⟨b, hb, rfl⟩ := List.mem_map.mp he
    split
    · rename_i hid
      exact (hg b hb hid).1
    · exact h.all b hb
  compare := rfl
  listener := rfl
  ids := Core.ids_update _ i
  attachments := rfl
  bindings j := by
    rw [Core.bindings, Core.element?_update h.sound.nodup_ids hp]
    simp only [List.mem_singleton, eq_comm (a := j)]
    split
    · rename_i hj
      have hmem : j ∈ c.ids := by
        by_contra hn
        rw [hj, Core.position?_eq_none.mpr hn] at hp
        cases hp
      obtain ⟨e, he, rfl⟩ := Core.mem_ids.mp hmem
      rw [Core.bindings_of_mem h.sound.nodup_ids he, Core.element?_of_mem h.sound.nodup_ids he]
      exact (hg e he hj.symm).2
    · rfl

variable {c' c'' : Core ε} {f : List Binding → List Binding} {done rest : List ElementId}

theorem Rewired.counted (h : Rewired Q done f c c') : Rewired Q done f c (Stage.counted c') :=
  ⟨⟨h.sound.congr rfl rfl, h.all⟩, h.compare, h.listener, h.ids, h.attachments, h.bindings⟩

theorem rewired_nil (h : Tended Q c) : Rewired Q [] f c c :=
  ⟨h, rfl, rfl, rfl, rfl, fun _ => (if_neg List.not_mem_nil).symm⟩

/-- Rewirings of several elements add up. -/
theorem Rewired.trans (hf : ∀ l, f (f l) = f l) (h : Rewired Q done f c c')
    (h' : Rewired Q rest f c' c'') : Rewired Q (done ++ rest) f c c'' where
  toTended := h'.toTended
  compare := h'.compare.trans h.compare
  listener := h'.listener.trans h.listener
  ids := h'.ids.trans h.ids
  attachments := h'.attachments.trans h.attachments
  bindings j := by
    rw [h'.bindings, h.bindings]
    by_cases hd : j ∈ done <;> by_cases hr : j ∈ rest <;> simp [hd, hr, hf]

/-- **The bindings turn into others**, `g` of what they were, under the same order and listener. -/
structure Turned (g : ElementId → List Binding → List Binding) (c c' : Core ε) : Prop where
  compare : c'.elems.compare = c.elems.compare
  listener : c'.listener = c.listener
  bindings : ∀ j, c'.bindings j = g j (c.bindings j)

/-- Bindings that turn twice turn by one after the other. -/
theorem Turned.trans {g g' : ElementId → List Binding → List Binding} (h : Turned g c c')
    (h' : Turned g' c' c'') : Turned (fun j l => g' j (g j l)) c c'' where
  compare := h'.compare.trans h.compare
  listener := h'.listener.trans h.listener
  bindings j := by rw [h'.bindings, h.bindings]

theorem Rewired.turned (h : Rewired Q done f c c') :
    Turned (fun j l => if j ∈ done then f l else l) c c' :=
  ⟨h.compare, h.listener, h.bindings⟩

/-- An update of an element that is there succeeds, and rewires it. -/
theorem exec_rewire (cards : Cards) (line : Line) {st : Stage ε} {e : Element ε} (hQ : Stable Q)
    (h : Tended Q st.core) (he : st.core.element? id = some e)
    (f : List Binding → List Binding) :
    ∃ st', exec cards line (update e f) st = (.ok (f e.bindings).length, st') ∧
      Rewired Q [id] f st.core st'.core ∧ st'.app = st.app := by
  obtain ⟨hmem, hid⟩ := Core.element?_eq_some he
  obtain ⟨w, hw⟩ := hQ.wiring (h.all e hmem)
  have hin : e.id ∈ st.core.ids := Core.mem_ids.mpr ⟨e, hmem, rfl⟩
  rcases st.edit_cases e.id (rewire f) with ⟨hout, -⟩ | ⟨i, hp, hedit⟩
  · exact absurd hin hout
  · have hb : e.bindings = w.bindings := by rw [Element.bindings, hw]; rfl
    rw [exec_update e hw, hedit, hb]
    have hrewire : ∀ a ∈ st.core.elems.elems, a.id = e.id → Q (Stage.revise (rewire f) a) ∧
        (Stage.revise (rewire f) a).bindings = f a.bindings :=
      fun a ha _ => ⟨hQ.rewire f (h.all a ha), bindings_rewire (hQ.wiring (h.all a ha)) f⟩
    exact ⟨_, rfl, hid ▸ rewired_update h hrewire hp, rfl⟩

/-- **A member that is calm takes every notice.** -/
theorem notify_of_mem {st : Stage ε} (h : Tended Q st.core)
    (hid : id ∈ st.core.ids) (mask : EventMask) :
    ∃ app, (st.notify id mask).2 = ⟨Stage.counted st.core, app⟩ ∧
      ((∀ e, Q e → e.Calm) → (st.notify id mask).1 = .ok ()) := by
  rcases st.notify_cases id mask with ⟨hout, -⟩ | ⟨i, e, r, app, hs, ht, hn⟩
  · exact absurd hid hout
  · refine ⟨app, by rw [hn], fun hcalm => ?_⟩
    have hmem := List.mem_of_getElem? (Core.search?_eq_some hs).2.1
    have hr := (hcalm e (h.all e hmem)).tell mask st.app
    rw [hn]
    rwa [ht] at hr

/-- An update that the listener of the element is told of. -/
theorem exec_rewire_notify {st st' : Stage ε} {f : List Binding → List Binding}
    (h : Rewired Q [id] f st.core st'.core) (hid : id ∈ st.core.ids) :
    Rewired Q [id] f st.core (exec cards line (attempt (core (.notifyInfo id))) st').2.core ∧
      ((∀ e, Q e → e.Calm) →
        (exec cards line (attempt (core (.notifyInfo id))) st').1 = .ok ()) := by
  obtain ⟨app, hn, hcalm⟩ := notify_of_mem h.toTended (h.ids.symm ▸ hid) .info
  rw [exec_notifyInfo, hn]
  exact ⟨h.counted, hcalm⟩

theorem exists_element {c : Core ε} (hid : id ∈ c.ids) : ∃ e, c.element? id = some e :=
  Option.ne_none_iff_exists'.mp fun hn => Core.element?_eq_none.mp hn hid

/-! ## To unbind and to refresh -/

/-- **To unbind** a control takes its bindings from an element. -/
theorem unbindControl_rewired (cards : Cards) (line : Line) {st : Stage ε} (hQ : Stable Q)
    (h : Tended Q st.core) (hid : id ∈ st.core.ids) (key : ControlKey) :
    Rewired Q [id] (·.filter (·.key ≠ key)) st.core
        (exec cards line (unbindControl key id) st).2.core ∧
      ((∀ e, Q e → e.Calm) → (exec cards line (unbindControl key id) st).1 = .ok ()) := by
  obtain ⟨e, he⟩ := exists_element hid
  obtain ⟨st', hu, hrewired, -⟩ := exec_rewire cards line hQ h he (·.filter (·.key ≠ key))
  rw [unbindControl, exec_bind, exec_element?]
  simp only [he, exec_bind, hu]
  split
  · exact exec_rewire_notify hrewired hid
  · exact ⟨hrewired, fun _ => rfl⟩

/-- The bindings of a control are told what is known of it now. -/
def renew (key : ControlKey) (info : ControlInfo) (bindings : List Binding) : List Binding :=
  bindings.map fun b => if b.key = key then { b with info } else b

/-- **To refresh** a control renews its bindings in an element, if the control can be read. -/
theorem refresh_cases (cards : Cards) (line : Line) {st : Stage ε} (hQ : Stable Q)
    (h : Tended Q st.core) (ctl : ControlRef) (hid : id ∈ st.core.ids) :
    (∃ e, line.readInfo cards ctl.id = .error e ∧
      exec cards line (refresh ctl id) st = (.error e, st)) ∨
    ∃ info, line.readInfo cards ctl.id = .ok info ∧
      Rewired Q [id] (renew ctl.key info) st.core (exec cards line (refresh ctl id) st).2.core ∧
      ((∀ e, Q e → e.Calm) → (exec cards line (refresh ctl id) st).1 = .ok ()) := by
  obtain ⟨e, he⟩ := exists_element hid
  rw [refresh, exec_bind, exec_readInfo]
  rcases hr : line.readInfo cards ctl.id with err | info
  · exact .inl ⟨err, rfl, rfl⟩
  · refine .inr ⟨info, rfl, ?_⟩
    obtain ⟨st', hu, hrewired, -⟩ := exec_rewire cards line hQ h he (renew ctl.key info)
    have hu : exec cards line
        (update e (·.map fun b => if b.key = ctl.key then { b with info } else b)) st = _ := hu
    simp only [exec_bind, exec_element?, he, hu]
    exact exec_rewire_notify hrewired hid

/-! ## To bind -/

/-- **A control is bound to an element**: the binding is appended, and the control attached. -/
structure Bound (Q : Element ε → Prop) (id : ElementId) (b : Binding) (c c' : Core ε) : Prop
    extends Tended Q c' where
  compare : c'.elems.compare = c.elems.compare
  listener : c'.listener = c.listener
  ids : ∀ j, j ∈ c'.ids ↔ id = j ∨ j ∈ c.ids
  registered : ∀ key, c'.attachments.isRegistered key = c.attachments.isRegistered key
  controls : ∀ j key, key ∈ c'.attachments.controlsOf j ↔
    (id = j ∧ b.key = key) ∨ key ∈ c.attachments.controlsOf j
  bindings : ∀ j, c'.bindings j = if id = j then c.bindings j ++ [b] else c.bindings j

/-- **An orphan**: the element is there with a binding, and nothing is attached to it. -/
structure Orphaned (c : Core ε) (id : ElementId) : Prop where
  there : id ∈ c.ids
  bound : c.bindings id ≠ []
  alone : c.attachments.controlsOf id = []

/-- **The listener of the mixer refused** a new element, which is an orphan now. -/
def Refused (listener : Option (MixerListener ε)) (err : Error) (st : Stage ε) : Prop :=
  ∃ hear e before, listener = some hear ∧ hear (.add, e) before = (.error err, st.app) ∧
    Orphaned st.core e.id

theorem Bound.counted {b : Binding} {c' : Core ε} (h : Bound Q id b c c') :
    Bound Q id b c (Stage.counted c') :=
  ⟨⟨h.sound.congr rfl rfl, h.all⟩, h.compare, h.listener, h.ids, h.registered, h.controls, h.bindings⟩

/-- An element got a binding and is not attached to its control yet; it may be new. -/
structure Made (Q : Element ε → Prop) (id : ElementId) (b : Binding) (c c' : Core ε) : Prop
    extends Tended Q c' where
  compare : c'.elems.compare = c.elems.compare
  listener : c'.listener = c.listener
  ids : ∀ j, j ∈ c'.ids ↔ id = j ∨ j ∈ c.ids
  attachments : c'.attachments = c.attachments
  bindings : ∀ j, c'.bindings j = if id = j then c.bindings j ++ [b] else c.bindings j

/-- A binding that is appended is made. -/
theorem Rewired.made {b : Binding} (h : Rewired Q [id] (· ++ [b]) c c') (hid : id ∈ c.ids) :
    Made Q id b c c' :=
  ⟨h.toTended, h.compare, h.listener,
    fun j => by rw [h.ids]; exact (or_iff_right_of_imp (· ▸ hid)).symm, h.attachments,
    fun j => by rw [h.bindings]; simp only [List.mem_singleton, eq_comm (a := j)]⟩

/-- **A new element is made of its first binding.** -/
theorem made_insert {b : Binding} {elems : SortedIndex (Element ε)} (hQ : Stable Q)
    (h : Tended Q c) (hid : id ∉ c.ids)
    (hi : c.elems.insert (.new id (Ranking.weight id.name) (settings (.single b)) Wiring.ops)
      = .ok (i, elems)) : Made Q id b c (Stage.counted { c with elems }) where
  sound := (h.sound.insert hid hi).congr rfl rfl
  all e he := by
    rcases List.mem_cons.mp ((SortedIndex.insert_perm hi).2.mem_iff.mp he) with rfl | he
    · exact hQ.new id b
    · exact h.all e he
  compare := (SortedIndex.insert_perm hi).1
  listener := rfl
  ids j := (Core.Sound.ids_insert hi).mem_iff.trans (by rw [List.mem_cons, eq_comm]; rfl)
  attachments := rfl
  bindings j := by
    have helement := Core.element?_insert (j := j) h.sound.nodup_ids hid hi
    change Core.bindings { c with elems } j = _
    rw [Core.bindings, helement]
    split
    · rename_i hj
      obtain rfl : id = j := hj
      rw [if_pos rfl, Core.bindings_of_not_mem hid]
      rfl
    · rename_i hj
      exact (if_neg hj).symm

/-- **The attachment completes** what the binding began. -/
theorem attach_made (app : ε) {c' : Core ε} {b : Binding} (h : Made Q id b c c')
    (hreg : c.attachments.isRegistered b.key = true) :
    ∃ st, Stage.attach id b.key ⟨c', app⟩ = (.ok (), st) ∧ Bound Q id b c st.core := by
  have hid : id ∈ c'.ids := (h.ids id).mpr (.inl rfl)
  obtain ⟨a, hattach, hcontrols⟩ :=
    Attachments.attach_of_isRegistered h.sound.coherent (h.attachments ▸ hreg : _ = true) id
  rcases Stage.attach_cases id b.key ⟨c', app⟩ with ⟨err, he⟩ | ⟨a', -, ha', he⟩
  · rw [Stage.attach, if_neg, hattach] at he
    · cases he
    · exact fun hn => Core.position?_eq_none.mp (Option.isNone_iff_eq_none.mp hn) hid
  · obtain rfl := Except.ok.inj (hattach.symm.trans ha')
    refine ⟨_, he, ⟨h.sound.attach hid hattach, h.all⟩, h.compare, h.listener, h.ids, fun key => ?_,
      h.attachments ▸ hcontrols, h.bindings⟩
    rw [← h.attachments]
    exact Attachments.isRegistered_attach hattach key

/-- What is not attached is an orphan. -/
theorem Made.toOrphaned {b : Binding} {c' : Core ε} (h : Made Q id b c c') (hs : c.Sound)
    (hid : id ∉ c.ids) : Orphaned c' id where
  there := (h.ids id).mpr (.inl rfl)
  bound := by rw [h.bindings, if_pos rfl]; exact List.append_ne_nil_of_right_ne_nil _ (by simp)
  alone := by
    rw [h.attachments, List.eq_nil_iff_forall_not_mem]
    exact fun key hkey => hid (hs.present key id ((hs.coherent.mem_iff key id).mpr hkey))

/-- The listener of the mixer refuses nothing. -/
def Accepting (c : Core ε) : Prop :=
  ∀ hear, c.listener = some hear → ∀ v app, (hear v app).1 = .ok ()

/-- **To bind** a control to an element appends its binding and attaches it.  If the element is not there yet,
the order of the mixer may refuse it, and then nothing happened; or the listener of the mixer may, and
then it stays behind as an orphan. -/
theorem bindControl_cases (cards : Cards) (line : Line) (id : ElementId) {st : Stage ε}
    (hQ : Stable Q) (h : Tended Q st.core) {b : Binding}
    (hreg : st.core.attachments.isRegistered b.key = true) :
    (Bound Q id b st.core (exec cards line (bindControl id b) st).2.core ∧
      ((∀ e, Q e → e.Calm) → Accepting st.core →
        (exec cards line (bindControl id b) st).1 = .ok ())) ∨
    (∃ err e i, exec cards line (bindControl id b) st = (.error err, st) ∧ id ∉ st.core.ids ∧
      e.id = id ∧ st.core.elems.search e = .found i) ∨
    ∃ err after, exec cards line (bindControl id b) st = (.error err, after) ∧
      Refused st.core.listener err after := by
  by_cases hid : id ∈ st.core.ids
  · obtain ⟨e, he⟩ := exists_element hid
    obtain ⟨st', hu, hrewired, -⟩ := exec_rewire cards line hQ h he (· ++ [b])
    obtain ⟨st'', hattach, hbound⟩ := attach_made st'.app (hrewired.made hid) hreg
    obtain ⟨app, hn, hcalm⟩ := notify_of_mem hbound.toTended ((hbound.ids id).mpr (.inl rfl)) .info
    refine .inl ?_
    rw [bindControl, exec_bind, exec_element?]
    simp only [he, exec_bind, hu, exec_attach, hattach, exec_notifyInfo, hn]
    exact ⟨hbound.counted, fun hQcalm _ => hcalm hQcalm⟩
  · rw [bindControl, exec_bind, exec_element?]
    simp only [Core.element?_eq_none.mpr hid, exec_bind, exec_add]
    rcases st.add_cases (.new id (Ranking.weight id.name) (settings (.single b)) Wiring.ops) with
      ⟨hfull, err, he⟩ | ⟨-, i, elems, r, app, hi, htold, he⟩
    · obtain ⟨i, hi⟩ := hfull.resolve_left hid
      refine .inr (.inl ⟨err, _, i, ?_, hid, rfl, hi⟩)
      rw [he]
    · rw [he]
      have hmade := made_insert hQ h hid hi
      rcases r with err | u
      · refine .inr (.inr ?_)
        rcases hl : st.core.listener with _ | hear
        · simp only [Stage.Told, hl] at htold
          cases htold.1
        · simp only [Stage.Told, hl] at htold
          exact ⟨err, _, rfl, hear, _, st.app, rfl, htold.symm, hmade.toOrphaned h.sound hid⟩
      · obtain ⟨st'', hattach, hbound⟩ := attach_made app hmade hreg
        refine .inl ?_
        dsimp only
        rw [exec_attach, hattach]
        exact ⟨hbound, fun _ _ => rfl⟩

end ByName

end SoundDesk
