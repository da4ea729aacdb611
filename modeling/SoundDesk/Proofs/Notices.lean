import SoundDesk.Proofs.Fanout

/-!
# Proofs/Notices — what the elements of a mixer hear, and when they end

    added ─▸ told ─▸ told ─▸ told REMOVE, removed          one life of an element; others may follow
      │        │       │        │
      ▼        ▼       ▼        ▼
    app  ─▸  app  ─▸  app  ─▸  app                         what the listeners make of it

Every command of a core that takes effect says something about one element (`CoreCommand.notices`), and a notice names
the listener that is called: what the application comes to is what the calls make of it, one after the other
(`Notice.replay`), so a log is one of calls and not of intentions.  A notice never comes to an element that is not there,
and the notice of its removal is the last that an element gets (`Lives`): so it is for one command (`course_perform`), and
so for everything that is made of commands (`Mixer.course_controlRemoved`).
-/

namespace SoundDesk

variable {ε π : Type}

/-! ## News of one element -/

/-- What happens to an element. -/
inductive News where
  | added
  /-- Its listener is told, if it has one. -/
  | told (mask : EventMask)
  | removed

/-- What the listener of the element is told. -/
def News.mask? : News → Option EventMask
  | told mask => some mask
  | added | removed => none

/-- **The lives of an element**, from when it is there or not to when it is there or not: it is added, told
what is no removal, told that it is removed, and then at once removed. -/
inductive Lives : (before : Bool) → List News → (after : Bool) → Prop where
  | still (here : Bool) : Lives here [] here
  | added {news : List News} {after : Bool} (h : Lives true news after) : Lives false (.added :: news) after
  | told {mask : EventMask} {news : List News} {after : Bool} (hm : mask.isRemove = false)
      (h : Lives true news after) : Lives true (.told mask :: news) after
  | removed {news : List News} {after : Bool} (h : Lives false news after) :
      Lives true (.told .remove :: .removed :: news) after

theorem Lives.append {before middle after : Bool} {news news' : List News} (h : Lives before news middle)
    (h' : Lives middle news' after) : Lives before (news ++ news') after := by
  induction h with
  | still here => exact h'
  | added _ ih => exact .added (ih h')
  | told hm _ ih => exact .told hm (ih h')
  | removed _ ih => exact .removed (ih h')

/-! ## Notices -/

/-- What listeners were told: of which element, and what. -/
abbrev Tape : Type := List (ElementId × EventMask)

/-- **A notice**: what happens to an element, with the listener that is called for it; or the provider writes the state
of the application. -/
inductive Notice (ε : Type) where
  /-- The listener of the mixer is told of a new element, if there is one. -/
  | added (e : Element ε) (listener : Option (MixerListener ε))
  /-- The listener of the element is told, if it has one. -/
  | told (e : Element ε) (mask : EventMask)
  | removed (e : Element ε)
  | wrote (app : ε)

namespace Notice

/-- The element of a notice, and its news. -/
def news? : Notice ε → Option (ElementId × News)
  | added e _ => some (e.id, .added)
  | told e mask => some (e.id, .told mask)
  | removed e => some (e.id, .removed)
  | wrote _ => none

/-- **To deliver a notice** is to call the listener that it names. -/
def deliver : Notice ε → ε → ε
  | added _ none, app => app
  | added e (some hear), app => (hear (.add, e.toElementView) app).2
  | told e mask, app => (e.tell mask app).2
  | removed _, app => app
  | wrote app, _ => app

/-- The core counts the notices of listeners. -/
def thrown : Notice ε → Bool
  | added _ _ | told _ _ => true
  | removed _ | wrote _ => false

/-- What an element is told by a notice. -/
def spoken : Notice ε → Tape
  | told e mask => [(e.id, mask)]
  | added _ _ | removed _ | wrote _ => []

/-- The news of a notice, if it is one of an element. -/
def newsOf? (id : ElementId) (n : Notice ε) : Option News :=
  n.news?.bind fun p => if p.1 = id then some p.2 else none

end Notice

/-- What a log says about one element. -/
def heard (id : ElementId) (log : List (Notice ε)) : List News := log.filterMap (Notice.newsOf? id)

theorem heard_append (id : ElementId) (log log' : List (Notice ε)) :
    heard id (log ++ log') = heard id log ++ heard id log' := List.filterMap_append ..

/-- **What a log makes of the application**: its listeners are called, one after the other. -/
def Notice.replay (log : List (Notice ε)) (app : ε) : ε := log.foldl (fun app n => n.deliver app) app

theorem Notice.replay_append (log log' : List (Notice ε)) (app : ε) :
    Notice.replay (log ++ log') app = Notice.replay log' (Notice.replay log app) := List.foldl_append ..

/-- What the elements are told by a log, in order. -/
def spoken (log : List (Notice ε)) : Tape := log.flatMap Notice.spoken

/-- What one element is told, by the log of all. -/
theorem spoken_heard (id : ElementId) (log : List (Notice ε)) :
    ((spoken log).filter (·.1 = id)).map Prod.snd = (heard id log).filterMap News.mask? := by
  induction log with
  | nil => rfl
  | cons n rest ih =>
    have hone : (n.spoken.filter (·.1 = id)).map Prod.snd = (heard id [n]).filterMap News.mask? := by
      cases n with
      | wrote app => rfl
      | added e listener | removed e | told e mask =>
        by_cases h : e.id = id <;> simp [Notice.spoken, Notice.newsOf?, Notice.news?, News.mask?, h, heard]
    rw [spoken, List.flatMap_cons, List.filter_append, List.map_append, ← spoken, ih, hone, ← List.filterMap_append,
      ← heard_append]
    rfl

/-- **A listener records**: the application keeps a tape, and a notice puts there what an element is told by it. -/
def Notice.Records (tape : ε → Tape) (n : Notice ε) : Prop :=
  ∀ app, tape (n.deliver app) = tape app ++ n.spoken

/-- **Listeners that record hear exactly the log.** -/
theorem tape_replay {tape : ε → Tape} {log : List (Notice ε)}
    (h : ∀ n ∈ log, n.Records tape) (app : ε) : tape (Notice.replay log app) = tape app ++ spoken log := by
  induction log generalizing app with
  | nil => exact (List.append_nil _).symm
  | cons n rest ih =>
    obtain ⟨hn, hrest⟩ := List.forall_mem_cons.mp h
    rw [Notice.replay, List.foldl_cons, ← Notice.replay, ih hrest, hn, List.append_assoc]
    rfl

/-- **The notices of a command**: one that is refused has none. -/
def CoreCommand.notices : CoreCommand ε → Stage ε → List (Notice ε)
  | add e, st =>
    if (st.core.position? e.id).isSome then []
    else
      match st.core.elems.insert e with
      | .error _ => []
      | .ok _ => [.added e st.core.listener]
  | remove id, st =>
    match st.core.search? id with
    | none => []
    | some (_, e) => [.told e .remove, .removed e]
  | notifyValue id, st => ((st.core.search? id).map fun found => .told found.2 .value).toList
  | notifyInfo id, st => ((st.core.search? id).map fun found => .told found.2 .info).toList
  | writeApp app, _ => [.wrote app]
  | attach _ _, _ | detach _ _, _ | edit _ _, _ | look, _ | readApp, _ => []

/-- The notices of a command that answers to a change. -/
def EventCommand.notices : EventCommand ε → Stage ε → List (Notice ε)
  | core c, st => c.notices st
  | readInfo _, _ | readValues _, _ => []

/-- **What a program logs**, command by command. -/
def Program.log {C σ α N : Type} {Answer : C → Type} (perform : (c : C) → σ → Answer c × σ)
    (notices : C → σ → List N) : Program C Answer α → σ → List N
  | done _, _ => []
  | call c next, st => notices c st ++ log perform notices (next (perform c st).1) (perform c st).2

/-! ## From one stage to another -/

/-- **The notices between two stages**: every element lives as they say, from whether it is there first to
whether it is there last, the core counted them, and the application is what they make of it. -/
structure Course (st : Stage ε) (log : List (Notice ε)) (st' : Stage ε) : Prop where
  nodup : st'.core.ids.Nodup
  lives : ∀ id, Lives (decide (id ∈ st.core.ids)) (heard id log) (decide (id ∈ st'.core.ids))
  counted : st'.core.thrown = st.core.thrown + log.countP Notice.thrown
  app : st'.app = Notice.replay log st.app

namespace Course

variable {st st' st'' : Stage ε} {log log' : List (Notice ε)}

/-- Nothing is noticed where the elements and the application stay. -/
theorem still (hst : st.core.ids.Nodup) (hids : st'.core.ids = st.core.ids)
    (hthrown : st'.core.thrown = st.core.thrown) (happ : st'.app = st.app) : Course st [] st' :=
  ⟨hids ▸ hst, fun _ => hids ▸ .still _, hthrown, happ⟩

/-- What was noticed first, and then what was noticed later. -/
theorem trans (h : Course st log st') (h' : Course st' log' st'') : Course st (log ++ log') st'' where
  nodup := h'.nodup
  lives id := heard_append id log log' ▸ (h.lives id).append (h'.lives id)
  counted := by rw [h'.counted, h.counted, List.countP_append, Nat.add_assoc]
  app := by rw [h'.app, h.app, Notice.replay_append]

end Course

/-! ### Commands -/

section Commands

variable {st : Stage ε} {id : ElementId}

theorem lives_still {ids ids' : List ElementId} (h : id ∈ ids ↔ id ∈ ids') :
    Lives (decide (id ∈ ids)) [] (decide (id ∈ ids')) := by
  rw [decide_eq_decide.mpr h]
  exact .still _

/-- News of one element are none of another. -/
theorem heard_of_ne {i : ElementId} {log : List (Notice ε)} (hlog : ∀ n ∈ log, ∀ p ∈ n.news?, p.1 = i)
    (h : i ≠ id) : heard id log = [] := by
  refine List.filterMap_eq_nil_iff.mpr fun n hn => ?_
  rw [Notice.newsOf?]
  cases hp : n.news? with
  | none => rfl
  | some p => exact if_neg fun heq => h ((hlog n hn p hp).symm.trans heq)

/-- A course in which only one element has news. -/
theorem course_one {st' : Stage ε} {i : ElementId} {log : List (Notice ε)}
    (hlog : ∀ n ∈ log, ∀ p ∈ n.news?, p.1 = i) (hnodup : st'.core.ids.Nodup)
    (hlives : Lives (decide (i ∈ st.core.ids)) (heard i log) (decide (i ∈ st'.core.ids)))
    (hothers : ∀ id, id ≠ i → (id ∈ st.core.ids ↔ id ∈ st'.core.ids))
    (hcounted : st'.core.thrown = st.core.thrown + log.countP Notice.thrown)
    (happ : st'.app = Notice.replay log st.app) : Course st log st' := by
  refine ⟨hnodup, fun id => ?_, hcounted, happ⟩
  by_cases h : i = id
  · exact h ▸ hlives
  · rw [heard_of_ne hlog h]
    exact lives_still (hothers id (Ne.symm h))

/-- The listener of the mixer is told of an element that is added. -/
theorem deliver_added {listener : Option (MixerListener ε)} {e : Element ε} {app app' : ε} {r : Except Error Unit}
    (h : Stage.Told listener e app r app') : app' = (Notice.added e listener).deliver app := by
  cases listener with
  | none => exact h.2
  | some hear => exact congrArg Prod.snd h

/-- An addition tells the listener of the mixer, and the element is there then. -/
theorem course_add (e : Element ε) (hst : st.core.ids.Nodup) :
    Course st ((CoreCommand.add e).notices st) (st.add e).2 := by
  rcases st.add_cases e with ⟨hrefused, err, he⟩ | ⟨hid, i, elems, r, app, hi, htold, he⟩ <;> rw [he]
  · have hnone : (CoreCommand.add e).notices st = [] := by
      rw [CoreCommand.notices]
      rcases hrefused with hid | ⟨j, hj⟩
      · rw [if_pos (Core.isSome_position?.mpr hid)]
      · rw [SortedIndex.insert, hj]
        exact ite_self _
    rw [hnone]
    exact .still hst rfl rfl rfl
  · have hone : (CoreCommand.add e).notices st = [.added e st.core.listener] := by
      rw [CoreCommand.notices, Core.position?_eq_none.mpr hid, hi]
      rfl
    have hids := Core.Sound.ids_insert (c := st.core) hi
    have hmem : ∀ id, id ∈ Core.ids { st.core with elems } ↔ id = e.id ∨ id ∈ st.core.ids :=
      fun id => hids.mem_iff.trans List.mem_cons
    rw [hone]
    refine course_one (i := e.id) (by simp [Notice.news?]) (hids.nodup_iff.mpr (List.nodup_cons.mpr ⟨hid, hst⟩)) ?_
      (fun id hne => ?_) rfl (deliver_added htold)
    · have hthere : e.id ∈ Core.ids (Stage.counted { st.core with elems }) := (hmem _).mpr (.inl rfl)
      rw [decide_eq_false hid, decide_eq_true hthere]
      simpa [heard, Notice.newsOf?, Notice.news?] using Lives.added (.still true)
    · exact ((hmem id).trans (or_iff_right hne)).symm

/-- A removal leaves the other elements. -/
theorem ids_remove (id : ElementId) (hst : st.core.ids.Nodup) :
    (st.remove id).2.core.ids = st.core.ids.filter (· ≠ id) := by
  rcases st.remove_cases id with ⟨hid, he⟩ | ⟨i, e, r, app, hs, -, he⟩ <;> rw [he]
  · refine (List.filter_eq_self.mpr fun j hj => ?_).symm
    have hne : j ≠ id := fun h => hid (h ▸ hj)
    exact decide_eq_true hne
  · exact Core.Sound.ids_erase hst hs

/-- A removal tells the element so, and the element is gone then. -/
theorem course_remove (id : ElementId) (hst : st.core.ids.Nodup) :
    Course st ((CoreCommand.remove id).notices st) (st.remove id).2 := by
  have hids := ids_remove id hst
  have hmem : ∀ j, j ∈ (st.remove id).2.core.ids ↔ j ∈ st.core.ids ∧ j ≠ id :=
    fun j => by rw [hids, List.mem_filter, decide_eq_true_iff]
  rw [CoreCommand.notices]
  rcases st.remove_cases id with ⟨hid, he⟩ | ⟨i, e, r, app, hs, htell, he⟩
  · rw [Core.search?_eq_none.mpr hid, he]
    exact .still hst rfl rfl rfl
  · obtain ⟨-, hget, rfl⟩ := Core.search?_eq_some hs
    have hid : e.id ∈ st.core.ids := Core.mem_ids.mpr ⟨e, List.mem_of_getElem? hget, rfl⟩
    rw [hs]
    refine course_one (i := e.id) (by simp [Notice.news?]) (hids ▸ hst.filter _) ?_ (fun j hne => ?_) ?_ ?_
    · rw [decide_eq_true hid, decide_eq_false (mt (hmem e.id).mp fun h => h.2 rfl)]
      simpa [heard, Notice.newsOf?, Notice.news?] using Lives.removed (.still false)
    · exact ⟨fun h => (hmem j).mpr ⟨h, hne⟩, fun h => ((hmem j).mp h).1⟩
    · rw [he]
      rfl
    · rw [he]
      exact (congrArg Prod.snd htell).symm

/-- A notification tells the element, and it stays. -/
theorem course_notify (id : ElementId) {mask : EventMask} (hm : mask.isRemove = false)
    (hst : st.core.ids.Nodup) :
    Course st ((st.core.search? id).map fun found => .told found.2 mask).toList (st.notify id mask).2 := by
  rcases st.notify_cases id mask with ⟨hid, he⟩ | ⟨i, e, r, app, hs, htell, he⟩ <;> rw [he]
  · rw [Core.search?_eq_none.mpr hid]
    exact .still hst rfl rfl rfl
  · obtain ⟨-, hget, rfl⟩ := Core.search?_eq_some hs
    have hid : e.id ∈ st.core.ids := Core.mem_ids.mpr ⟨e, List.mem_of_getElem? hget, rfl⟩
    rw [hs]
    refine course_one (i := e.id) (by simp [Notice.news?]) hst ?_ (fun _ _ => .rfl) rfl
      (congrArg Prod.snd htell).symm
    have hthere : e.id ∈ (Stage.counted st.core).ids := hid
    rw [decide_eq_true hid, decide_eq_true hthere]
    simpa [heard, Notice.newsOf?, Notice.news?] using Lives.told hm (.still true)

/-- **A command does what its notices say.** -/
theorem course_perform (c : CoreCommand ε) (hst : st.core.ids.Nodup) :
    Course st (c.notices st) (c.perform st).2 := by
  cases c with
  | add e => exact course_add e hst
  | remove id => exact course_remove id hst
  | notifyValue id => exact course_notify id (by decide) hst
  | notifyInfo id => exact course_notify id (by decide) hst
  | attach id key =>
    rcases st.attach_cases id key with ⟨err, he⟩ | ⟨a, -, -, he⟩ <;> rw [CoreCommand.perform, he] <;>
      exact .still hst rfl rfl rfl
  | detach id key =>
    rcases st.detach_cases id key with ⟨err, he⟩ | ⟨a, -, he⟩ <;> rw [CoreCommand.perform, he] <;>
      exact .still hst rfl rfl rfl
  | edit id f =>
    rcases st.edit_cases id f with ⟨-, he⟩ | ⟨i, -, he⟩ <;> rw [CoreCommand.perform, he]
    · exact .still hst rfl rfl rfl
    · exact .still hst (Core.ids_update f i) rfl rfl
  | look | readApp => exact .still hst rfl rfl rfl
  | writeApp app => exact ⟨hst, fun id => lives_still .rfl, rfl, rfl⟩

end Commands

/-! ### Programs and the fan-out -/

/-- A program does what its log says. -/
theorem course_run {α : Type} (cards : Cards) (line : Line) (p : EventProgram ε α) {st : Stage ε}
    (hst : st.core.ids.Nodup) : Course st (p.log (EventCommand.perform cards line) EventCommand.notices st)
      (p.run (EventCommand.perform cards line) st).2 := by
  induction p generalizing st with
  | done a => exact .still hst rfl rfl rfl
  | call c next ih =>
    have hone : Course st (c.notices st) (c.perform cards line st).2 := by
      cases c with
      | core c => exact course_perform c hst
      | readInfo id | readValues id => exact .still hst rfl rfl rfl
    exact hone.trans (ih _ hone.nodup)

namespace Mixer

variable (p : Provider ε π) (cards : Cards) (line : Line) (ctl : ControlRef)

/-- What a call of the provider logs. -/
def callLog (mask : EventMask) (id : Option ElementId) (b : Board ε π) : List (Notice ε) :=
  (p.event ctl mask id b.2).log (EventCommand.perform cards line) EventCommand.notices b.1

/-- What the calls for a removal log. -/
def removeFromLog : List ElementId → Board ε π → List (Notice ε)
  | [], _ => []
  | id :: rest, b =>
    if b.1.core.attachments.isAttached ctl.key id then
      callLog p cards line ctl .remove (some id) b ++
        removeFromLog rest (callProvider p cards line ctl .remove (some id) b).2
    else removeFromLog rest b

/-- What the removals of elements without controls log. -/
def removeEmptyLog : List ElementId → Stage ε → List (Notice ε)
  | [], _ => []
  | id :: rest, st =>
    if (st.core.position? id).isSome && st.core.isEmpty id then
      (CoreCommand.remove id).notices st ++ removeEmptyLog rest (st.remove id).2
    else removeEmptyLog rest st

/-- **What the removal of a control logs**: the calls of the provider, and the removals of elements that it
leaves without controls. -/
def controlRemovedLog (b : Board ε π) : List (Notice ε) :=
  let members := b.1.core.attachments.elementsOf ctl.key
  let (_, stage, memory) := removeFrom p cards line ctl members none b
  removeFromLog p cards line ctl members b ++
    match p.policy memory with
    | .keep => []
    | .remove => removeEmptyLog members (discard ctl.key stage)

variable {p cards line ctl} {b : Board ε π}

theorem course_removeFrom (members : List ElementId) (failure : Option Error) (hb : b.1.core.ids.Nodup) :
    Course b.1 (removeFromLog p cards line ctl members b)
      (removeFrom p cards line ctl members failure b).2.1 := by
  induction members generalizing failure b with
  | nil => exact .still hb rfl rfl rfl
  | cons id rest ih =>
    rw [removeFromLog, removeFrom]
    split
    · have hcall : Course b.1 (callLog p cards line ctl .remove (some id) b)
          (callProvider p cards line ctl .remove (some id) b).2.1 := course_run cards line _ hb
      exact hcall.trans (ih _ hcall.nodup)
    · exact ih failure hb

theorem course_removeEmpty (members : List ElementId) (failure : Option Error) {st : Stage ε}
    (hst : st.core.ids.Nodup) :
    Course st (removeEmptyLog members st) (removeEmpty members failure st).2 := by
  induction members generalizing failure st with
  | nil => exact .still hst rfl rfl rfl
  | cons id rest ih =>
    rw [removeEmptyLog, removeEmpty]
    split
    · have hone := course_remove id hst
      exact hone.trans (ih _ hone.nodup)
    · exact ih failure hst

/-- **The removal of a control does what its log says.** -/
theorem course_controlRemoved (hb : b.1.core.ids.Nodup) :
    Course b.1 (controlRemovedLog p cards line ctl b) (controlRemoved p cards line ctl b).2.1 := by
  have hcalls : Course b.1 (removeFromLog p cards line ctl (b.1.core.attachments.elementsOf ctl.key) b) _ :=
    course_removeFrom _ none hb
  rw [controlRemoved, controlRemovedLog]
  revert hcalls
  rcases removeFrom p cards line ctl (b.1.core.attachments.elementsOf ctl.key) none b with
    ⟨failure, stage, memory⟩
  intro hcalls
  have hdiscarded : Course stage [] (discard ctl.key stage) := .still hcalls.nodup rfl rfl rfl
  have hboth := hcalls.trans hdiscarded
  rw [List.append_nil] at hboth
  dsimp only
  cases p.policy memory with
  | keep =>
    rw [List.append_nil]
    exact hboth
  | remove => exact hboth.trans (course_removeEmpty _ _ hdiscarded.nodup)

end Mixer

end SoundDesk
