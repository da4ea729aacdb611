import SoundDesk.Proofs.Loading
import SoundDesk.Proofs.Replay
import Mathlib.Data.List.Induction

/-!
# Proofs/Pairing — a session tells of the removal of what it told the addition of

    cached:   added ─▸ changed ─▸ changed ─▸ changed REMOVE          one stay of a control in the cache
    told:     added ─▸ changed ─▸ changed ─▸ changed REMOVE

The calls of the handler are paired as long as every cached control was announced (`Tracks`).  Only one thing
leaves controls in the cache that were not: a load that stops before it came to them (`Session.CutShort`).  From
then on the calls cannot stay paired, as each of these controls is told its removal in the end
(`Session.Driven.paired_iff`).
-/

namespace SoundDesk

open Std (TransCmp OrientedCmp)

variable {ε σ : Type}

/-! ## The calls of a handler -/

/-- A call of a handler: a control was added, or it changed or is about to be removed. -/
inductive HandlerCall where
  | added (id : ControlId)
  | changed (id : ControlId) (mask : EventMask)
  deriving DecidableEq, Repr

/-- The handler that also writes down its calls. -/
def Handler.logged (h : Handler ε σ) : Handler ε (σ × List HandlerCall) where
  added cards s c st := ((h.added cards s c st.1).1, (h.added cards s c st.1).2, st.2 ++ [.added c.id])
  changed cards s c mask st :=
    ((h.changed cards s c mask st.1).1, (h.changed cards s c mask st.1).2, st.2 ++ [.changed c.id mask])

variable {id id' : ControlId} {mask : EventMask} {call : HandlerCall} {log : List HandlerCall}

/-- **A control is announced** if its addition was told, and its removal was not told since. -/
def Announced (id : ControlId) (log : List HandlerCall) : Prop :=
  ∃ before after, log = before ++ .added id :: after ∧ .changed id .remove ∉ after

/-- What a list with one more at its end can be cut into. -/
theorem concat_eq_cut {α : Type} {l front back : List α} {a b : α} (h : l ++ [a] = front ++ b :: back) :
    back = [] ∧ l = front ∧ a = b ∨ ∃ rest, back = rest ++ [a] ∧ l = front ++ b :: rest := by
  rcases List.eq_nil_or_concat back with rfl | ⟨rest, last, rfl⟩
  · obtain ⟨hl, hab⟩ := List.append_inj' h rfl
    exact .inl ⟨rfl, hl, List.head_eq_of_cons_eq hab⟩
  · rw [List.concat_eq_append, ← List.cons_append, ← List.append_assoc] at h
    obtain ⟨hl, hab⟩ := List.append_inj' h rfl
    exact .inr ⟨rest, by rw [List.concat_eq_append, hab], hl⟩

/-- Whether a control is announced is told by the last call about it. -/
theorem announced_concat :
    Announced id (log ++ [call]) ↔ call = .added id ∨ Announced id log ∧ call ≠ .changed id .remove := by
  constructor
  · rintro ⟨before, after, hlog, hafter⟩
    rcases concat_eq_cut hlog with ⟨-, -, rfl⟩ | ⟨rest, rfl, rfl⟩
    · exact .inl rfl
    · rw [List.mem_append, List.mem_singleton, not_or] at hafter
      exact .inr ⟨⟨before, rest, rfl, hafter.1⟩, Ne.symm hafter.2⟩
  · rintro (rfl | ⟨⟨before, after, rfl, hafter⟩, hcall⟩)
    · exact ⟨log, [], rfl, List.not_mem_nil⟩
    · refine ⟨before, after ++ [call], by simp, ?_⟩
      rw [List.mem_append, List.mem_singleton, not_or]
      exact ⟨hafter, hcall.symm⟩

theorem not_announced_nil : ¬ Announced id [] := by
  rintro ⟨before, after, hlog, -⟩
  simp at hlog

theorem announced_added : Announced id (log ++ [.added id']) ↔ id' = id ∨ Announced id log := by
  rw [announced_concat]
  simp

theorem announced_removed :
    Announced id (log ++ [.changed id' .remove]) ↔ Announced id log ∧ id' ≠ id := by
  rw [announced_concat]
  simp

theorem announced_changed (hm : mask.isRemove = false) :
    Announced id (log ++ [.changed id' mask]) ↔ Announced id log := by
  have hne : mask ≠ .remove := of_decide_eq_false hm
  rw [announced_concat]
  simp [hne]

/-- **The calls are paired**: a control hears of something only while it is announced, and between two of its
additions its removal is told once. -/
structure Paired (log : List HandlerCall) : Prop where
  announced : ∀ front id mask back, log = front ++ .changed id mask :: back → Announced id front
  alternate : ∀ front id middle back, log = front ++ .added id :: middle ++ .added id :: back →
    .added id ∉ middle → middle.count (.changed id .remove) = 1

namespace Paired

theorem nil : Paired [] where
  announced _ _ _ _ hlog := by simp at hlog
  alternate _ _ _ _ hlog := by simp at hlog

/-- What was told first is paired too. -/
theorem front {back : List HandlerCall} (h : Paired (log ++ back)) : Paired log where
  announced front id mask rest hlog := h.announced front id mask (rest ++ back) (by simp [hlog])
  alternate front id middle rest hlog := h.alternate front id middle (rest ++ back) (by simp [hlog])

/-- In a log that is paired, a change is about an announced control. -/
theorem announced_of_concat (h : Paired (log ++ [.changed id mask])) : Announced id log :=
  h.announced log id mask [] rfl

/-- After its addition, a control is told its removal once if it is not announced any more, and else never. -/
theorem count_remove {front middle : List HandlerCall} (h : Paired (front ++ .added id :: middle))
    (hmiddle : .added id ∉ middle) : middle.count (.changed id .remove) = 0 ∧
      Announced id (front ++ .added id :: middle) ∨ middle.count (.changed id .remove) = 1 ∧
      ¬ Announced id (front ++ .added id :: middle) := by
  induction middle using List.reverseRecOn with
  | nil => exact .inl ⟨rfl, announced_concat.mpr (.inl rfl)⟩
  | append_singleton middle call ih =>
    rw [← List.cons_append, ← List.append_assoc] at h ⊢
    simp only [List.mem_append, List.mem_singleton, not_or] at hmiddle
    have ih := ih h.front hmiddle.1
    rw [announced_concat, List.count_append]
    by_cases hcall : call = .changed id .remove
    · -- a removal that is told is of an announced control, so none was told before it
      subst hcall
      have hcount := ih.resolve_right fun hno => hno.2 h.announced_of_concat
      exact .inr ⟨by simp [hcount.1], by simp⟩
    · simpa [hcall, Ne.symm hmiddle.2, List.count_singleton, beq_false_of_ne hcall] using ih

/-- **An addition** is told of a control that is not announced. -/
theorem added (h : Paired log) (hid : ¬ Announced id log) : Paired (log ++ [.added id]) where
  announced front id' mask back hlog := by
    rcases concat_eq_cut hlog with ⟨-, -, hcall⟩ | ⟨rest, -, rfl⟩
    · exact nomatch hcall
    · exact h.announced front id' mask rest rfl
  alternate front id' middle back hlog hmiddle := by
    rcases concat_eq_cut hlog with ⟨-, rfl, hcall⟩ | ⟨rest, -, rfl⟩
    · obtain rfl := HandlerCall.added.inj hcall
      exact ((h.count_remove hmiddle).resolve_left fun hyes => hid hyes.2).1
    · exact h.alternate front id' middle rest rfl hmiddle

/-- **A change** is told of a control that is announced. -/
theorem changed (h : Paired log) (hid : Announced id log) (mask : EventMask) :
    Paired (log ++ [.changed id mask]) where
  announced front id' mask' back hlog := by
    rcases concat_eq_cut hlog with ⟨-, rfl, hcall⟩ | ⟨rest, -, rfl⟩
    · obtain ⟨rfl, -⟩ := HandlerCall.changed.inj hcall
      exact hid
    · exact h.announced front id' mask' rest rfl
  alternate front id' middle back hlog hmiddle := by
    rcases concat_eq_cut hlog with ⟨-, -, hcall⟩ | ⟨rest, -, rfl⟩
    · exact nomatch hcall
    · exact h.alternate front id' middle rest rfl hmiddle

end Paired

/-! ## The calls and the cache -/

/-- **The calls track the cache**: what is announced is cached, and the calls are paired with all that is cached
announced exactly if nothing cut a load short. -/
structure Tracks (cut : Prop) (here : List ControlId) (log : List HandlerCall) : Prop where
  nodup : here.Nodup
  cached : ∀ id, Announced id log → id ∈ here
  whole : (Paired log ∧ ∀ id ∈ here, Announced id log) ↔ ¬ cut

namespace Tracks

variable {cut : Prop} {here here' : List ControlId}

theorem perm (h : Tracks cut here log) (hp : here'.Perm here) : Tracks cut here' log where
  nodup := hp.nodup_iff.mpr h.nodup
  cached id hid := hp.mem_iff.mpr (h.cached id hid)
  whole := by simpa only [hp.mem_iff] using h.whole

theorem changed (h : Tracks cut here log) (hid : id ∈ here) (hm : mask.isRemove = false) :
    Tracks cut here (log ++ [.changed id mask]) where
  nodup := h.nodup
  cached id' hid' := h.cached id' ((announced_changed hm).mp hid')
  whole := by
    rw [← h.whole]
    simp only [announced_changed hm]
    exact ⟨fun hw => ⟨hw.1.front, hw.2⟩, fun hw => ⟨hw.1.changed (hw.2 id hid) mask, hw.2⟩⟩

/-- A removal that is told takes an announced control away. -/
theorem removed (h : Tracks cut here log) (hid : id ∈ here) :
    Tracks cut (here.erase id) (log ++ [.changed id .remove]) where
  nodup := h.nodup.erase id
  cached id' hid' := by
    obtain ⟨hid', hne⟩ := announced_removed.mp hid'
    exact (List.mem_erase_of_ne hne.symm).mpr (h.cached id' hid')
  whole := by
    rw [← h.whole]
    simp only [announced_removed, h.nodup.mem_erase_iff]
    refine ⟨fun hw => ⟨hw.1.front, fun id' hid' => ?_⟩, fun hw => ⟨hw.1.changed (hw.2 id hid) .remove, ?_⟩⟩
    · by_cases hne : id' = id
      · exact hne ▸ hw.1.announced_of_concat
      · exact (hw.2 id' ⟨hne, hid'⟩).1
    · exact fun id' hid' => ⟨hw.2 id' hid'.2, Ne.symm hid'.1⟩

/-- An addition that is told announces a new one. -/
theorem added (h : Tracks cut here log) (hid : id ∉ here) : Tracks cut (id :: here) (log ++ [.added id]) where
  nodup := List.nodup_cons.mpr ⟨hid, h.nodup⟩
  cached id' hid' := by
    rcases announced_added.mp hid' with rfl | hid'
    · exact List.mem_cons_self
    · exact List.mem_cons_of_mem _ (h.cached id' hid')
  whole := by
    rw [← h.whole]
    simp only [announced_added, List.forall_mem_cons, true_or, true_and]
    have hnew : ¬ Announced id log := fun hno => hid (h.cached id hno)
    refine ⟨fun hw => ⟨hw.1.front, fun id' hid' => ?_⟩, fun hw => ⟨hw.1.added hnew, ?_⟩⟩
    · exact (hw.2 id' hid').resolve_left fun heq => hid (heq ▸ hid')
    · exact fun id' hid' => .inr (hw.2 id' hid')

theorem congr {cut' : Prop} (h : Tracks cut here log) (hcut : cut ↔ cut') : Tracks cut' here log :=
  ⟨h.nodup, h.cached, by rw [h.whole, hcut]⟩

/-- Controls that are told of, one after the other. -/
theorem told (h : Tracks cut here log) (new : List ControlId) (hnodup : (here ++ new).Nodup) :
    Tracks cut (here ++ new) (log ++ new.map .added) := by
  induction new generalizing here log with
  | nil => simpa using h
  | cons id new ih =>
    have hid : id ∉ here := fun hid => (List.nodup_append.mp hnodup).2.2 id hid id List.mem_cons_self rfl
    have hone : Tracks cut (here ++ [id]) (log ++ [.added id]) :=
      (h.added hid).perm (List.perm_append_singleton id here)
    simpa using ih hone (by simpa using hnodup)

/-- Controls that nobody is told of. -/
theorem silent (h : Tracks cut here log) (new : List ControlId) (hnodup : (here ++ new).Nodup) :
    Tracks (cut ∨ new ≠ []) (here ++ new) log where
  nodup := hnodup
  cached id hid := List.mem_append_left new (h.cached id hid)
  whole := by
    rw [not_or, not_not, ← h.whole]
    constructor
    · refine fun hw => ⟨⟨hw.1, fun id hid => hw.2 id (List.mem_append_left new hid)⟩, ?_⟩
      refine List.eq_nil_iff_forall_not_mem.mpr fun id hid => ?_
      have hold := h.cached id (hw.2 id (List.mem_append_right here hid))
      exact (List.nodup_append.mp hnodup).2.2 id hold id hid rfl
    · rintro ⟨hw, rfl⟩
      rwa [List.append_nil]

end Tracks

/-! ## The order of the cache -/

/-- **A lawful order of controls** is a total preorder in which two records of one control and one weight are
equal: it looks at nothing that the application may change about a record. -/
structure CachedControl.Lawful (compare : CachedControl ε → CachedControl ε → Ordering) : Prop where
  trans : TransCmp compare
  same : ∀ a b, a.id = b.id → a.weight = b.weight → compare a b = .eq

theorem CachedControl.lawful_byDescription : Lawful (byDescription (ε := ε)) where
  trans := byDescription_trans
  same _ _ hid hweight := by
    simp [byDescription_eq_lex, compareLex, compareOn, mixerWeight, hid, hweight]

namespace Session

/-- **A tidy cache**: records that bear the weight of their names, in strict order. -/
structure Tidy (controls : SortedIndex (CachedControl ε)) : Prop where
  order : CachedControl.Lawful controls.compare
  sorted : controls.Sorted
  weighed : ∀ c ∈ controls.elems, c.Weighed

namespace Tidy

variable {controls controls' : SortedIndex (CachedControl ε)} {i : Nat}

theorem empty (horder : CachedControl.Lawful controls.compare) (h : controls.elems = []) : Tidy controls where
  order := horder
  sorted := by rw [SortedIndex.Sorted, h]; exact .nil
  weighed := by rw [h]; exact fun c hc => absurd hc List.not_mem_nil

/-- No control is cached twice. -/
theorem nodup (h : Tidy controls) : (controls.elems.map CachedControl.id).Nodup := by
  have := h.order.trans
  refine List.pairwise_map.mpr (List.Pairwise.imp_of_mem (fun {a b} ha hb hab heq => ?_) h.sorted)
  have hweight : a.weight = b.weight := by rw [h.weighed a ha, h.weighed b hb, heq]
  exact nomatch hab.symm.trans (h.order.same a b heq hweight)

theorem insert (h : Tidy controls) (hi : controls.insert (.ofId id) = .ok (i, controls')) : Tidy controls' := by
  have := h.order.trans
  obtain ⟨hcompare, hperm⟩ := SortedIndex.insert_perm hi
  refine ⟨hcompare ▸ h.order, h.sorted.insert hi, fun c hc => ?_⟩
  rcases List.mem_cons.mp (hperm.mem_iff.mp hc) with rfl | hc
  · exact CachedControl.weighed_ofId id
  · exact h.weighed c hc

/-- What is put in was not there. -/
theorem not_mem_of_insert (h : Tidy controls) (hi : controls.insert (.ofId id) = .ok (i, controls')) :
    id ∉ controls.elems.map CachedControl.id := by
  have hperm : (controls'.elems.map CachedControl.id).Perm (id :: controls.elems.map CachedControl.id) :=
    (SortedIndex.insert_perm hi).2.map _
  exact (List.nodup_cons.mp (hperm.nodup_iff.mp (h.insert hi).nodup)).1

theorem eraseIdx (h : Tidy controls) (i : Nat) :
    Tidy { controls with elems := controls.elems.eraseIdx i } where
  order := h.order
  sorted := h.sorted.eraseIdx i
  weighed c hc := h.weighed c (List.mem_of_mem_eraseIdx hc)

theorem setCompare (h : Tidy controls) {compare : CachedControl ε → CachedControl ε → Ordering}
    (horder : CachedControl.Lawful compare) (hs : controls.setCompare compare = .ok controls') :
    Tidy controls' := by
  have := horder.trans
  obtain ⟨hcompare, hperm, hsorted⟩ := SortedIndex.setCompare_cases hs
  exact ⟨hcompare ▸ horder, hsorted, fun c hc => h.weighed c (hperm.mem_iff.mp hc)⟩

/-- What the application keeps at a record does not matter. -/
theorem update (h : Tidy controls) (i : Nat) (listener : Option (Listener (ControlView × EventMask) ε))
    (note : Option Int64) : Tidy (controls.update i ({ · with listener, note })) where
  order := h.order
  sorted := by
    have := h.order.trans
    refine h.sorted.update i fun a b => ⟨?_, ?_⟩
    · exact TransCmp.congr_left (h.order.same _ _ rfl rfl)
    · exact TransCmp.congr_right (h.order.same _ _ rfl rfl)
  weighed c hc := by
    obtain ⟨j, hj⟩ := List.mem_iff_getElem?.mp hc
    rw [SortedIndex.update, List.getElem?_modify] at hj
    obtain ⟨c', hc', rfl⟩ := Option.map_eq_some_iff.mp hj
    have hold := h.weighed c' (List.mem_of_getElem? hc')
    split <;> exact hold

end Tidy

/-- **A cache stays tidy** through every insertion and removal of a record. -/
theorem lasting_tidy : Lasting (Tidy (ε := ε)) where
  insert h hi := h.insert hi
  erase i h := h.eraseIdx i

/-! ## What one call of a session keeps -/

/-- **A session is tracked**: its cache is tidy, and the calls track it. -/
structure Tracked (cut : Prop) (s : Session ε) (log : List HandlerCall) : Prop where
  tidy : Tidy s.controls
  tracks : Tracks cut s.ids log

variable {h : Handler ε σ} {cut : Prop} {cards : Cards} {s s' : Session ε} {st : σ × List HandlerCall}

/-- **Freeing** tells of every removal. -/
theorem tracks_freeFrom (h : Handler ε σ) (cards : Cards) (s : Session ε) (backwards : List (CachedControl ε))
    (failure : Option Error) (ht : Tracks cut (backwards.map CachedControl.id) st.2) :
    Tracks cut [] (freeFrom h.logged cards s backwards failure st).2.2 := by
  induction backwards generalizing failure st with
  | nil => exact ht
  | cons c before ih =>
    rw [freeFrom]
    refine ih _ ?_
    have hremoved := ht.removed (List.mem_cons_self : c.id ∈ (c :: before).map CachedControl.id)
    rwa [List.map_cons, List.erase_cons_head] at hremoved

theorem Tracked.free (ht : Tracked cut s st.2) (h : Handler ε σ) (cards : Cards) :
    Tracked cut (s.free h.logged cards st).2.1 (s.free h.logged cards st).2.2.2 where
  tidy := .empty ht.tidy.order rfl
  tracks := by
    refine tracks_freeFrom h cards s s.controls.elems.reverse none (ht.tracks.perm ?_)
    rw [List.map_reverse]
    exact List.reverse_perm s.ids

/-- **One event** of a tracked session leaves it tracked, whether or not it fails. -/
theorem Tracked.apply (ht : Tracked cut s st.2) (h : Handler ε σ) (cards : Cards) (event : ControlEvent) :
    Tracked cut (s.apply h.logged cards event st).2.1 (s.apply h.logged cards event st).2.2.2 := by
  have hmem : ∀ {s : Session ε} {i c}, s.search? event.id = some (i, c) →
      s.controls.elems[i]? = some c ∧ c.id ∈ s.ids := fun hs =>
    ⟨(search?_eq_some hs).2, mem_ids.mpr ⟨_, List.mem_of_getElem? (search?_eq_some hs).2, rfl⟩⟩
  let J (s : Session ε) (st : σ × List HandlerCall) : Prop := Tracked cut s st.2
  refine leaves_const.mp (apply_rule (J := J) (E := fun _ => J) (fun hJ _ => hJ) (fun _ _ => ht)
    (fun {i c} _ hs => leaves_const.mpr ⟨ht.tidy.eraseIdx i, ?_⟩)
    (fun {i controls} _ hi => leaves_const.mpr ⟨ht.tidy.insert hi, ?_⟩)
    (fun {s st i c} _ hJ hs => leaves_const.mpr ⟨hJ.tidy, ?_⟩) ht)
  · rw [ids_without ht.tidy.nodup (hmem hs).1]
    exact ht.tracks.removed (hmem hs).2
  · exact (ht.tracks.added (ht.tidy.not_mem_of_insert hi)).perm (ids_insert hi)
  · exact hJ.tracks.changed (hmem hs).2 (EventMask.isRemove_changes event.mask)

theorem Tracked.handleEvents (ht : Tracked cut s st.2) (h : Handler ε σ) (cards : Cards) :
    Tracked cut (s.handleEvents h.logged cards st).2.2.1 (s.handleEvents h.logged cards st).2.2.2.2 := by
  have hupkeep : Upkeep h.logged (fun _ _ => True) (fun _ s st => Tracked cut s st.2)
      (fun _ _ s st => Tracked cut s st.2) :=
    { quiet := fun hJ _ => hJ
      broken := fun hJ _ => hJ
      event := fun {_ cards' _ _ event} hJ _ _ => leaves_const.mpr (hJ.apply h cards' event) }
  exact leaves_const.mp (drain_rule hupkeep (fun _ _ => trivial) ht)

/-! ### Loading -/

/-- **The handler interrupts an announcement**: it refuses a control while others are still to be told. -/
def Interrupted (h : Handler ε σ) (cards : Cards) (s : Session ε) : List (CachedControl ε) → σ → Prop
  | [], _ => False
  | c :: rest, st =>
    match h.added cards s c st with
    | (.error _, _) => rest ≠ []
    | (.ok (), st) => Interrupted h cards s rest st

/-- **A load is cut short**: the cache refuses one of the controls that the card has, so that none is told, or
the handler interrupts the announcement. -/
inductive CutShort (h : Handler ε σ) (cards : Cards) (s : Session ε) (st : σ) : Prop where
  | refused {e : Error} {controls : SortedIndex (CachedControl ε)} (hempty : s.controls.elems = [])
      (hfill : fill s.controls (s.line.listing cards) = (.error e, controls))
  | interrupted {controls : SortedIndex (CachedControl ε)} (hempty : s.controls.elems = [])
      (hfill : fill s.controls (s.line.listing cards) = (.ok (), controls))
      (hstop : Interrupted h cards { s with controls } controls.elems st)

/-- **An announcement** tells of the first of the controls, and of all if it is not interrupted. -/
theorem announce_logged (h : Handler ε σ) (cards : Cards) (s : Session ε) (controls : List (CachedControl ε))
    (st : σ × List HandlerCall) : ∃ told rest, controls = told ++ rest ∧
      (announce h.logged cards s controls st).2.2 = st.2 ++ (told.map CachedControl.id).map .added ∧
      (rest ≠ [] ↔ Interrupted h cards s controls st.1) := by
  induction controls generalizing st with
  | nil => exact ⟨[], [], rfl, by simp [announce], by simp [Interrupted]⟩
  | cons c controls ih =>
    have hadded : h.logged.added cards s c st =
      ((h.added cards s c st.1).1, (h.added cards s c st.1).2, st.2 ++ [.added c.id]) := rfl
    rw [announce, hadded, Interrupted]
    rcases h.added cards s c st.1 with ⟨e | u, st'⟩
    · exact ⟨[c], controls, rfl, rfl, .rfl⟩
    · obtain ⟨told, rest, rfl, hlog, hrest⟩ := ih (st', st.2 ++ [.added c.id])
      exact ⟨c :: told, rest, rfl, by simpa using hlog, hrest⟩

theorem length_le_fill (controls : SortedIndex (CachedControl ε)) (ids : List ControlId) :
    controls.elems.length ≤ (fill controls ids).2.elems.length := by
  induction ids generalizing controls with
  | nil => exact Nat.le_refl _
  | cons id ids ih =>
    rw [fill]
    split
    · exact Nat.le_refl _
    · next i next hi =>
      have hone := (SortedIndex.insert_perm hi).2.length_eq
      have hrest := ih next
      rw [List.length_cons] at hone
      omega

/-- The first control is taken, so a fill that fails leaves something behind. -/
theorem elems_ne_nil_of_fill {controls controls' : SortedIndex (CachedControl ε)} {ids : List ControlId}
    {e : Error} (hempty : controls.elems = []) (hf : fill controls ids = (.error e, controls')) :
    controls'.elems ≠ [] := by
  cases ids with
  | nil => exact nomatch congrArg Prod.fst hf
  | cons id ids =>
    have hsearch : controls.search (.ofId id) = .vacant 0 := by rw [SortedIndex.search, hempty]; rfl
    rw [fill, SortedIndex.insert, hsearch] at hf
    have hlength := length_le_fill { controls with elems := controls.elems.insertIdx 0 (.ofId id) } ids
    rw [congrArg Prod.snd hf, List.insertIdx_zero, List.length_cons] at hlength
    exact List.length_pos_iff.mp (Nat.lt_of_lt_of_le (Nat.succ_pos _) hlength)

/-- **Loading** leaves the session tracked, as cut short if the load is. -/
theorem Tracked.load (ht : Tracked cut s st.2) (h : Handler ε σ) (cards : Cards) :
    Tracked (cut ∨ s.CutShort h cards st.1) (s.load h.logged cards st).2.1
      (s.load h.logged cards st).2.2.2 := by
  by_cases hempty : s.controls.elems = []
  · have hids : s.ids = [] := by rw [ids, hempty, List.map_nil]
    have htracks : Tracks cut [] st.2 := hids ▸ ht.tracks
    have htidy : Tidy (fill s.controls (s.line.listing cards)).2 := lasting_tidy.fill ht.tidy _
    rw [Session.load, if_pos (by rw [hempty]; rfl)]
    rcases hfill : fill s.controls (s.line.listing cards) with ⟨e | u, controls⟩
    · -- what was put in before the refusal stays in the cache, and is told of to nobody
      rw [hfill] at htidy
      refine ⟨htidy, (htracks.silent (controls.elems.map CachedControl.id) htidy.nodup).congr ?_⟩
      have hleft : controls.elems.map CachedControl.id ≠ [] :=
        fun hno => elems_ne_nil_of_fill hempty hfill (List.map_eq_nil_iff.mp hno)
      exact ⟨fun _ => .inr (.refused hempty hfill), fun _ => .inr hleft⟩
    · rw [hfill] at htidy
      obtain ⟨told, rest, helems, hlog, hrest⟩ :=
        announce_logged h cards { s with controls } controls.elems st
      have hids : controls.elems.map CachedControl.id =
          told.map CachedControl.id ++ rest.map CachedControl.id := by
        rw [helems, List.map_append]
      have hnodup := hids ▸ htidy.nodup
      have hall := (htracks.told _ (List.nodup_append.mp hnodup).1).silent _ hnodup
      refine ⟨htidy, ?_⟩
      show Tracks _ (controls.elems.map CachedControl.id)
        (announce h.logged cards { s with controls } controls.elems st).2.2
      rw [hlog, hids]
      refine hall.congr (or_congr_right ?_)
      rw [Ne, List.map_eq_nil_iff]
      refine ⟨fun hne => .interrupted hempty hfill (hrest.mp hne), fun hcut => hrest.mpr ?_⟩
      rcases hcut with ⟨-, hfill'⟩ | ⟨-, hfill', hstop⟩
      · cases hfill.symm.trans hfill'
      · obtain ⟨-, rfl⟩ := Prod.mk.inj (hfill.symm.trans hfill')
        exact hstop
  · rw [Session.load, if_neg (by rwa [List.isEmpty_iff])]
    refine ⟨ht.tidy, ht.tracks.congr (or_iff_left ?_).symm⟩
    rintro (⟨h', -⟩ | ⟨h', -, -⟩) <;> exact hempty h'

/-! ## Sessions that are driven -/

/-- **A session is driven through one handler**: it is loaded, handles events and is freed in any order, with
any cards at the other end, and its order and what the application keeps may change; between the calls the state
of the handler may change at will.  `cut` holds if a load was cut short. -/
inductive Driven (h : Handler ε σ) : (cut : Prop) → Session ε → σ × List HandlerCall → Prop where
  | opened {s : Session ε} (hempty : s.controls.elems = []) (horder : CachedControl.Lawful s.controls.compare)
      (st : σ) : Driven h False s (st, [])
  | loaded {cut : Prop} {s : Session ε} {st : σ × List HandlerCall} (hd : Driven h cut s st) (cards : Cards) :
      Driven h (cut ∨ s.CutShort h cards st.1) (s.load h.logged cards st).2.1 (s.load h.logged cards st).2.2
  | handled {cut : Prop} {s : Session ε} {st : σ × List HandlerCall} (hd : Driven h cut s st) (cards : Cards) :
      Driven h cut (s.handleEvents h.logged cards st).2.2.1 (s.handleEvents h.logged cards st).2.2.2
  | freed {cut : Prop} {s : Session ε} {st : σ × List HandlerCall} (hd : Driven h cut s st) (cards : Cards) :
      Driven h cut (s.free h.logged cards st).2.1 (s.free h.logged cards st).2.2
  | reordered {cut : Prop} {s s' : Session ε} {st : σ × List HandlerCall}
      {compare : CachedControl ε → CachedControl ε → Ordering} (hd : Driven h cut s st)
      (horder : CachedControl.Lawful compare) (hs : s.setCompare compare = .ok s') : Driven h cut s' st
  | watched {cut : Prop} {s s' : Session ε} {st : σ × List HandlerCall} {id listener note}
      (hd : Driven h cut s st) (hs : s.update? id ({ · with listener, note }) = some s') : Driven h cut s' st
  | noted {cut : Prop} {s : Session ε} {st : σ × List HandlerCall} (hd : Driven h cut s st)
      (listener : Option (Listener SessionView ε)) (note : Option Int64) :
      Driven h cut { s with listener, note } st
  | elsewhere {cut : Prop} {s : Session ε} {st : σ} {log : List HandlerCall} (hd : Driven h cut s (st, log))
      (st' : σ) : Driven h cut s (st', log)

/-- **A driven session is tracked.** -/
theorem Driven.tracked (hd : Driven h cut s st) : Tracked cut s st.2 := by
  induction hd with
  | @opened s hempty horder st =>
    have hids : s.ids = [] := by rw [ids, hempty, List.map_nil]
    refine ⟨.empty horder hempty, hids ▸ ⟨.nil, fun id hid => absurd hid not_announced_nil, ?_⟩⟩
    simp [Paired.nil]
  | loaded hd cards ih => exact ih.load h cards
  | handled hd cards ih => exact ih.handleEvents h cards
  | freed hd cards ih => exact ih.free h cards
  | @reordered cut s s' st compare hd horder hs ih =>
    obtain ⟨controls, hcontrols, rfl⟩ := setCompare_eq_ok hs
    exact ⟨ih.tidy.setCompare horder hcontrols,
      ih.tracks.perm ((SortedIndex.perm_setCompare hcontrols).map _)⟩
  | @watched cut s s' st id listener note hd hs ih =>
    obtain ⟨⟨i, c⟩, -, rfl⟩ := Option.map_eq_some_iff.mp hs
    have hids := SortedIndex.map_update CachedControl.id ({ · with listener, note }) (fun _ => rfl) s.controls i
    exact ⟨ih.tidy.update i listener note, ih.tracks.perm (.of_eq hids)⟩
  | noted hd listener note ih => exact ⟨ih.tidy, ih.tracks⟩
  | elsewhere hd st' ih => exact ih

/-- **The calls of a handler are paired**, once the session is closed, exactly if no load was cut short. -/
theorem Driven.paired_iff (hd : Driven h cut s st) :
    (¬ cut → Paired st.2) ∧ ∀ cards, Paired (s.close h.logged cards st).2.2.2 ↔ ¬ cut := by
  refine ⟨fun hcut => (hd.tracked.tracks.whole.mpr hcut).1, fun cards => ?_⟩
  have hfreed := (hd.tracked.free h cards).tracks.whole
  have hids : (s.free h.logged cards st).2.1.ids = [] := rfl
  rw [hids] at hfreed
  exact ⟨fun hp => hfreed.mp ⟨hp, nofun⟩, fun hcut => (hfreed.mpr hcut).1⟩

/-! ### Two controls -/

/-- A card with two controls. -/
def twoControls : Cards :=
  .ofList [("card", [(.mixer 1 "Bass" 0, .boolean 1), (.mixer 2 "Treble" 0, .boolean 1)])]

/-- A handler that refuses to hear of the addition of one control, by its number. -/
def refusing (numid : Nat) : Handler Unit Unit where
  added _ _ c st := (if c.id.numid = numid then .error (.invalid "refused") else .ok (), st)
  changed _ _ _ _ st := (.ok (), st)

/-- The session of the application over that card. -/
def overControls : Session Unit := .ofLine ⟨"card", 0, 1⟩

/-- If the last control is refused, all were told of: the calls stay paired. -/
theorem Driven.paired_iff_last : ∃ cut s st, Driven (refusing 2) cut s st ∧ ¬ cut ∧ s.count = 2 ∧ Paired st.2 ∧
    ∀ cards, Paired (s.close (refusing 2).logged cards st).2.2.2 := by
  have hopened : Driven (refusing 2) False overControls ((), []) :=
    .opened rfl CachedControl.lawful_byDescription ()
  have hloaded := hopened.loaded twoControls
  have hcut : ¬ (False ∨ overControls.CutShort (refusing 2) twoControls ()) := by
    have hall : fill overControls.controls (overControls.line.listing twoControls) =
      (.ok (), ⟨[.ofId (.mixer 1 "Bass" 0), .ofId (.mixer 2 "Treble" 0)], _⟩) := rfl
    rintro (hno | ⟨-, hfill⟩ | ⟨-, hfill, hstop⟩)
    · exact hno
    · exact nomatch hall.symm.trans hfill
    · obtain ⟨-, rfl⟩ := Prod.mk.inj (hall.symm.trans hfill)
      exact hstop rfl
  have hpaired := hloaded.paired_iff
  exact ⟨_, _, _, hloaded, hcut, by decide +kernel, hpaired.1 hcut, fun cards => (hpaired.2 cards).mpr hcut⟩

/-- **Not every load tells of all controls**: if the first of two is refused, the second is told its removal,
and nobody was told that it was added. -/
theorem Driven.unpaired : ¬ ∀ (h : Handler Unit Unit) (cut : Prop) (s : Session Unit)
    (st : Unit × List HandlerCall) (cards : Cards), Driven h cut s st →
      Paired (s.close h.logged cards st).2.2.2 := by
  intro hall
  have hopened : Driven (refusing 1) False overControls ((), []) :=
    .opened rfl CachedControl.lawful_byDescription ()
  have hpaired := hall _ _ _ _ twoControls (hopened.loaded twoControls)
  have hlog : (((overControls.load (refusing 1).logged twoControls ((), [])).2.1).close (refusing 1).logged
      twoControls (overControls.load (refusing 1).logged twoControls ((), [])).2.2).2.2.2 =
    [.added (.mixer 1 "Bass" 0), .changed (.mixer 2 "Treble" 0) .remove,
      .changed (.mixer 1 "Bass" 0) .remove] := by
    decide +kernel
  rw [hlog] at hpaired
  obtain ⟨before, after, hcalls, -⟩ := hpaired.announced [.added (.mixer 1 "Bass" 0)] _ _ _ rfl
  have hmem : HandlerCall.added (.mixer 2 "Treble" 0) ∈ [HandlerCall.added (.mixer 1 "Bass" 0)] := by
    rw [hcalls]
    exact List.mem_append_right _ List.mem_cons_self
  exact absurd hmem (by decide)

end Session

end SoundDesk
