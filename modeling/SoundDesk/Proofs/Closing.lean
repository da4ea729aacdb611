import SoundDesk.Proofs.Connections
import SoundDesk.Proofs.Delivery
import SoundDesk.Proofs.Notices
import SoundDesk.Proofs.Registered

/-!
# Proofs/Closing — closing is complete, whatever fails in it

    slot 0: controls, last to first ─▸ line          slot 1: …          elements that are left, last to first

Closing performs one act after the other and stops at none of them; the acts on raw controls are known before it
starts (`Mixer.schedule`), and what is left of the elements is known when they are done.  The result is the
first failure (`Mixer.Closes.performed`), and every element ends (`Mixer.Closes.ended`).
-/

namespace SoundDesk

open Delivery

variable {ε π σ : Type}

/-! ## The first failure -/

namespace Delivery

variable {E X : Type} (step : E → X → Except Error Unit × X)

/-- The failure of a step, if it failed. -/
def failure? : Except Error Unit → Option Error
  | .error e => some e
  | .ok () => none

/-- The first failure among items that are handled one by one, whatever each of them answers. -/
def firstFailure : List E → X → Option Error
  | [], _ => none
  | item :: rest, x => (failure? (step item x).1).or (firstFailure rest (step item x).2)

variable {step} {items items' : List E} {x : X}

theorem firstFailure_append : firstFailure step (items ++ items') x =
    (firstFailure step items x).or (firstFailure step items' (deliver step items x)) := by
  induction items generalizing x with
  | nil => rfl
  | cons item rest ih => rw [List.cons_append, firstFailure, ih, firstFailure, Option.or_assoc, deliver_cons]

theorem first_eq_or (failure : Option Error) (r : Except Error Unit) :
    Error.first failure r = failure.or (failure? r) := by
  rcases failure with _ | e
  · rcases r with e | u <;> rfl
  · rfl

theorem failure?_outcome (failure : Option Error) : failure? (Error.outcome failure) = failure := by
  cases failure <;> rfl

end Delivery

namespace Mixer

/-! ## Acts of closing -/

/-- **What closing does**, one thing after the other. -/
inductive Act (ε : Type) where
  /-- A session reports its last control as removed. -/
  | reported (slot : Nat) (s : Session ε) (c : CachedControl ε)
  /-- A line is closed. -/
  | closed (line : Line)
  /-- An element that is left is removed. -/
  | dropped (id : ElementId)

/-- **Perform** an act. -/
def Act.perform (p : Provider ε π) : Act ε → Cards × Board ε π → Except Error Unit × (Cards × Board ε π)
  | .reported slot s c, (cards, b) =>
    let (r, b) := (fanout p slot).changed cards s c .remove b
    (r, cards, b)
  | .closed line, (cards, b) => (.ok (), line.close cards, b)
  | .dropped id, (cards, b) =>
    let (r, stage) := b.1.remove id
    (r, cards, stage, b.2)

/-- What elements notice of an act. -/
def Act.notices (p : Provider ε π) : Act ε → Cards × Board ε π → List (Notice ε)
  | .reported slot s c, (cards, b) => controlRemovedLog p cards s.line (reference slot s c) b
  | .closed _, _ => []
  | .dropped id, (_, b) => (CoreCommand.remove id).notices b.1

/-- What elements notice of acts, one after the other. -/
def actsLog (p : Provider ε π) : List (Act ε) → Cards × Board ε π → List (Notice ε)
  | [], _ => []
  | act :: rest, x => act.notices p x ++ actsLog p rest (act.perform p x).2

/-- A session reports controls, given last first, each while it and those before it are still cached. -/
def reports (slot : Nat) (s : Session ε) : List (CachedControl ε) → List (Act ε)
  | [] => []
  | c :: before =>
    .reported slot { s with controls := { s.controls with elems := (c :: before).reverse } } c ::
      reports slot s before

/-- **The acts on raw controls**, slot by slot from `slot` on: every cached control is reported, from the last
to the first, and then the line is closed. -/
def schedule : (slot : Nat) → List (Session ε) → List (Act ε)
  | _, [] => []
  | slot, s :: rest =>
    reports slot s s.controls.elems.reverse ++ .closed s.line :: schedule (slot + 1) rest

/-- What acts are performed on. -/
def setup (m : Mixer ε π) (w : World ε) : Cards × Board ε π := (w.cards, m.board w.app)

/-- The elements that are left when the raw controls are done, last first. -/
def leftover (m : Mixer ε π) (w : World ε) : List ElementId :=
  (deliver (Act.perform m.provider) (schedule 0 m.sessions) (m.setup w)).2.1.core.ids.reverse

/-- **The acts of closing.** -/
def closing (m : Mixer ε π) (w : World ε) : List (Act ε) :=
  schedule 0 m.sessions ++ (m.leftover w).map .dropped

/-- What the acts of closing leave. -/
def closed (m : Mixer ε π) (w : World ε) : Cards × Board ε π :=
  deliver (Act.perform m.provider) (m.closing w) (m.setup w)

/-- What elements notice of closing. -/
def closingLog (m : Mixer ε π) (w : World ε) : List (Notice ε) := actsLog m.provider (m.closing w) (m.setup w)

/-! ## Closing is its acts -/

variable {p : Provider ε π} {m : Mixer ε π} {w : World ε} {slot : Nat} {s : Session ε} {cards : Cards}
  {b : Board ε π} {failure : Option Error}

/-- To free a cache is to report its controls. -/
theorem freeFrom_eq (p : Provider ε π) (slot : Nat) (s : Session ε) (cards : Cards)
    (backwards : List (CachedControl ε)) (failure : Option Error) (b : Board ε π) :
    (failure.or (firstFailure (Act.perform p) (reports slot s backwards) (cards, b)),
      deliver (Act.perform p) (reports slot s backwards) (cards, b)) =
    let y := Session.freeFrom (fanout p slot) cards s backwards failure b
    (y.1, cards, y.2) := by
  induction backwards generalizing failure b with
  | nil => exact congrArg (·, cards, b) Option.or_none
  | cons c before ih =>
    rw [reports, Session.freeFrom, firstFailure, deliver_cons, ← Option.or_assoc, ← first_eq_or]
    exact ih _ _

/-- To close sessions is to go through the schedule. -/
theorem closeSessions_eq (p : Provider ε π) (slot : Nat) (sessions : List (Session ε))
    (failure : Option Error) (cards : Cards) (b : Board ε π) :
    closeSessions p slot sessions failure cards b =
      (failure.or (firstFailure (Act.perform p) (schedule slot sessions) (cards, b)),
        deliver (Act.perform p) (schedule slot sessions) (cards, b)) := by
  induction sessions generalizing slot failure cards b with
  | nil => exact congrArg (·, cards, b) Option.or_none.symm
  | cons s rest ih =>
    have hfree := freeFrom_eq p slot s cards s.controls.elems.reverse none b
    rw [Option.none_or] at hfree
    obtain ⟨hfailure, hleft⟩ := Prod.mk.inj hfree
    rw [closeSessions, Session.close, Session.free, schedule, firstFailure_append, deliver_append, hleft,
      hfailure, firstFailure, deliver_cons]
    dsimp only
    rw [ih, first_eq_or, failure?_outcome, Option.or_assoc]
    rfl

/-- To remove the last element leaves those before it. -/
theorem ids_remove_last {st : Stage ε} {before : List ElementId} {id : ElementId} (hst : st.core.ids.Nodup)
    (hids : st.core.ids = before ++ [id]) : (st.remove id).2.core.ids = before := by
  rw [hids] at hst
  have hfresh : id ∉ before := fun h => (List.nodup_append.mp hst).2.2 _ h _ (List.mem_singleton_self _) rfl
  rw [ids_remove id (hids ▸ hst), hids, List.filter_append, List.filter_eq_self.mpr fun j hj => ?_]
  · simp
  · have hne : j ≠ id := fun h => hfresh (h ▸ hj)
    exact decide_eq_true hne

/-- **To remove what is left** is to drop it, last first, and leaves nothing. -/
theorem removeLast_eq (p : Provider ε π) (cards : Cards) (memory : π) (left : Nat) (failure : Option Error)
    {st : Stage ε} (hst : st.core.ids.Nodup) (hle : st.core.ids.length ≤ left) :
    let acts := st.core.ids.reverse.map Act.dropped
    (failure.or (firstFailure (Act.perform p) acts (cards, st, memory)),
      deliver (Act.perform p) acts (cards, st, memory)) =
        ((removeLast left failure st).1, cards, (removeLast left failure st).2, memory) ∧
      (removeLast left failure st).2.core.ids = [] := by
  induction left generalizing failure st with
  | zero =>
    have hnil : st.core.ids = [] := List.eq_nil_of_length_eq_zero (Nat.le_zero.mp hle)
    rw [hnil]
    exact ⟨congrArg (·, cards, st, memory) Option.or_none, hnil⟩
  | succ left ih =>
    rw [removeLast]
    rcases hl : st.core.elems.last? with _ | e
    · have hnil : st.core.ids = [] := by
        rw [Core.ids, List.getLast?_eq_none_iff.mp hl]
        rfl
      rw [hnil]
      exact ⟨congrArg (·, cards, st, memory) Option.or_none, rfl⟩
    · obtain ⟨before, hbefore⟩ := List.getLast?_eq_some_iff.mp hl
      have hids : st.core.ids = before.map (·.id) ++ [e.id] := by
        rw [Core.ids, hbefore, List.map_append]
        rfl
      have hnext := ids_remove_last hst hids
      have hshort : (st.remove e.id).2.core.ids.length ≤ left := by
        rw [hids, List.length_append, List.length_singleton] at hle
        rw [hnext]
        omega
      obtain ⟨hrest, hempty⟩ := ih (Error.first failure (st.remove e.id).1) (course_remove e.id hst).nodup hshort
      rw [hnext] at hrest
      refine ⟨?_, hempty⟩
      rw [hids, List.reverse_append, List.reverse_singleton, List.singleton_append, List.map_cons, firstFailure,
        deliver_cons, ← Option.or_assoc, ← first_eq_or]
      exact hrest

/-- **An act does what its notices say.** -/
theorem course_act (act : Act ε) {x : Cards × Board ε π} (hx : x.2.1.core.ids.Nodup) :
    Course x.2.1 (act.notices p x) (act.perform p x).2.2.1 := by
  cases act with
  | reported slot s c => exact course_controlRemoved hx
  | closed line => exact .still hx rfl rfl rfl
  | dropped id => exact course_remove id hx

/-- Acts do what their log says. -/
theorem course_acts (acts : List (Act ε)) {x : Cards × Board ε π} (hx : x.2.1.core.ids.Nodup) :
    Course x.2.1 (actsLog p acts x) (deliver (Act.perform p) acts x).2.1 := by
  induction acts generalizing x with
  | nil => exact .still hx rfl rfl rfl
  | cons act rest ih =>
    have hone := course_act (p := p) act hx
    exact hone.trans (ih hone.nodup)

/-! ## The elements of a mixer in use -/

/-- The handlers keep the elements apart. -/
theorem upholds_nodup (p : Provider ε π) : Upholds p fun b => b.1.core.ids.Nodup :=
  upholds_of (fun {cards line ctl} mask id {b} hb => (course_run cards line (p.event ctl mask id b.2) hb).nodup)
    (fun hb => hb) (fun hb => hb) (fun {id _} hb => (course_remove id hb).nodup)

/-- An opening makes elements that are apart. -/
theorem nodup_connect {request : OpenRequest} {d : MixerDefinition} {w w' : World ε}
    (h : connect p request d w = (.ok m, w')) : m.core.ids.Nodup := by
  refine (upholds_nodup p).connect h ?_
  refine Program.run_induction (I := fun o : Opening ε => o.stage.core.ids.Nodup) (fun c o ho => ?_) _
    List.nodup_nil
  cases c with
  | core c => exact (course_perform c ho).nodup
  | taken => exact ho
  | connect endpoint =>
    rw [OpenCommand.perform]
    split
    · exact ho
    · split <;> exact ho

theorem Moves.nodup_ids {x y : Mixer ε π × World ε} (h : Moves x y) (hx : x.1.core.ids.Nodup) :
    y.1.core.ids.Nodup := by
  cases h with
  | handled m w => exact (upholds_nodup m.provider).handleEvents w hx
  | reordered h =>
    obtain ⟨elems, hs, rfl⟩ := setCompare_eq_ok h
    exact ((SortedIndex.perm_setCompare hs).map _).nodup_iff.mpr hx
  | edited h =>
    obtain ⟨i, -, rfl⟩ := edit?_eq_some h
    exact (Core.ids_update _ i).symm ▸ hx
  | ranged h =>
    obtain ⟨e, settings, -, -, h⟩ := setVolumeRange_eq_ok h
    obtain ⟨i, -, rfl⟩ := edit?_eq_some h
    exact (Core.ids_update _ i).symm ▸ hx
  | watched m w listener note => exact hx
  | elsewhere h => exact hx

/-- **No two elements of a mixer in use have one identity.** -/
theorem InUse.nodup_ids (h : InUse m w) : m.core.ids.Nodup := by
  obtain ⟨-, hopened, hlater⟩ := h
  have hall : ∀ {x y : Mixer ε π × World ε}, Later x y → x.1.core.ids.Nodup → y.1.core.ids.Nodup := by
    intro x y h hx
    induction h with
    | refl => exact hx
    | tail _ hmove ih => exact hmove.nodup_ids ih
  exact hall hlater (nodup_connect hopened)

/-! ## Complete closings -/

/-- What an act does to a raw control or a line: the control is reported, with its slot, or the line is
closed. -/
def Act.raw? : Act ε → Option ((Nat × CachedControl ε) ⊕ Line)
  | .reported slot _ c => some (.inl (slot, c))
  | .closed line => some (.inr line)
  | .dropped _ => none

/-- **Closing is complete.**  It is to perform its acts, whatever they answer, and the result is the first
failure among the answers.  Every cached control is reported once, slot by slot and last to first, while it is
the last one cached; every line is closed once.  Every element ends, those that were there and those that are
added on the way: each is removed once, and that is the last it is told.  None is left.  The application comes to what
the calls of the listeners make of it, and listeners that record what they are told record that, and no more. -/
structure Closes (m : Mixer ε π) (w : World ε) : Prop where
  performed : m.close w =
    (Error.outcome (firstFailure (Act.perform m.provider) (m.closing w) (m.setup w)),
      ⟨(m.closed w).1, (m.closed w).2.1.app⟩)
  raw : (m.closing w).filterMap Act.raw? = m.sessions.zipIdx.flatMap fun s =>
    s.1.controls.elems.reverse.map (fun c => .inl (s.2, c)) ++ [.inr s.1.line]
  cached : ∀ slot s c, .reported slot s c ∈ m.closing w → s.controls.elems.getLast? = some c
  apart : m.lines.Pairwise Line.Apart
  ended : ∀ id, Lives (decide (id ∈ m.core.ids)) (heard id (m.closingLog w)) false
  counted : (m.closed w).2.1.core.thrown = m.core.thrown + (m.closingLog w).countP Notice.thrown
  emptied : (m.closed w).2.1.core.ids = []
  replayed : (m.close w).2.app = Notice.replay (m.closingLog w) w.app
  recorded : ∀ tape : ε → Tape, (∀ n ∈ m.closingLog w, n.Records tape) →
    ∃ spoken, tape (m.close w).2.app = tape w.app ++ spoken ∧ ∀ id,
      (spoken.filter (·.1 = id)).map Prod.snd = (heard id (m.closingLog w)).filterMap News.mask?

theorem filterMap_reports (slot : Nat) (s : Session ε) (backwards : List (CachedControl ε)) :
    (reports slot s backwards).filterMap Act.raw? = backwards.map fun c => .inl (slot, c) := by
  induction backwards with
  | nil => rfl
  | cons c before ih => exact congrArg (.inl (slot, c) :: ·) ih

theorem filterMap_schedule (slot : Nat) (sessions : List (Session ε)) :
    (schedule slot sessions).filterMap Act.raw? = (sessions.zipIdx slot).flatMap fun s =>
      s.1.controls.elems.reverse.map (fun c => .inl (s.2, c)) ++ [.inr s.1.line] := by
  induction sessions generalizing slot with
  | nil => rfl
  | cons s rest ih =>
    rw [schedule, List.filterMap_append, filterMap_reports, List.zipIdx_cons, List.flatMap_cons, ← ih,
      List.append_assoc]
    rfl

/-- A control is reported while it is the last one cached. -/
theorem getLast?_of_mem_reports {slot slot' : Nat} {s s' : Session ε} {backwards : List (CachedControl ε)}
    {c : CachedControl ε} (h : .reported slot' s' c ∈ reports slot s backwards) :
    s'.controls.elems.getLast? = some c := by
  induction backwards with
  | nil => cases h
  | cons c' before ih =>
    rcases List.mem_cons.mp h with h | h
    · cases h
      exact List.getLast?_reverse
    · exact ih h

theorem getLast?_of_mem_schedule {slot slot' : Nat} {sessions : List (Session ε)} {s : Session ε}
    {c : CachedControl ε} (h : .reported slot' s c ∈ schedule slot sessions) :
    s.controls.elems.getLast? = some c := by
  induction sessions generalizing slot with
  | nil => cases h
  | cons t rest ih =>
    rcases List.mem_append.mp h with h | h
    · exact getLast?_of_mem_reports h
    · rcases List.mem_cons.mp h with h | h
      · cases h
      · exact ih h

/-- **To close is to perform the acts of closing**, and no element is left then. -/
theorem close_eq (hm : m.core.ids.Nodup) : m.close w =
    (Error.outcome (firstFailure (Act.perform m.provider) (m.closing w) (m.setup w)),
      ⟨(m.closed w).1, (m.closed w).2.1.app⟩) ∧ (m.closed w).2.1.core.ids = [] := by
  have hsessions := closeSessions_eq m.provider 0 m.sessions none w.cards (m.board w.app)
  have hraw := course_acts (p := m.provider) (x := m.setup w) (schedule 0 m.sessions) hm
  rw [Option.none_or] at hsessions
  change closeSessions m.provider 0 m.sessions none w.cards (⟨m.core, w.app⟩, m.memory) =
    (firstFailure _ _ (m.setup w), deliver _ _ (m.setup w)) at hsessions
  rw [closed, closing, leftover, firstFailure_append, deliver_append, close, hsessions]
  generalize firstFailure (Act.perform m.provider) (schedule 0 m.sessions) (m.setup w) = failure
  revert hraw
  rcases deliver (Act.perform m.provider) (schedule 0 m.sessions) (m.setup w) with ⟨cards, stage, memory⟩
  intro hraw
  obtain ⟨hlast, hempty⟩ := removeLast_eq m.provider cards memory stage.core.count failure hraw.nodup
    (Nat.le_of_eq (List.length_map ..))
  obtain ⟨hfailure, hleft⟩ := Prod.mk.inj hlast
  dsimp only at hfailure hleft ⊢
  rw [hfailure, hleft]
  exact ⟨rfl, hempty⟩

/-- **Closing a mixer in use is complete**, whatever its provider does and whoever refuses. -/
theorem close_complete (h : m.InUse w) : Closes m w := by
  obtain ⟨hperformed, hempty⟩ := close_eq (w := w) h.nodup_ids
  have hcourse := course_acts (p := m.provider) (x := m.setup w) (m.closing w) h.nodup_ids
  have hdropped : ((m.leftover w).map (Act.dropped (ε := ε))).filterMap Act.raw? = [] := by simp [Act.raw?]
  have happ : (m.close w).2.app = Notice.replay (m.closingLog w) w.app := by
    rw [hperformed]
    exact hcourse.app
  refine ⟨hperformed, ?_, fun slot s c hmem => ?_, h.apart, fun id => ?_, hcourse.counted, hempty, happ,
    fun tape hrecords => ⟨_, by rw [happ]; exact tape_replay hrecords w.app, fun id => spoken_heard id _⟩⟩
  · rw [closing, List.filterMap_append, filterMap_schedule, hdropped, List.append_nil]
  · rcases List.mem_append.mp hmem with hmem | hmem
    · exact getLast?_of_mem_schedule hmem
    · obtain ⟨id, -, hid⟩ := List.mem_map.mp hmem
      cases hid
  · have hlives := hcourse.lives id
    change Lives _ _ (decide (id ∈ (m.closed w).2.1.core.ids)) at hlives
    rwa [hempty] at hlives

/-- A mixer whose element records what it is told and refuses its removal: closing fails and is complete, and the
removal is all that is recorded. -/
theorem close_complete_refused : ∃ (m : Mixer Tape Unit) (w : World Tape), m.InUse w ∧ Closes m w ∧
    m.core.ids = [⟨"Master", 0⟩] ∧ (m.close w).1 = .error (.invalid "no") ∧
    (m.close w).2.app = [(⟨"Master", 0⟩, .remove)] := by
  have hopened : connect (ByName.provider ()) ⟨"desk", .none⟩ overCard (⟨oneCard, []⟩ : World Tape) =
    (.ok (_ : Mixer Tape Unit), _) := rfl
  have huse := InUse.since (Cards.reached_ofList _) hopened (.single (.edited
    (show edit? _ ⟨"Master", 0⟩ ({ · with
        listener := some fun (e, mask) tape => (.error (.invalid "no"), tape ++ [(e.id, mask)]) }) = some _
      from rfl)))
  exact ⟨_, _, huse, close_complete huse, rfl, rfl, by decide +kernel⟩

end Mixer

end SoundDesk
