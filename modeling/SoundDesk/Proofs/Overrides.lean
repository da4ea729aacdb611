import SoundDesk.Proofs.Resolutions

/-!
# Proofs/Overrides — whether a type comes from the module that its definition names

    cleared · resolved a ─▸ program · resolved b, lib /x.so ─▸ /x.so · resolved a, lib /x.so ─▸ program
              └────────────── is kept under its name, and answers ──────────────────────────────┘

A definition may name the module of its type, and a type that is looked up anew comes from there.  What is
kept goes by the name of the entry point alone: a name that was resolved since the last clearing is answered
with what was found then.  So the request that resolved a name first decides for all later ones
(`Registry.keptPlace?`, `Registry.Run.overrides_iff`).
-/

namespace SoundDesk

variable {E σ : Type}

/-- The modules of a loader report the path that they were loaded from. -/
def Loader.Reports (loader : Loader E σ) : Prop :=
  ∀ path st m, (loader path st).1 = .ok m → m.path = path

/-- What was found comes from the module at a path. -/
def Found.From (found : Found E) (path : OsPath) : Prop :=
  found.source = .module ∧ ∃ m, found.module = some m ∧ m.path = path

namespace Registry

/-! ## The place where a type was looked for -/

/-- **The place of a name**, if a deed resolved it: the path of the module in which it was looked for, or
none if it was found in the program. -/
def Deed.place? (r : Registry E σ) (name : String) : Deed E → Option (Option OsPath)
  | .resolved type d (.ok _) _ =>
    if entryName type d = name then some (r.module? type name (d.bind TypeDefinition.lib)) else none
  | _ => none

/-- The place that the first deed to resolve a name looked at. -/
def firstPlace? (r : Registry E σ) (deeds : List (Deed E)) (name : String) : Option (Option OsPath) :=
  deeds.findSome? (Deed.place? r name)

/-- **The place that a kept name comes from**, if it is kept: the one that the first request to resolve it since
the last clearing looked at. -/
def keptPlace? (r : Registry E σ) (past : List (Deed E)) (name : String) : Option (Option OsPath) :=
  if r.settings.keepLoaded then r.firstPlace? (since past) name else none

/-- What was found comes from a place: from the module there, and from no other. -/
def Agree (found : Found E) (place : Option OsPath) : Prop := ∀ path, found.From path ↔ place = some path

variable {r : Registry E σ} {type name : String} {path : OsPath} {d : Option TypeDefinition} {st : σ} {found : Found E}

theorem source_of_load (h : (r.load type path name st).1 = .ok found) : found.source = .module := by
  unfold load at h
  split at h
  · exact nomatch h
  · split at h
    · rw [← Except.ok.inj h]
    · exact nomatch h

theorem agree_of_load (hr : r.loader.Reports) (h : (r.load type path name st).1 = .ok found) :
    Agree found (some path) := by
  obtain ⟨m, hload, hm⟩ := module_of_load name h
  have hpath : m.path = path := hr path st m hload
  intro path'
  rw [Option.some.injEq, ← hpath]
  constructor
  · rintro ⟨-, m', hm', rfl⟩
    rw [Option.some.inj (hm.symm.trans hm')]
  · rintro rfl
    exact ⟨source_of_load h, m, hm, rfl⟩

/-- **What is found comes from where it was looked for.** -/
theorem agree_of_find (hr : r.loader.Reports) {lib : Option OsPath}
    (h : (r.find type name lib st).1 = .ok found) : Agree found (r.module? type name lib) := by
  unfold find at h
  unfold module?
  split at h
  · exact agree_of_load hr h
  · split at h
    · next linked hlinked =>
      rw [hlinked, ← Except.ok.inj h]
      exact fun path => ⟨fun hfrom => absurd hfrom.1 (source_of_linked name hlinked), fun hnone => by cases hnone⟩
    · next hlinked =>
      rw [hlinked]
      exact agree_of_load hr h

/-! ## The first request decides -/

theorem firstPlace?_append (deeds : List (Deed E)) (deed : Deed E) :
    r.firstPlace? (deeds ++ [deed]) name = (r.firstPlace? deeds name).or (deed.place? r name) := by
  rw [firstPlace?, List.findSome?_append, firstPlace?, List.findSome?_singleton]

/-- What a request finds that looks a name up anew comes from the place that it looks at. -/
theorem rel_deed (hr : r.loader.Reports) (h : r.kept.get? name = none) :
    Option.Rel Agree (first? [r.deed type d st] name) ((r.deed type d st).place? r name) := by
  rw [deed]
  cases hanswer : (r.resolve type d st).1 with
  | error e => exact .none
  | ok answer =>
    rw [Deed.place?, first?_ok]
    by_cases hname : entryName type d = name
    · subst hname
      obtain ⟨found, hfind, rfl⟩ := resolve_ok_of_missing h hanswer
      rw [if_pos rfl, if_pos rfl]
      exact .some (agree_of_find hr hfind)
    · -- another name is answered, from what is kept or not
      have hother : answer.entryName = entryName type d := by
        cases hkept : r.kept.get? (entryName type d) with
        | none => exact ((looksUp_of_missing hkept).fresh answer hanswer).2
        | some found =>
          rw [resolve_of_kept hkept] at hanswer
          rw [← Except.ok.inj hanswer]
      rw [if_neg hname, if_neg (hother ▸ Ne.symm hname)]
      exact .none

theorem kept_resolve : (r.resolve type d st).2.1 = { r with kept := (r.resolve type d st).2.1.kept } := by
  cases hkept : r.kept.get? (entryName type d) with
  | some found => rw [resolve_of_kept hkept]
  | none =>
    rw [resolve_of_missing hkept]
    rcases r.find type (entryName type d) (d.bind TypeDefinition.lib) st with ⟨e | found, st'⟩
    · rfl
    · simp only [keep]
      split <;> rfl

namespace Run

variable {fresh : Registry E σ} {past : List (Deed E)}

/-- A run changes nothing but what is kept. -/
theorem eq_kept (h : Run fresh past r) : r = { fresh with kept := r.kept } := by
  induction h with
  | start => rfl
  | cleared h ih => rw [clear, ih]
  | resolved h type d st ih =>
    rw [kept_resolve]
    generalize ((Registry.resolve _ type d st).2.1).kept = kept
    rw [ih]

/-- **What is kept comes from the place that was looked at first.** -/
theorem rel_kept (hloader : fresh.loader.Reports) (h : Run fresh past r) (name : String) :
    Option.Rel Agree (r.kept.get? name) (fresh.keptPlace? past name) := by
  cases hkeep : fresh.settings.keepLoaded with
  | false =>
    rw [h.kept_eq_empty hkeep, keptPlace?, hkeep]
    exact .none
  | true =>
    rw [keptPlace?, hkeep, if_pos rfl]
    induction h with
    | start h => rw [h]; exact .none
    | cleared h ih => rw [since_cleared]; exact .none
    | @resolved past r h type d st ih =>
      rw [since_deed, firstPlace?_append, get?_resolve name (h.settings ▸ hkeep)]
      revert ih
      rcases hkept : r.kept.get? name with _ | found <;>
        rcases fresh.firstPlace? (since past) name with _ | place <;> intro ih
      · have hreports : r.loader.Reports := by rw [h.eq_kept]; exact hloader
        have hplace : (r.deed type d st).place? r name = (r.deed type d st).place? fresh name := by
          rw [h.eq_kept]; rfl
        exact hplace ▸ rel_deed hreports hkept
      · cases ih
      · cases ih
      · exact ih

/-- **A named module is where a type comes from** exactly if no other place was looked at first.  After any run,
with a loader whose modules report where they were loaded from, a type whose definition names a module and that
is resolved comes from that module if and only if its name is not kept, or the first request since the last
clearing that resolved the name looked for it there.  If the name is kept, what that request found is the
answer. -/
theorem overrides_iff (hloader : fresh.loader.Reports) (h : Run fresh past r) {answer : Resolved E}
    (hlib : d.bind TypeDefinition.lib = some path) (hanswer : (r.resolve type d st).1 = .ok answer) :
    (answer.toFound.From path ↔
      ∀ place, fresh.keptPlace? past (entryName type d) = some place → place = some path) ∧
    (answer.cached = (fresh.keptPlace? past (entryName type d)).isSome) ∧
    (answer.cached = true → first? (since past) (entryName type d) = some answer.toFound) := by
  have hrel := h.rel_kept hloader (entryName type d)
  have hrecalled := h.get?_kept
  revert hrel hrecalled
  rcases hkept : r.kept.get? (entryName type d) with _ | found <;>
    rcases hplace : fresh.keptPlace? past (entryName type d) with _ | place <;> intro hrel hrecalled
  · have hreports : r.loader.Reports := by rw [h.eq_kept]; exact hloader
    obtain ⟨found, hfind, rfl⟩ := resolve_ok_of_missing hkept hanswer
    have hagree := agree_of_find hreports hfind
    rw [hlib] at hagree
    exact ⟨iff_of_true ((hagree path).mpr rfl) nofun, rfl, nofun⟩
  · cases hrel
  · cases hrel
  · rw [resolve_of_kept hkept] at hanswer
    obtain rfl := Except.ok.inj hanswer
    have hagree : Agree found place := by cases hrel; assumption
    have hkeep : fresh.settings.keepLoaded = true := by
      by_contra hkeep
      rw [keptPlace?, if_neg hkeep] at hplace
      cases hplace
    refine ⟨(hagree path).trans ⟨fun heq _ h => Option.some.inj h ▸ heq, fun hall => hall place rfl⟩, rfl, ?_⟩
    rw [← hrecalled hkeep, hkept]
    exact fun _ => rfl

end Run

theorem reports_counting : counting.loader.Reports := by
  intro path st m h
  simp only [counting] at h
  split at h
  · rw [← Except.ok.inj h]
  · exact nomatch h

/-- Two types share the name of their entry point, and each definition names a module of its own: what the
first one was loaded from answers for both. -/
theorem overrides_iff_sharing : ∃ past r answer, counting.Run past r ∧ counting.loader.Reports ∧
    (r.resolve "b" (sharing (some "/n.so")) 9).1 = .ok answer ∧ answer.cached = true ∧
    answer.toFound.From "/m.so" ∧ ¬ answer.toFound.From "/n.so" := by
  have hfresh : counting.Run [] counting := .start rfl
  have hrun := (hfresh.resolved "none" none 0).resolved "a" (sharing (some "/m.so")) 1
  have hplace : counting.keptPlace? ([] ++ [counting.deed "none" none 0] ++
      [(counting.resolve "none" none 0).2.1.deed "a" (sharing (some "/m.so")) 1]) "_open" =
        some (some (.ofText "/m.so")) := by decide +kernel
  have hlib : (sharing (some "/n.so")).bind TypeDefinition.lib = some (.ofText "/n.so") := rfl
  have hanswer : (((counting.resolve "none" none 0).2.1.resolve "a" (sharing (some "/m.so")) 1).2.1.resolve
      "b" (sharing (some "/n.so")) 9).1 = .ok _ := rfl
  have hother := hrun.overrides_iff reports_counting hlib hanswer
  refine ⟨_, _, _, hrun, reports_counting, hanswer, rfl, ⟨rfl, _, rfl, rfl⟩, fun hfrom => ?_⟩
  exact absurd (hother.1.mp hfrom _ hplace) (by decide)

/-- **A definition does not always name the module that its type comes from**: a built-in type that was resolved
before stays the answer under its name. -/
theorem overrides_ignored : ¬ ∀ (fresh : Registry Nat Nat) (past : List (Deed Nat)) (r : Registry Nat Nat),
    fresh.loader.Reports → fresh.Run past r → ∀ (type : String) (d : Option TypeDefinition) (st : Nat)
      (path : OsPath) (answer : Resolved Nat), d.bind TypeDefinition.lib = some path →
      (r.resolve type d st).1 = .ok answer → answer.toFound.From path := by
  intro hall
  have hfresh : counting.Run [] counting := .start rfl
  have hfrom := hall counting _ _ reports_counting (hfresh.resolved "none" none 0) "none"
    (some ⟨some "/m.so", none, none⟩) 1 "/m.so" _ rfl rfl
  exact nomatch hfrom.1

end Registry

end SoundDesk
