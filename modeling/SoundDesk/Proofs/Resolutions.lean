import SoundDesk.Registry
import Mathlib.Data.List.Induction
import Mathlib.Data.String.Basic

/-!
# Proofs/Resolutions — what a registry keeps, and when it calls its loader

The calls of the loader are counted by a registry whose loader keeps a book of them; it answers as the one
without a book does (`Registry.resolve_logged`).  A run is any sequence of resolutions and clearings, between
which the state that the loader acts on may change at will:

    resolved a · resolved b · cleared · resolved a · resolved a · resolved c
                                        └──────────── since ───────────────┘

What is kept at its end is what `since` resolved, each name with what its first success found
(`Registry.Run.get?_kept`), and from this follows what the next call does (`Registry.Run.remembers`).
-/

namespace SoundDesk

variable {E σ : Type}

/-! ## Calls of the loader -/

/-- A call of a loader: the path it was given and what it answered. -/
structure Load (E : Type) where
  path : OsPath
  answer : Except String (Module E)

/-- The loader that also writes down its calls. -/
def Loader.logged (loader : Loader E σ) : Loader E (σ × List (Load E)) := fun path st =>
  ((loader path st.1).1, (loader path st.1).2, st.2 ++ [⟨path, (loader path st.1).1⟩])

namespace Registry

/-- The registry whose loader writes down its calls. -/
def logged (r : Registry E σ) : Registry E (σ × List (Load E)) where
  settings := r.settings
  loader := r.loader.logged
  builtins := r.builtins
  registered := r.registered
  kept := r.kept

variable (r : Registry E σ) (type name : String) (d : Option TypeDefinition) (st : σ) (log : List (Load E))

/-- The calls of the loader while a type is resolved. -/
def loads : List (Load E) := (r.logged.resolve type d (st, [])).2.2.2

/-- The path of the module in which a type is looked for, if it is not part of the program. -/
def module? (lib : Option OsPath) : Option OsPath :=
  match lib with
  | some path => some path
  | none =>
    if (r.linked? name).isSome then none else some (ProviderName.modulePath r.settings.moduleDir type)

/-- The one call that asks for a module, if one is asked for. -/
def asked (lib : Option OsPath) : List (Load E) :=
  (r.module? type name lib).toList.map fun path => ⟨path, (r.loader path st).1⟩

/-- A load is written down once. -/
theorem load_logged (path : OsPath) : r.logged.load type path name (st, log) =
    ((r.load type path name st).1, (r.load type path name st).2, log ++ [⟨path, (r.loader path st).1⟩]) := by
  have hlogged : r.logged.loader path (st, log) =
      ((r.loader path st).1, (r.loader path st).2, log ++ [⟨path, (r.loader path st).1⟩]) := rfl
  rw [load, load, hlogged]
  rcases r.loader path st with ⟨reason | module, st'⟩
  · rfl
  · simp only
    cases module.entry? (ProviderName.symbol name) <;> rfl

/-- What is asked of the loader is written down, and the answer is the same. -/
theorem find_logged (lib : Option OsPath) : r.logged.find type name lib (st, log) =
    ((r.find type name lib st).1, (r.find type name lib st).2, log ++ r.asked type name st lib) := by
  have hlinked : r.logged.linked? name = r.linked? name := rfl
  cases lib with
  | some path => exact r.load_logged type name st log path
  | none =>
    simp only [find, asked, module?, hlinked]
    cases r.linked? name with
    | some found => simp
    | none => exact r.load_logged type name st log _

/-! ## One resolution -/

variable {r type d st}

/-- **A name that is kept** is answered from there. -/
theorem resolve_of_kept {found : Found E} (h : r.kept.get? (entryName type d) = some found) :
    r.resolve type d st = (.ok { toFound := found, entryName := entryName type d, cached := true }, r, st) := by
  simp only [resolve, h]

/-- **A name that is not kept** is looked for, and kept if it was found. -/
theorem resolve_of_missing (h : r.kept.get? (entryName type d) = none) : r.resolve type d st =
    match r.find type (entryName type d) (d.bind TypeDefinition.lib) st with
    | (.error e, st) => (.error e, r, st)
    | (.ok found, st) => (.ok { toFound := found, entryName := entryName type d, cached := false },
        r.keep (entryName type d) found, st) := by
  rcases hfind : r.find type (entryName type d) (d.bind TypeDefinition.lib) st with ⟨e | found, st'⟩ <;>
    simp only [resolve, h, hfind]

/-- What is kept is answered without the loader. -/
theorem loads_of_kept {found : Found E} (h : r.kept.get? (entryName type d) = some found) :
    r.loads type d st = [] := by
  have hlogged : r.logged.kept.get? (entryName type d) = some found := h
  rw [loads, resolve_of_kept hlogged]

/-- What is not kept is looked for with the one call that it needs. -/
theorem loads_of_missing (h : r.kept.get? (entryName type d) = none) :
    r.loads type d st = r.asked type (entryName type d) st (d.bind TypeDefinition.lib) := by
  have hlogged : r.logged.kept.get? (entryName type d) = none := h
  rw [loads, resolve_of_missing hlogged, find_logged]
  rcases r.find type (entryName type d) (d.bind TypeDefinition.lib) st with ⟨e | found, st'⟩ <;> rfl

theorem logged_keep (found : Found E) : r.logged.keep name found = (r.keep name found).logged := by
  unfold keep logged
  cases r.settings.keepLoaded <;> rfl

/-- **The book changes nothing**: with it a registry answers the same, and only the calls are added. -/
theorem resolve_logged : r.logged.resolve type d (st, log) = ((r.resolve type d st).1,
    (r.resolve type d st).2.1.logged, (r.resolve type d st).2.2, log ++ r.loads type d st) := by
  cases h : r.kept.get? (entryName type d) with
  | some found =>
    have hlogged : r.logged.kept.get? (entryName type d) = some found := h
    rw [resolve_of_kept hlogged, resolve_of_kept h, loads_of_kept h, List.append_nil]
  | none =>
    have hlogged : r.logged.kept.get? (entryName type d) = none := h
    rw [resolve_of_missing hlogged, resolve_of_missing h, loads_of_missing h, find_logged]
    rcases r.find type (entryName type d) (d.bind TypeDefinition.lib) st with ⟨e | found, st'⟩
    · rfl
    · simp only [logged_keep]

/-- An entry point of a name that was not kept is the one that was found. -/
theorem resolve_ok_of_missing (h : r.kept.get? (entryName type d) = none) {answer : Resolved E}
    (hanswer : (r.resolve type d st).1 = .ok answer) : ∃ found,
      (r.find type (entryName type d) (d.bind TypeDefinition.lib) st).1 = .ok found ∧
      answer = { toFound := found, entryName := entryName type d, cached := false } := by
  rw [resolve_of_missing h] at hanswer
  rcases hfind : r.find type (entryName type d) (d.bind TypeDefinition.lib) st with ⟨e | found, st'⟩
  · rw [hfind] at hanswer
    cases hanswer
  · rw [hfind] at hanswer
    exact ⟨found, rfl, (Except.ok.inj hanswer).symm⟩

/-- A resolution that fails keeps nothing. -/
theorem resolve_error {e : Error} (h : (r.resolve type d st).1 = .error e) : (r.resolve type d st).2.1 = r := by
  cases hkept : r.kept.get? (entryName type d) with
  | some found => rw [resolve_of_kept hkept]
  | none =>
    rw [resolve_of_missing hkept] at h ⊢
    rcases hfind : r.find type (entryName type d) (d.bind TypeDefinition.lib) st with ⟨e | found, st'⟩
    · rfl
    · rw [hfind] at h
      exact nomatch h

/-- **What is found in a module** was loaded from it. -/
theorem module_of_load {path : OsPath} {found : Found E} (h : (r.load type path name st).1 = .ok found) :
    ∃ m, (r.loader path st).1 = .ok m ∧ found.module = some m := by
  rw [load] at h
  rcases hload : r.loader path st with ⟨reason | m, st'⟩
  · rw [hload] at h
    exact nomatch h
  · rw [hload] at h
    simp only at h
    cases hentry : m.entry? (ProviderName.symbol name) with
    | none => rw [hentry] at h; exact nomatch h
    | some entry =>
      rw [hentry] at h
      exact ⟨m, rfl, by rw [← Except.ok.inj h]⟩

/-- What is part of the program comes from no module. -/
theorem source_of_linked {found : Found E} (h : r.linked? name = some found) : found.source ≠ .module := by
  unfold linked? at h
  split at h
  · rw [← Option.some.inj h]; exact nofun
  · obtain ⟨entry, -, rfl⟩ := Option.map_eq_some_iff.mp h
    exact nofun

/-- What comes from a module was loaded for the occasion. -/
theorem asked_of_module {lib : Option OsPath} {found : Found E} (h : (r.find type name lib st).1 = .ok found)
    (hsource : found.source = .module) :
    ∃ path m, r.asked type name st lib = [⟨path, .ok m⟩] ∧ found.module = some m := by
  unfold find at h
  split at h
  · next path =>
    obtain ⟨m, hload, hm⟩ := module_of_load name h
    exact ⟨path, m, by rw [asked, module?, Option.toList_some, List.map_singleton, hload], hm⟩
  · split at h
    · next linked hlinked =>
      rw [← Except.ok.inj h] at hsource
      exact absurd hsource (source_of_linked name hlinked)
    · next hlinked =>
      obtain ⟨m, hload, hm⟩ := module_of_load name h
      exact ⟨ProviderName.modulePath r.settings.moduleDir type, m, by simp [asked, module?, hlinked, hload], hm⟩

/-- **A type is recalled** if its entry point is answered from what was kept: the loader is not called, and
registry and loader stay as they are. -/
structure Recalls (r : Registry E σ) (found : Found E) (type : String) (d : Option TypeDefinition) (st : σ) :
    Prop where
  answer : r.resolve type d st =
    (.ok { toFound := found, entryName := entryName type d, cached := true }, r, st)
  quiet : r.loads type d st = []

/-- **A type is looked up anew**: with one call of the loader, or none if the name is part of the program and
no module is named.  A module that the entry point comes from was loaded for it, and if the type is not resolved
the registry stays as it is. -/
structure LooksUp (r : Registry E σ) (type : String) (d : Option TypeDefinition) (st : σ) : Prop where
  fresh : ∀ answer, (r.resolve type d st).1 = .ok answer →
    answer.cached = false ∧ answer.entryName = entryName type d
  calls : r.loads type d st = (r.module? type (entryName type d) (d.bind TypeDefinition.lib)).toList.map
    fun path => ⟨path, (r.loader path st).1⟩
  few : (r.loads type d st).length ≤ 1
  linked : d.bind TypeDefinition.lib = none → (r.linked? (entryName type d)).isSome → r.loads type d st = []
  loaded : ∀ answer, (r.resolve type d st).1 = .ok answer → answer.source = .module →
    ∃ path m, r.loads type d st = [⟨path, .ok m⟩] ∧ answer.module = some m
  failed : ∀ e, (r.resolve type d st).1 = .error e → (r.resolve type d st).2.1 = r

theorem recalls_of_kept {found : Found E} (h : r.kept.get? (entryName type d) = some found) :
    r.Recalls found type d st := ⟨resolve_of_kept h, loads_of_kept h⟩

theorem looksUp_of_missing (h : r.kept.get? (entryName type d) = none) : r.LooksUp type d st where
  fresh answer hanswer := by
    obtain ⟨found, -, rfl⟩ := resolve_ok_of_missing h hanswer
    exact ⟨rfl, rfl⟩
  calls := loads_of_missing h
  few := by
    rw [loads_of_missing h, asked, List.length_map]
    cases r.module? type (entryName type d) (d.bind TypeDefinition.lib) <;> simp
  linked hlib hlinked := by
    rw [loads_of_missing h, asked, hlib, module?, if_pos hlinked]
    rfl
  loaded answer hanswer hsource := by
    obtain ⟨found, hfind, rfl⟩ := resolve_ok_of_missing h hanswer
    rw [loads_of_missing h]
    exact asked_of_module (entryName type d) hfind hsource
  failed _ := resolve_error

/-! ## Histories -/

/-- What is done with a registry: a type is resolved, with an answer and with calls of the loader, or what was
kept is forgotten. -/
inductive Deed (E : Type) where
  | resolved (type : String) (d : Option TypeDefinition) (answer : Except Error (Resolved E))
      (loads : List (Load E))
  | cleared

/-- The deed of resolving a type. -/
def deed (r : Registry E σ) (type : String) (d : Option TypeDefinition) (st : σ) : Deed E :=
  .resolved type d (r.resolve type d st).1 (r.loads type d st)

/-- The entry point that a deed resolved, with its name. -/
def Deed.success? : Deed E → Option (String × Found E)
  | .resolved _ _ (.ok answer) _ => some (answer.entryName, answer.toFound)
  | _ => none

/-- The calls of the loader by which a deed resolved a name. -/
def Deed.loadsFor (name : String) : Deed E → List (Load E)
  | .resolved _ _ (.ok answer) loads => if answer.entryName = name then loads else []
  | _ => []

/-- What a deed leaves of the recent past. -/
def Deed.recall (recent : List (Deed E)) : Deed E → List (Deed E)
  | .cleared => []
  | deed => recent ++ [deed]

/-- The deeds since what was kept was last forgotten. -/
def since (past : List (Deed E)) : List (Deed E) := past.foldl Deed.recall []

/-- What was resolved, in order. -/
def successes (deeds : List (Deed E)) : List (String × Found E) := deeds.filterMap Deed.success?

/-- What the first success under a name found. -/
def first? (deeds : List (Deed E)) (name : String) : Option (Found E) := (successes deeds).lookup name

/-- The calls of the loader by which a name was resolved. -/
def loadsFor (name : String) (deeds : List (Deed E)) : List (Load E) := deeds.flatMap (Deed.loadsFor name)

theorem loadsFor_append (name : String) (front back : List (Deed E)) :
    loadsFor name (front ++ back) = loadsFor name front ++ loadsFor name back := List.flatMap_append

/-- **A run**: types are resolved and what was kept is forgotten, in any order, and whenever a type is resolved
the loader may act on any state. -/
inductive Run (fresh : Registry E σ) : List (Deed E) → Registry E σ → Prop where
  | start (h : fresh.kept = .empty) : Run fresh [] fresh
  | resolved {past : List (Deed E)} {r : Registry E σ} (h : Run fresh past r) (type : String)
      (d : Option TypeDefinition) (st : σ) :
      Run fresh (past ++ [r.deed type d st]) (r.resolve type d st).2.1
  | cleared {past : List (Deed E)} {r : Registry E σ} (h : Run fresh past r) :
      Run fresh (past ++ [.cleared]) r.clear

theorem since_cleared (past : List (Deed E)) : since (past ++ [.cleared]) = [] := by
  simp [since, List.foldl_append, Deed.recall]

/-- What was done since the last clearing goes on. -/
theorem since_append (past : List (Deed E)) {recent : List (Deed E)} (h : .cleared ∉ recent) :
    since (past ++ recent) = since past ++ recent := by
  unfold since
  rw [List.foldl_append]
  generalize past.foldl Deed.recall [] = start
  induction recent generalizing start with
  | nil => simp
  | cons deed recent ih =>
    rw [List.mem_cons, not_or] at h
    cases deed with
    | cleared => exact absurd rfl h.1
    | resolved type d answer loads => simp [ih h.2, Deed.recall]

theorem since_deed (past : List (Deed E)) :
    since (past ++ [r.deed type d st]) = since past ++ [r.deed type d st] :=
  since_append past (by simp [deed])

/-- A later deed matters for a name only if it is the first to resolve it. -/
theorem first?_append (deeds : List (Deed E)) (deed : Deed E) (name : String) : first? (deeds ++ [deed]) name =
    (first? deeds name).or (first? [deed] name) := by
  rw [first?, successes, List.filterMap_append, List.lookup_append]
  rfl

theorem first?_ok (type : String) (d : Option TypeDefinition) (answer : Resolved E) (loads : List (Load E))
    (name : String) : first? [.resolved type d (.ok answer) loads] name =
      if name = answer.entryName then some answer.toFound else none := by
  by_cases hname : name = answer.entryName
  · simp [first?, successes, Deed.success?, hname]
  · simp [first?, successes, Deed.success?, List.lookup_cons, beq_false_of_ne hname, hname]

theorem first?_error (type : String) (d : Option TypeDefinition) (e : Error) (loads : List (Load E))
    (name : String) : first? [.resolved type d (.error e) loads] name = none := rfl

/-- A name has a first success exactly if there is a success. -/
theorem first?_isSome (deeds : List (Deed E)) (name : String) :
    (first? deeds name).isSome ↔ ∃ found, (name, found) ∈ successes deeds := by
  unfold first?
  induction successes deeds with
  | nil => simp
  | cons p rest ih =>
    obtain ⟨other, found⟩ := p
    by_cases h : name = other
    · simp [h]
    · simp [List.lookup_cons, beq_false_of_ne h, h, ih]

theorem settings_resolve : (r.resolve type d st).2.1.settings = r.settings := by
  cases hkept : r.kept.get? (entryName type d) with
  | some found => rw [resolve_of_kept hkept]
  | none =>
    rw [resolve_of_missing hkept]
    rcases r.find type (entryName type d) (d.bind TypeDefinition.lib) st with ⟨e | found, st'⟩
    · rfl
    · simp only [keep]
      split <;> rfl

/-- **Resolving a type** keeps what it found if nothing was kept under the name. -/
theorem get?_resolve (hkeep : r.settings.keepLoaded = true) : (r.resolve type d st).2.1.kept.get? name =
    (r.kept.get? name).or (first? [r.deed type d st] name) := by
  rw [deed]
  cases hkept : r.kept.get? (entryName type d) with
  | some found =>
    rw [resolve_of_kept hkept]
    rw [first?_ok]
    by_cases hname : name = entryName type d
    · rw [hname, hkept, Option.some_or]
    · rw [if_neg hname, Option.or_none]
  | none =>
    rw [resolve_of_missing hkept]
    rcases r.find type (entryName type d) (d.bind TypeDefinition.lib) st with ⟨e | found, st'⟩
    · rw [first?_error, Option.or_none]
    · simp only [keep, hkeep, if_true, Table.get?_insert, first?_ok]
      by_cases hname : name = entryName type d
      · simp [hname, hkept]
      · simp [hname, Ne.symm hname]

/-- **Resolving a type** calls the loader for one name only, at most once, and not if the name is kept. -/
theorem length_loadsFor_deed : ((r.deed type d st).loadsFor name).length ≤
    if (r.kept.get? name).isSome then 0 else (first? [r.deed type d st] name).isSome.toNat := by
  rw [deed]
  cases hkept : r.kept.get? (entryName type d) with
  | some found =>
    rw [(recalls_of_kept hkept).quiet, resolve_of_kept hkept]
    simp [Deed.loadsFor]
  | none =>
    have hlooks : r.LooksUp type d st := looksUp_of_missing hkept
    cases hanswer : (r.resolve type d st).1 with
    | error e => simp [Deed.loadsFor]
    | ok answer =>
      rw [Deed.loadsFor, (hlooks.fresh answer hanswer).2]
      by_cases hname : entryName type d = name
      · rw [first?_ok, (hlooks.fresh answer hanswer).2, if_pos hname, if_pos hname.symm, ← hname, hkept]
        exact hlooks.few
      · simp [hname]

namespace Run

variable {fresh : Registry E σ} {past : List (Deed E)}

/-- A run leaves the settings as they were. -/
theorem settings (h : Run fresh past r) : r.settings = fresh.settings := by
  induction h with
  | start => rfl
  | cleared h ih => exact ih
  | resolved h type d st ih => exact settings_resolve.trans ih

/-- No name is kept twice. -/
theorem nodup_keys (h : Run fresh past r) : r.kept.keys.Nodup := by
  induction h with
  | start h => rw [h]; exact List.nodup_nil
  | cleared h ih => exact List.nodup_nil
  | @resolved past r h type d st ih =>
    cases hkept : r.kept.get? (entryName type d) with
    | some found => rwa [resolve_of_kept hkept]
    | none =>
      rw [resolve_of_missing hkept]
      rcases r.find type (entryName type d) (d.bind TypeDefinition.lib) st with ⟨e | found, st'⟩
      · exact ih
      · simp only [keep]
        split
        · exact Table.nodup_keys_insert ih _ _
        · exact ih

/-- **Nothing is kept** if the settings do not say so. -/
theorem kept_eq_empty (h : Run fresh past r) (hkeep : fresh.settings.keepLoaded = false) : r.kept = .empty := by
  induction h with
  | start h => exact h
  | cleared h ih => rfl
  | @resolved past r h type d st ih =>
    have hmissing : r.kept.get? (entryName type d) = none := by rw [ih]; rfl
    rw [resolve_of_missing hmissing]
    rcases r.find type (entryName type d) (d.bind TypeDefinition.lib) st with ⟨e | found, st'⟩
    · exact ih
    · simp only [keep, h.settings, hkeep]
      exact ih

/-- **What is kept under a name** is what its first success since the last clearing found. -/
theorem get?_kept (h : Run fresh past r) (hkeep : fresh.settings.keepLoaded = true) (name : String) :
    r.kept.get? name = first? (since past) name := by
  induction h with
  | start h => rw [h]; rfl
  | cleared h ih => rw [since_cleared]; rfl
  | resolved h type d st ih =>
    rw [since_deed, first?_append, ← ih, get?_resolve name (h.settings ▸ hkeep)]

/-- **A name is loaded at most once** between two clearings, and only if it was resolved. -/
theorem length_loadsFor (h : Run fresh past r) (hkeep : fresh.settings.keepLoaded = true) (name : String) :
    (loadsFor name (since past)).length ≤ (first? (since past) name).isSome.toNat := by
  induction h with
  | start h => exact Nat.le_refl 0
  | cleared h ih => rw [since_cleared]; exact Nat.zero_le _
  | @resolved past r h type d st ih =>
    have hdeed : ((r.deed type d st).loadsFor name).length ≤ _ := length_loadsFor_deed name
    rw [h.get?_kept hkeep] at hdeed
    rw [since_deed, first?_append, loadsFor_append, List.length_append]
    cases hfirst : first? (since past) name <;> simpa [hfirst, loadsFor] using Nat.add_le_add ih hdeed

/-- What began a run is a run. -/
theorem before {front back : List (Deed E)} (h : Run fresh (front ++ back) r) : ∃ r', Run fresh front r' := by
  induction back using List.reverseRecOn generalizing r with
  | nil => exact ⟨r, by rwa [List.append_nil] at h⟩
  | append_singleton back deed ih =>
    rw [← List.append_assoc] at h
    generalize hpast : front ++ back ++ [deed] = past at h
    cases h with
    | start => simp at hpast
    | resolved h => exact ih ((List.append_inj_left' hpast rfl).symm ▸ h)
    | cleared h => exact ih ((List.append_inj_left' hpast rfl).symm ▸ h)

end Run

/-- The kept names stand in order, each once. -/
theorem pairwise_keptNames (h : r.kept.keys.Nodup) : r.keptNames.Pairwise (· < ·) := by
  have hsorted : r.keptNames.Pairwise (· ≤ ·) := by
    refine (List.pairwise_mergeSort (fun a b c hab hbc => ?_) (fun a b => ?_) r.kept.keys).imp
      fun hab => of_decide_eq_true hab
    · exact decide_eq_true (le_trans (of_decide_eq_true hab) (of_decide_eq_true hbc))
    · simpa using le_total a b
  have hnodup : r.keptNames.Nodup := (List.mergeSort_perm _ _).nodup_iff.mpr h
  exact (hsorted.and hnodup).imp fun hab => lt_of_le_of_ne hab.1 hab.2

/-- The names that are listed are those that are kept. -/
theorem mem_keptNames : name ∈ r.keptNames ↔ (r.kept.get? name).isSome := by
  rw [keptNames, List.mem_mergeSort, Table.mem_keys]

/-- **What a registry remembers** of what was done with it, and what it does with that in the next call.  If
entries are kept, the names of the kept ones are those resolved since the last clearing, and between two
clearings the loader is called at most once for a name that is resolved; else no name is kept.  A type whose name
is kept is recalled with what its first success found, and any other is looked up anew. -/
structure Remembers (past : List (Deed E)) (r : Registry E σ) : Prop where
  sorted : r.keptNames.Pairwise (· < ·)
  kept : r.settings.keepLoaded = true → ∀ name,
    name ∈ r.keptNames ↔ ∃ found, (name, found) ∈ successes (since past)
  once : r.settings.keepLoaded = true → ∀ name front middle back, past = front ++ middle ++ back →
    .cleared ∉ middle → (loadsFor name middle).length ≤ 1
  empty : r.settings.keepLoaded = false → r.keptNames = []
  recalled : ∀ type d, entryName type d ∈ r.keptNames →
    ∃ found, first? (since past) (entryName type d) = some found ∧ ∀ st, r.Recalls found type d st
  lookedUp : ∀ type d, entryName type d ∉ r.keptNames → ∀ st, r.LooksUp type d st

/-- **The law of the kept entries**: after every run, whatever the loader does, the registry remembers what was
resolved since the last clearing. -/
theorem Run.remembers {fresh : Registry E σ} {past : List (Deed E)} (h : Run fresh past r) :
    r.Remembers past where
  sorted := pairwise_keptNames h.nodup_keys
  kept hkeep name := by
    rw [mem_keptNames, h.get?_kept (h.settings ▸ hkeep), first?_isSome]
  once hkeep name front middle back hpast hmiddle := by
    obtain ⟨r', h'⟩ := (hpast ▸ h).before
    have hbound := h'.length_loadsFor (h.settings ▸ hkeep) name
    rw [since_append front hmiddle, loadsFor_append, List.length_append] at hbound
    have hone := Bool.toNat_le (first? (since front ++ middle) name).isSome
    exact (Nat.le_add_left _ _).trans (hbound.trans hone)
  empty hkeep := by
    rw [keptNames, h.kept_eq_empty (h.settings ▸ hkeep)]
    exact List.mergeSort_nil
  recalled type d hmem := by
    obtain ⟨found, hfound⟩ := Option.isSome_iff_exists.mp ((mem_keptNames _).mp hmem)
    refine ⟨found, ?_, fun st => recalls_of_kept hfound⟩
    -- where nothing is kept, no name is among the kept ones
    cases hkeep : fresh.settings.keepLoaded with
    | true => rw [← h.get?_kept hkeep, hfound]
    | false =>
      rw [h.kept_eq_empty hkeep] at hfound
      exact nomatch hfound
  lookedUp type d hmem st := by
    rw [mem_keptNames, Option.not_isSome_iff_eq_none] at hmem
    exact looksUp_of_missing hmem

/-- A registry that keeps what it resolved, and whose loader finds one module, with an entry point under every
symbol; its state counts the loads. -/
def counting : Registry Nat Nat where
  settings := { moduleDir := "/lib", keepLoaded := true }
  loader path st := if path = "/m.so" then (.ok ⟨path, fun _ => some st⟩, st + 1) else (.error "missing", st + 1)
  builtins := [("none", 0)]
  registered := []
  kept := .empty

/-- A type with an entry point of the name that all such types share. -/
def sharing (lib : Option OsPath) : Option TypeDefinition := some ⟨lib, some "_open", none⟩

/-- A type is resolved at the second attempt, and another type of the same name finds what was kept: the loader
was called twice, once with success. -/
theorem remembers_sharing : ∃ past r, counting.Run past r ∧ r.Remembers past ∧ r.keptNames = ["_open"] ∧
    (loadsFor "_open" past).map Load.path = ["/m.so"] ∧
    (r.resolve "c" (sharing none) 9).1.toOption.map (fun answer => (answer.entry, answer.cached)) =
      some (1, true) := by
  have hfresh : counting.Run [] counting := .start rfl
  have hfailed := hfresh.resolved "a" (sharing (some "/n.so")) 0
  have hloaded := hfailed.resolved "a" (sharing (some "/m.so")) 1
  have hkept := hloaded.resolved "b" (sharing none) 2
  exact ⟨_, _, hkept, hkept.remembers, by decide +kernel, by decide +kernel, by decide +kernel⟩

end Registry

end SoundDesk
