import SoundDesk.Config
import SoundDesk.ProviderName

/-!
# Registry — from the name of a provider type to its entry point

An entry point is looked for among those resolved before, then, unless a module is named, among the built-in
and the registered ones, and last in the module.  What was resolved may be kept under the entry's name.
-/

namespace SoundDesk

/-- A loaded module with entry points of type `E`. -/
structure Module (E : Type) where
  path : OsPath
  /-- The entry point under a symbol. -/
  entry? : String → Option E

/-- What loads the module at a path; `σ` is the state it acts on. -/
abbrev Loader (E σ : Type) : Type := OsPath → σ → Except String (Module E) × σ

/-- A loader that cannot load anything. -/
def Loader.disabled {E σ : Type} : Loader E σ := fun path st =>
  (.error ("Cannot open shared library " ++ path.display ++ ": dynamic loading is disabled"), st)

/-- A loader of modules that are given with their paths and symbols, where of two at one place the last one
counts; `loaded` is what a load does to the state. -/
def Loader.ofTable {E σ : Type} (modules : List (OsPath × List (String × E))) (loaded : σ → σ) : Loader E σ :=
  fun path st =>
    match modules.reverse.find? fun m => m.1.parts = path.parts with
    | some m => (.ok ⟨path, fun symbol => m.2.lookup symbol⟩, loaded st)
    | none => (.error ("no module " ++ path.display), st)

/-- Where an entry point was found. -/
inductive ProviderSource where
  | builtin
  | registered
  | module
  deriving DecidableEq, Repr

/-- The name of a source. -/
def ProviderSource.name : ProviderSource → String
  | builtin => "Builtin"
  | registered => "Registered"
  | module => "Module"

/-- An entry point that was found. -/
structure Found (E : Type) where
  entry : E
  source : ProviderSource
  module : Option (Module E)

/-- What `Registry.resolve` answers. -/
structure Resolved (E : Type) extends Found E where
  entryName : String
  /-- It was kept from before. -/
  cached : Bool

/-- A registry of entry points of type `E`, with a loader that acts on `σ`. -/
structure Registry (E σ : Type) where
  settings : RegistrySettings
  loader : Loader E σ
  /-- The built-in entry points, by type. -/
  builtins : List (String × E)
  /-- The registered entry points, by type. -/
  registered : List (String × E)
  /-- What was resolved and kept, by the name of the entry. -/
  kept : Table String (Found E)

namespace Registry

variable {E σ : Type}

/-- The entry point in a list that has a name. -/
def lookup (entries : List (String × E)) (entryName : String) : Option E :=
  (entries.find? fun e => ProviderName.entry e.1 = entryName).map Prod.snd

/-- The entry point that is part of the program. -/
def linked? (r : Registry E σ) (entryName : String) : Option (Found E) :=
  match lookup r.builtins entryName with
  | some entry => some ⟨entry, .builtin, none⟩
  | none => (lookup r.registered entryName).map fun entry => ⟨entry, .registered, none⟩

/-- The entry point in the module at a path. -/
def load (r : Registry E σ) (type : String) (path : OsPath) (entryName : String) (st : σ) :
    Except Error (Found E) × σ :=
  match r.loader path st with
  | (.error reason, st) => (.error (.providerNotFound type reason), st)
  | (.ok module, st) =>
    match module.entry? (ProviderName.symbol entryName) with
    | some entry => (.ok ⟨entry, .module, some module⟩, st)
    | none => (.error (.symbolMissing (ProviderName.symbol entryName) path.display), st)

/-- The entry point of a type that was not kept from before. -/
def find (r : Registry E σ) (type entryName : String) (lib : Option OsPath) (st : σ) :
    Except Error (Found E) × σ :=
  match lib with
  | some path => r.load type path entryName st
  | none =>
    match r.linked? entryName with
    | some found => (.ok found, st)
    | none => r.load type (ProviderName.modulePath r.settings.moduleDir type) entryName st

/-- Keep what was found, if the settings say so. -/
def keep (r : Registry E σ) (entryName : String) (found : Found E) : Registry E σ :=
  if r.settings.keepLoaded then { r with kept := r.kept.insert entryName found } else r

/-- The name of the entry point of a type. -/
def entryName (type : String) (d : Option TypeDefinition) : String :=
  (d.bind TypeDefinition.entryPoint).getD (ProviderName.entry type)

/-- **Resolve a type** to its entry point. -/
def resolve (r : Registry E σ) (type : String) (d : Option TypeDefinition) (st : σ) :
    Except Error (Resolved E) × Registry E σ × σ :=
  let name := entryName type d
  match r.kept.get? name with
  | some found => (.ok { toFound := found, entryName := name, cached := true }, r, st)
  | none =>
    match r.find type name (d.bind TypeDefinition.lib) st with
    | (.error e, st) => (.error e, r, st)
    | (.ok found, st) =>
      (.ok { toFound := found, entryName := name, cached := false }, r.keep name found, st)

/-- The names of the entry points that are kept, in order. -/
def keptNames (r : Registry E σ) : List String := r.kept.keys.mergeSort fun a b => a ≤ b

/-- Forget what was kept. -/
def clear (r : Registry E σ) : Registry E σ := { r with kept := .empty }

end Registry

end SoundDesk
