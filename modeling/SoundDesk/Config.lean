import SoundDesk.Error
import SoundDesk.Files
import SoundDesk.OsPath
import SoundDesk.Json.Reader
import SoundDesk.Json.Decode

/-!
# Config — named mixers, and the types that build them

A name stands for a definition or for another name.  `MixerConfig.resolve` follows the names up to a limit,
so it also ends on names that lead to each other in a circle.
-/

namespace SoundDesk

/-! ## Definitions -/

/-- A provider type and the parameters for it. -/
structure MixerDefinition where
  type : String
  comment : Option String
  hint : Option Json
  /-- Every field that is none of the above. -/
  params : Table String Json
  deriving BEq, Repr

namespace MixerDefinition

/-- A definition without parameters. -/
def ofType (type : String) : MixerDefinition := ⟨type, none, none, .empty⟩

/-- The same definition with one more parameter. -/
def withParam (d : MixerDefinition) (name : String) (value : Json) : MixerDefinition :=
  { d with params := d.params.insert name value }

/-- A parameter. -/
def param? (d : MixerDefinition) (name : String) : Option Json := d.params.get? name

/-- The names of the fields that are no parameters. -/
def ownFields : List String := ["type", "comment", "hint"]

/-- Read a definition that stands inside `outer` containers. -/
def decode (outer : Nat) : Json → Option MixerDefinition
  | .object fields => do
    let others := fields.filter fun f => !ownFields.contains f.1
    return {
      type := ← Json.required? Json.asString? (← Json.single? fields "type")
      comment := ← Json.withDefault? none (Json.nullable? Json.asString?) (← Json.single? fields "comment")
      hint := ← Json.withDefault? none (Json.nullable? (Json.value? (outer + 1))) (← Json.single? fields "hint")
      params := ← (Json.table? (Json.value? (outer + 1)) (.object others)) }
  | _ => none

/-- A field that is written only if it has a value. -/
def optionalField (name : String) : Option Json → List (String × Json)
  | none => []
  | some v => [(name, v)]

/-- Write a definition; a missing comment or hint is left out. -/
def encode (d : MixerDefinition) : Json :=
  .object (("type", .string d.type) :: (optionalField "comment" (d.comment.map .string)
    ++ optionalField "hint" d.hint ++ d.params.entries))

end MixerDefinition

/-- What a name stands for. -/
inductive MixerEntry where
  | redirect (target : String)
  | definition (d : MixerDefinition)
  deriving BEq, Repr

namespace MixerEntry

/-- Read an entry that stands inside `outer` containers: a string is a name. -/
def decode (outer : Nat) : Json → Option MixerEntry
  | .string target => some (redirect target)
  | v => (MixerDefinition.decode outer v).map definition

/-- Write an entry. -/
def encode : MixerEntry → Json
  | redirect target => .string target
  | definition d => d.encode

end MixerEntry

/-- How a type maps to code. -/
structure TypeDefinition where
  /-- The module to load, in place of the one named after the type. -/
  lib : Option OsPath
  /-- The entry point, in place of the one named after the type. -/
  entryPoint : Option String
  comment : Option String
  deriving DecidableEq, Repr

namespace TypeDefinition

/-- Read a type definition; other fields are refused. -/
def decode (v : Json) : Option TypeDefinition := do
  match ← Json.exactRecord? ["lib", "open", "comment"] v with
  | [lib, entryPoint, comment] =>
    return {
      lib := ← Json.withDefault? none (Json.nullable? OsPath.decode) lib
      entryPoint := ← Json.withDefault? none (Json.nullable? Json.asString?) entryPoint
      comment := ← Json.withDefault? none (Json.nullable? Json.asString?) comment }
  | _ => none

/-- Write a type definition, if the path of its module is a text. -/
def encode (d : TypeDefinition) : Option Json := do
  let lib ← Json.ofOption? OsPath.encode d.lib
  return .object [("lib", lib), ("open", Json.ofOption .string d.entryPoint),
    ("comment", Json.ofOption .string d.comment)]

end TypeDefinition

/-! ## Configurations -/

/-- Tables of named mixers and of types. -/
structure MixerConfig where
  mixers : Table String MixerEntry
  /-- Mixers opened on behalf of a stream. -/
  streamMixers : Table String MixerEntry
  types : Table String TypeDefinition
  deriving BEq, Repr

namespace MixerConfig

/-- A configuration without names. -/
def empty : MixerConfig := ⟨.empty, .empty, .empty⟩

/-- Read a configuration; a table that is missing is empty. -/
def decode (v : Json) : Option MixerConfig := do
  match ← Json.record? ["amixer", "amixer_pcm", "amixer_type"] v with
  | [mixers, streamMixers, types] =>
    return {
      mixers := ← Json.withDefault? .empty (Json.table? (MixerEntry.decode 2)) mixers
      streamMixers := ← Json.withDefault? .empty (Json.table? (MixerEntry.decode 2)) streamMixers
      types := ← Json.withDefault? .empty (Json.table? TypeDefinition.decode) types }
  | _ => none

/-- Write a configuration, if the paths that it names are texts. -/
def encode (c : MixerConfig) : Option Json := do
  let types ← Json.ofTable? TypeDefinition.encode c.types
  return .object [("amixer", Json.ofTable MixerEntry.encode c.mixers),
    ("amixer_pcm", Json.ofTable MixerEntry.encode c.streamMixers), ("amixer_type", types)]

/-- Read a configuration from its text. -/
def ofText (text : String) : Except Error MixerConfig :=
  match (Json.parse? text).bind decode with
  | some c => .ok c
  | none => .error (.config "malformed text")

/-- Write a configuration as a text. -/
def toText (c : MixerConfig) : Option String := c.encode.map Json.render

/-- Read a configuration from the file at a path. -/
def load (files : Files) (path : String) : Except Error MixerConfig :=
  match files.read path with
  | .ok text => ofText text
  | .error e => .error (.config ("cannot read " ++ path ++ ": " ++ e.message))

/-- The same configuration with a name for a definition. -/
def withMixer (c : MixerConfig) (name : String) (d : MixerDefinition) : MixerConfig :=
  { c with mixers := c.mixers.insert name (.definition d) }

/-- The same configuration with a name for another name. -/
def withRedirect (c : MixerConfig) (name target : String) : MixerConfig :=
  { c with mixers := c.mixers.insert name (.redirect target) }

/-- The number of names that may lead from one to the next. -/
def maxHops : Nat := 64

/-- Follow names through a table, `hops` of them at most; `start` is where the walk began. -/
def follow (table : Table String MixerEntry) (label start : String) :
    (hops : Nat) → (name : String) → Except Error MixerDefinition
  | hops, name =>
    match table.get? name with
    | some (.definition d) => .ok d
    | none => .error (.config ("unknown " ++ label ++ " '" ++ name ++ "'"))
    | some (.redirect target) =>
      match hops with
      | 0 =>
        .error (.config ("alias chain for '" ++ start ++ "' exceeds " ++ toString maxHops ++ " hops"))
      | hops + 1 => follow table label start hops target

/-- **Resolve a name** to its definition; `stream` selects the table of mixers for streams. -/
def resolve (c : MixerConfig) (name : String) (stream : Bool) : Except Error MixerDefinition :=
  if stream then follow c.streamMixers "amixer_pcm" name maxHops name
  else follow c.mixers "amixer" name maxHops name

/-- The definition of a type. -/
def typeDefinition? (c : MixerConfig) (type : String) : Option TypeDefinition := c.types.get? type

end MixerConfig

/-- Where modules are looked for, and whether resolved providers are kept. -/
structure RegistrySettings where
  moduleDir : OsPath
  keepLoaded : Bool
  deriving DecidableEq, Repr

namespace RegistrySettings

/-- Where modules are looked for by default: in the directory that the environment names, if it names one. -/
def defaultDir (environment : Option OsPath) : OsPath := environment.getD "/usr/lib/mixkit/modules"

/-- Look in the default place and keep what was resolved. -/
def standard (environment : Option OsPath) : RegistrySettings := ⟨defaultDir environment, true⟩

/-- Read settings; what is missing is standard in the environment. -/
def decode (environment : Option OsPath) (v : Json) : Option RegistrySettings := do
  match ← Json.record? ["module_dir", "keep_loaded"] v with
  | [moduleDir, keepLoaded] =>
    return {
      moduleDir := ← Json.withDefault? (defaultDir environment) OsPath.decode moduleDir
      keepLoaded := ← Json.withDefault? true Json.bool? keepLoaded }
  | _ => none

/-- Write settings, if the directory is a text. -/
def encode (s : RegistrySettings) : Option Json := do
  let moduleDir ← s.moduleDir.encode
  return .object [("module_dir", moduleDir), ("keep_loaded", .bool s.keepLoaded)]

end RegistrySettings

end SoundDesk
