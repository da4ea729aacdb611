import SoundDesk.OsPath
import SoundDesk.Text.Quoted

/-!
# ProviderName — the names of provider types, of their entry points and of their modules

A type's name becomes part of a symbol, so one that is registered may hold ASCII letters, digits and
underscores only.
-/

namespace SoundDesk.ProviderName

/-- The name of the entry point of a type. -/
def entry (type : String) : String := "_mixkit_mixer_" ++ type ++ "_open"

/-- The symbol that a module exports for an entry point. -/
def symbol (entry : String) : String := entry ++ "__dlsym_mixer_001"

/-- The path of the module of a type. -/
def modulePath (dir : OsPath) (type : String) : OsPath := dir.join ("libmixkit_mixer_" ++ type ++ ".so")

/-- The character may stand in a registered name. -/
def isNameChar (c : Char) : Bool := c.isAlphanum || c = '_'

/-- **Check a name** that is to be registered; the answer is what is wrong with it. -/
def check (name : String) : Except String Unit :=
  if name.isEmpty then .error "provider name must not be empty"
  else
    match name.toList.find? fun c => !isNameChar c with
    | some c =>
      .error ("invalid character " ++ Text.quotedChar c ++ " in provider name " ++ Text.quoted name)
    | none => .ok ()

end SoundDesk.ProviderName
