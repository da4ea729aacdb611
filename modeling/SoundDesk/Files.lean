/-!
# Files — what a path leads to

A path is walked name by name, from the root or from the working directory.  `Files.read` answers the text it
leads to, or the first reason why it leads to none.
-/

namespace SoundDesk

/-- Why a path leads to no text. -/
inductive FileError where
  /-- A name on the way is not there. -/
  | missing
  /-- The path goes on below a file. -/
  | notDirectory
  /-- The path ends at a directory. -/
  | isDirectory
  /-- The path, or a name on the way, is longer than any may be. -/
  | nameTooLong
  /-- The path holds a character that ends it. -/
  | nulInside
  deriving DecidableEq, Repr

/-- The text shown for a failure. -/
def FileError.message : FileError → String
  | missing => "No such file or directory (os error 2)"
  | notDirectory => "Not a directory (os error 20)"
  | isDirectory => "Is a directory (os error 21)"
  | nameTooLong => "File name too long (os error 36)"
  | nulInside => "file name contained an unexpected NUL byte"

/-- A file, or a directory with everything below it. -/
inductive FileTree where
  | file (text : String)
  | directory (entries : List (String × FileTree))

namespace FileTree

/-- A directory without entries. -/
def empty : FileTree := directory []

/-- The bytes that a name may have. -/
def maxName : Nat := 255

/-- **Walk along names.** `outer` holds the directories around `here`, the innermost first; the root is its
own parent. -/
def walk (outer : List FileTree) (here : FileTree) : (names : List String) → Except FileError FileTree
  | [] => .ok here
  | name :: rest =>
    match here with
    | file _ => .error .notDirectory
    | directory entries =>
      if name = "" ∨ name = "." then walk outer here rest
      else if name = ".." then
        match outer with
        | [] => walk [] here rest
        | parent :: others => walk others parent rest
      else if maxName < name.utf8ByteSize then .error .nameTooLong
      else
        match entries.lookup name with
        | none => .error .missing
        | some next => walk (here :: outer) next rest

end FileTree

/-- All files, and the directory where a path begins that does not begin at the root. -/
structure Files where
  root : FileTree
  working : FileTree

namespace Files

/-- The bytes of a path, with the one that ends it, stay within this limit. -/
def maxPath : Nat := 4096

/-- **The text that a path leads to.** -/
def read (files : Files) (path : String) : Except FileError String :=
  if path.toList.contains (Char.ofNat 0) then .error .nulInside
  else if path.isEmpty then .error .missing
  else if maxPath ≤ path.utf8ByteSize then .error .nameTooLong
  else
    let names := path.splitOn "/"
    let place :=
      if names.head? = some "" then FileTree.walk [] files.root names
      else FileTree.walk [files.root] files.working names
    match place with
    | .error e => .error e
    | .ok (.directory _) => .error .isDirectory
    | .ok (.file text) => .ok text

/-- Directories without entries. -/
def directories (names : List String) : List (String × FileTree) := names.map fun name => (name, .empty)

/-- The places that every system has, none of them with a configuration, and an empty working directory. -/
def standard : Files where
  root := .directory
    (("dev", .directory [("null", .file ""), ("shm", .empty)])
      :: ("etc", .directory [("hostname", .file ""), ("hosts", .file ""), ("passwd", .file "")])
      :: ("usr", .directory (directories ["bin", "include", "lib", "local", "sbin", "share", "src"]))
      :: ("var", .directory (directories ["cache", "lib", "log", "tmp"]))
      :: directories ["bin", "boot", "home", "lib", "media", "mnt", "opt", "proc", "root", "run", "sbin", "srv",
        "sys", "tmp"])
  working := .empty

end Files

end SoundDesk
