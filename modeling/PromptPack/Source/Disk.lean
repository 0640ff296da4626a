import PromptPack.Source.StoredFile

/-! Stored files by path. Every part of a path in front of the last is a directory, and so is
the place where all paths start. -/

namespace PromptPack

/-- The stored files, each by the parts of its path. -/
structure Disk where
  files : List (List String × StoredFile)
deriving Repr

namespace Disk

/-- The parts between slashes; an empty part and a single dot stay where they are. -/
def parts (path : String) : List String :=
  (path.splitOn "/").filter fun part => part != "" && part != "."

def shown (path : String) : String :=
  let text := "/".intercalate (parts path)
  if text.isEmpty then "." else text

def ofList (files : List (String × StoredFile)) : Disk :=
  ⟨files.map fun (path, file) => (parts path, file)⟩

inductive LookupFailure where
  | missing
  | notDirectory
deriving DecidableEq, Repr

def LookupFailure.message (path : String) : LookupFailure → String
  | .missing => ReadFailure.missing.message path
  | .notDirectory => s!"[Errno 20] Not a directory: {Value.quoted path}"

def at? (disk : Disk) (place : List String) : Option StoredFile :=
  match disk.files.find? fun (path, _) => path == place with
  | some (_, file) => some file
  | none =>
    if place.isEmpty || disk.files.any fun (path, _) => place.isPrefixOf path then some .directory
    else none

/-- Goes from one place to another, part by part; two dots lead to the directory above. -/
def walk (disk : Disk) (place : List String) : List String → Except LookupFailure StoredFile
  | [] =>
    match disk.at? place with
    | some file => .ok file
    | none => .error .missing
  | part :: rest =>
    match disk.at? place with
    | some .directory =>
      disk.walk (if part = ".." then place.dropLast else place ++ [part]) rest
    | some _ => .error .notDirectory
    | none => .error .missing

def read (disk : Disk) (path : String) : Except String String :=
  match disk.walk [] (parts path) with
  | .error failure => .error (failure.message (shown path))
  | .ok file =>
    match StoredFile.read (some file) with
    | .ok text => .ok text
    | .error failure => .error (failure.message (shown path))

end Disk

end PromptPack
