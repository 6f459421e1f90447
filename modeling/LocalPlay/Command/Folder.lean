import LocalPlay.Bytes
import LocalPlay.Net.IoError

/-!
# Folders

The folder a command runs in holds files and folders, and a path leads from it to one of them. Empty
parts of a path and single dots stay where they are, and two dots go up. What lies above the folder
or starts at the root is not known here: nothing is read there, and a log counts as open.

Reading changes nothing. A log that is opened is there afterwards, together with the folders on the
way to it, so the same path may lead somewhere only after the log has been opened.
-/

namespace LocalPlay.Command

open Net

inductive Entry where
  | file (contents : Bytes)
  | folder
  deriving DecidableEq, Repr

/-- All that is in a folder and below, each entry under the names that lead to it, its own first. -/
structure Folder where
  entries : List (List String × Entry) := []
  deriving DecidableEq, Repr

/-- Where a path has led so far. -/
inductive Place where
  | outside
  | inside (names : List String)
  deriving DecidableEq, Repr

/-- A part of a path that leads nowhere. -/
def isIdle (part : String) : Bool :=
  part = "" ∨ part = "."

/-- A path is refused if it is too long for the system. -/
def route (parts : List String) : Except IoError (List String) :=
  if ("/".intercalate parts).utf8ByteSize < 4096 then .ok parts else .error .invalidInput

def Place.start (path : String) : Place :=
  if path.toList.head? = some '/' then .outside else .inside []

/-- The parts of a path that lead to its file, and the file's own name, unless the path ends in two
dots or has no parts. -/
def splitPath? (path : String) : Option (List String × String) :=
  match (path.splitOn "/").reverse.dropWhile isIdle with
  | [] | ".." :: _ => none
  | name :: above => some ((above.dropWhile isIdle).reverse, name)

namespace Folder

def entry? (folder : Folder) : List String → Option Entry
  | [] => some .folder
  | names => folder.entries.lookup names

/-- Names have at most 255 bytes. -/
def create (folder : Folder) (names : List String) (entry : Entry) : Except IoError Folder :=
  if (names.headD "").utf8ByteSize ≤ 255 then
    .ok { entries := (names, entry) :: folder.entries }
  else
    .error .invalidInput

/-- Follows one part of a path, which has to be a folder. -/
def enter (folder : Folder) (place : Place) (part : String) : Except IoError Place :=
  match place with
  | .outside => .ok .outside
  | .inside names =>
    if isIdle part then
      .ok place
    else if part = ".." then
      .ok (if names = [] then .outside else .inside names.tail)
    else
      match folder.entry? (part :: names) with
      | some .folder => .ok (.inside (part :: names))
      | some (.file _) => .error .other
      | none => .error .notFound

/-- Follows one part of a path and makes a folder if there is nothing of that name. -/
def enterNew (folder : Folder) (place : Place) (part : String) : Except IoError (Folder × Place) :=
  match folder.enter place part, place with
  | .error .notFound, .inside names => do
    let folder ← folder.create (part :: names) .folder
    return (folder, .inside (part :: names))
  | .error error, _ => .error error
  | .ok next, _ => .ok (folder, next)

/-- The contents of a file. A path whose last part leads nowhere or up is not a file's. -/
def read (folder : Folder) (path : String) : Except IoError Bytes := do
  let parts ← route (path.splitOn "/")
  match ← parts.dropLast.foldlM folder.enter (Place.start path) with
  | .outside => throw .notFound
  | .inside names =>
    match folder.entry? (parts.getLastD "" :: names) with
    | some (.file contents) => return contents
    | some .folder => throw .other
    | none => throw .notFound

/-- Opens a log for writing at its end. Folders on the way to it are made. -/
def openLog (folder : Folder) (path : String) : Except IoError Folder := do
  let some (above, name) := splitPath? path | throw .invalidInput
  let _ ← route (above ++ [name])
  let (folder, place) ←
    above.foldlM (fun (folder, place) => folder.enterNew place) (folder, Place.start path)
  match place with
  | .outside => return folder
  | .inside names =>
    match folder.entry? (name :: names) with
    | some (.file _) => return folder
    | some .folder => throw .other
    | none => folder.create (name :: names) (.file [])

end Folder

end LocalPlay.Command
