import Koy.Files
import Koy.Path

/-! Files in memory: a working directory and what is below it. -/

namespace Koy

/-- A file or directory is known by the names on the way to it from the working directory. -/
abbrev Location := List String

inductive Found where
  | file (content : Bytes)
  | directory
  deriving DecidableEq, Repr

structure Workspace where
  root : String
  directories : List Location := []
  files : List (Location × Bytes) := []

namespace Workspace

def isWithin (inner outer : Location) : Bool :=
  outer.length < inner.length && outer.isPrefixOf inner

/-- What is found at a location. The directories on the way to anything exist too. -/
def find? (workspace : Workspace) (location : Location) : Option Found :=
  match workspace.files.lookup location with
  | some content => some (.file content)
  | none =>
    if location.isEmpty || workspace.directories.contains location
      || workspace.directories.any (isWithin · location)
      || workspace.files.any (fun file => isWithin file.1 location) then some .directory
    else none

def follow (workspace : Workspace) : Location → List String → Except FileFault Location
  | place, [] => .ok place
  | place, part :: rest =>
    match workspace.find? place with
    | none => .error .absent
    | some (.file _) => .error .notADirectory
    | some .directory =>
      if part = "" ∨ part = "." then follow workspace place rest
      else if part = ".." then
        if place.isEmpty then .error .absent else follow workspace place.dropLast rest
      else if part.utf8ByteSize > 255 then .error .nameTooLong
      else follow workspace (place ++ [part]) rest

def relativeParts? (workspace : Workspace) (path : String) : Option (List String) :=
  let rootParts := Path.parts workspace.root
  let parts := Path.parts path
  if parts.take rootParts.length = rootParts then some (parts.drop rootParts.length)
  else if Path.isRooted path then none
  else some parts

def locate (workspace : Workspace) (path : String) : Except FileFault Location :=
  if path.isEmpty then .error .absent
  else if path.toList.contains '\x00' then .error .invalidName
  else match workspace.relativeParts? path with
    | none => .error .absent
    | some parts => workspace.follow [] parts

def lookup (workspace : Workspace) (path : String) : Except FileFault Found := do
  match workspace.find? (← workspace.locate path) with
  | some found => return found
  | none => throw .absent

/-- Reads a file. A directory can be opened, but not read. -/
def read (workspace : Workspace) (path : String) : Except FileError Bytes :=
  match workspace.lookup path with
  | .ok (.file content) => .ok content
  | .ok .directory => .error ⟨"read", path, .isADirectory⟩
  | .error fault => .error ⟨"open", path, fault⟩

def isFile (workspace : Workspace) (path : String) : Bool :=
  match workspace.lookup path with
  | .ok (.file _) => true
  | _ => false

def toFiles (workspace : Workspace) : Files :=
  { directory := workspace.root, read := workspace.read, isFile := workspace.isFile }

/-- Writes a file whose directory exists; otherwise nothing changes. -/
def write (workspace : Workspace) (path : String) (content : Bytes) : Workspace :=
  match workspace.locate path with
  | .error _ => workspace
  | .ok location =>
    match workspace.find? location with
    | some .directory => workspace
    | some (.file _) =>
      { workspace with
        files := workspace.files.map fun file =>
          if file.1 = location then (location, content) else file }
    | none =>
      if workspace.find? location.dropLast = some .directory then
        { workspace with files := workspace.files ++ [(location, content)] }
      else workspace

end Workspace

end Koy
