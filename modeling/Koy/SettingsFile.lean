import Koy.Files
import Koy.Path
import Koy.Settings.Reading

/-! Settings files, where they are, and what is said about those that cannot be used. All complaints
about the entries of a file are reported together. -/

namespace Koy

open Yaml (Problem)

namespace Settings

inductive LoadError where
  | noPath
  | unopened (error : FileError)
  | unparsed (path : String) (reason : Bytes)
  | unusable (path complaint : String)
  deriving Repr

def LoadError.message : LoadError → Bytes
  | .noPath => Bytes.ofString "config: empty path"
  | .unopened error => Bytes.ofString ("config: " ++ error.message)
  | .unparsed path reason => Bytes.ofString ("config: parse " ++ path ++ ": ") ++ reason
  | .unusable path complaint => Bytes.ofString ("config: " ++ path ++ ": " ++ complaint)

def report (complaints : Array Bytes) : Bytes :=
  Bytes.ofString "yaml: unmarshal errors:"
    ++ complaints.toList.flatMap fun complaint => Bytes.ofString "\n  " ++ complaint

/-- Reads settings on top of the defaults; a text without a document leaves them. A chain of merged
mappings follows no reference twice, and between two of them it only goes down the tree. -/
def ofYaml (text : Bytes) : Except Bytes Settings :=
  let reading : Except Problem Reading := do
    match ← Yaml.Document.read text with
    | none => return {}
    | some document => ofDocument ((text.length + 8) * (text.length + 8)) document
  match reading with
  | .error problem => .error (Bytes.ofString problem.message)
  | .ok reading =>
    if reading.complaints.isEmpty then .ok reading.settings else .error (report reading.complaints)

def load (files : Files) (path : String) : Except LoadError Settings := do
  if path.isEmpty then throw .noPath
  match files.read path with
  | .error error =>
    if error.fault = .isADirectory then
      throw (.unparsed path (Bytes.ofString ("yaml: input error: " ++ error.message)))
    else throw (.unopened error)
  | .ok text =>
    match ofYaml text with
    | .error reason => throw (.unparsed path reason)
    | .ok settings =>
      match settings.complaint? with
      | some complaint => throw (.unusable path complaint)
      | none => return settings

def fileName : String := ".koys.yaml"

def find? (files : Files) (directory : String) : Option String :=
  let path := Path.join directory fileName
  if files.isFile path then some path else none

/-- The file in which entries of a terminal session are kept: the one that the settings name, or
else one in the home directory. -/
def historyPath? (settings : Settings) (home : String) : Option Bytes :=
  if settings.history ≠ [] then some settings.history
  else if home = "" then none
  else some (Bytes.ofString (Path.join home ".koys_history"))

end Settings

end Koy
