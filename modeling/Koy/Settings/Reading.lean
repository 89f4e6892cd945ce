import Koy.Settings
import Koy.Yaml.Document

/-! Reading settings from a YAML document: a mapping with one entry for each setting. Entries that
cannot be used are complained about, and reading goes on with the others. -/

namespace Koy.Settings

open Yaml (Document Meaning Node Problem Tag)

inductive Field where
  | debug
  | maxDepth
  | logLevel
  | history
  deriving DecidableEq, Repr

namespace Field

def all : List Field := [.debug, .maxDepth, .logLevel, .history]

def name : Field → String
  | .debug => "debug"
  | .maxDepth => "max_depth"
  | .logLevel => "log_level"
  | .history => "history"

def ofName? (name : Bytes) : Option Field :=
  all.find? (Bytes.ofString ·.name = name)

end Field

/-- What has been read of a document so far. -/
structure Reading where
  settings : Settings := {}
  complaints : Array Bytes := #[]
  visits : Nat := 0
  /-- The number of visits that references led to. -/
  detours : Nat := 0
  followed : List Nat := []

abbrev ReadM (α : Type) := ReaderT Document (StateT Reading (Except Problem)) α

namespace Reading

/-- Too many visits are due to references. Up to 400000 visits 99 in 100 may be; from 4000000 on it is
10 in 100; and between them the bound falls evenly. -/
def isExcessive (reading : Reading) : Bool :=
  reading.detours > 100 && reading.visits > 1000 &&
    if reading.visits ≤ 400000 then 100 * reading.detours > 99 * reading.visits
    else if reading.visits ≥ 4000000 then 100 * reading.detours > 10 * reading.visits
    else
      360000000 * reading.detours
        > reading.visits * (99 * 3600000 - 89 * (reading.visits - 400000))

def visit : ReadM Unit := do
  modify fun reading =>
    { reading with
      visits := reading.visits + 1
      detours := if reading.followed.isEmpty then reading.detours else reading.detours + 1 }
  if (← get).isExcessive then throw { text := "document contains excessive aliasing" }

/-- Follows a reference, and reads its target. A reference that is being followed is not followed
again. -/
def follow {α : Type} (name : String) (number target : Nat) (read : Node → ReadM α) : ReadM α := do
  if (← get).followed.contains number then
    throw { text := "anchor '" ++ name ++ "' value contains itself" }
  modify fun reading => { reading with followed := number :: reading.followed }
  let result ← read ((← readThe Document).target target)
  modify fun reading => { reading with followed := reading.followed.tail }
  return result

def wholeName : String := "runtime.Config"

def complain (line : Nat) (text : Bytes) : ReadM Unit :=
  modify fun reading =>
    { reading with
      complaints :=
        reading.complaints.push (Bytes.ofString ("line " ++ toString line ++ ": ") ++ text) }

def excerpt (content : Bytes) : Bytes :=
  if content.length > 10 then content.take 7 ++ Bytes.ofString "..." else content

/-- Complains that a node is not of the wanted kind. What is tagged as a collection is shown as it
is, and anything else in quotes. -/
def complainKind (line : Nat) (tag : Tag) (content wanted : String) : ReadM Unit :=
  let content := Bytes.ofString content
  let shown :=
    if tag = Node.sequenceTag ∨ tag = Node.mappingTag then content
    else Bytes.ofString " `" ++ excerpt content ++ Bytes.ofString "`"
  complain line
    (Bytes.ofString "cannot unmarshal " ++ tag ++ shown ++ Bytes.ofString (" into " ++ wanted))

def complainField (line : Nat) (name : Bytes) (fault : String) : ReadM Unit :=
  complain line
    (Bytes.ofString "field " ++ name ++ Bytes.ofString (" " ++ fault ++ " in type " ++ wholeName))

def complainRepeats : List (Node × Node) → ReadM Unit
  | [] => return
  | (key, _) :: rest => do
    for (other, _) in rest do
      if key.sameKey other then
        complain other.line (Bytes.ofString
          ("mapping key " ++ Text.quoteString other.keyText ++ " already defined at line "
            ++ toString key.line))
    complainRepeats rest

def keysDiffer (entries : List (Node × Node)) : ReadM Bool := do
  let before := (← get).complaints.size
  complainRepeats entries
  return (← get).complaints.size == before

/-- Reads a scalar with `accept`, and complains about other nodes and about scalars that it does not
accept. An absent value is passed over. -/
def direct? {α : Type} (wanted : String) (accept : Meaning → String → Option α) :
    Node → ReadM (Option α)
  | .reference .. => return none
  | .sequence line tag _ => do
    complainKind line tag "" wanted
    return none
  | .mapping line tag entries => do
    if ← keysDiffer entries then complainKind line tag "" wanted
    return none
  | .scalar line tag content => do
    match ← Meaning.ofTagged tag content with
    | .null => return none
    | meaning =>
      match accept meaning content with
      | some value => return value
      | none =>
        complainKind line tag content wanted
        return none

/-- Reads a scalar, or the one that a reference stands for. No reference stands for another one. -/
def scalar? {α : Type} (wanted : String) (accept : Meaning → String → Option α) (node : Node) :
    ReadM (Option α) := do
  visit
  match node with
  | .reference _ name number target =>
    follow name number target fun node => do
      visit
      direct? wanted accept node
  | node => direct? wanted accept node

def words : Bool → List String
  | true => ["y", "Y", "yes", "Yes", "YES", "on", "On", "ON"]
  | false => ["n", "N", "no", "No", "NO", "off", "Off", "OFF"]

def acceptBool : Meaning → String → Option Bool
  | .bool value, _ => some value
  | .text content, _ =>
    [true, false].find? fun value => ((words value).map Bytes.ofString).contains content
  | _, _ => none

/-- An integer of 64 bits, which the integer part of a fraction may give. -/
def acceptInt : Meaning → String → Option Int
  | .int value, _ => if Decimal.fits value then some value else none
  | .float value, _ => Yaml.Number.truncated? value
  | _, _ => none

def acceptText : Meaning → String → Option Bytes
  | .text content, _ => some content
  | _, content => some (Bytes.ofString content)

def change (f : Settings → Settings) : ReadM Unit :=
  modify fun reading => { reading with settings := f reading.settings }

def field (node : Node) : Field → ReadM Unit
  | .debug => do
    if let some value ← scalar? "bool" acceptBool node then change ({ · with debug := value })
  | .maxDepth => do
    if let some value ← scalar? "int" acceptInt node then change ({ · with maxDepth := value })
  | .logLevel => do
    if let some value ← scalar? "string" acceptText node then change ({ · with logLevel := value })
  | .history => do
    if let some value ← scalar? "string" acceptText node then change ({ · with history := value })

/-- Reads the entries of a mapping. A mapping that is merged into another passes over the names
that are given already, and adds its own to them. -/
def fields (taken : Option (List Bytes)) :
    List Field → List (Node × Node) → ReadM (Option (List Bytes))
  | _, [] => return taken
  | given, (key, value) :: rest => do
    if key.isMerge then fields taken given rest
    else
      match ← scalar? "string" acceptText key with
      | none => fields taken given rest
      | some name =>
        if taken.any (·.contains name) then fields taken given rest
        else
          let taken := taken.map (name :: ·)
          match Field.ofName? name with
          | none =>
            complainField key.line name "not found"
            fields taken given rest
          | some wanted =>
            if given.contains wanted then
              complainField key.line name "already set"
              fields taken given rest
            else
              field value wanted
              fields taken (wanted :: given) rest

def survey : Nat → Node → ReadM Bool
  | 0, _ => return true
  | fuel + 1, node => do
    visit
    match node with
    | .reference _ name number target => follow name number target (survey fuel)
    | .scalar _ tag content =>
      let _ ← Meaning.ofTagged tag content
      return true
    | .sequence _ _ items =>
      for item in items do
        let _ ← survey fuel item
      return true
    | .mapping _ _ entries =>
      if !(← keysDiffer entries) then return false
      for (key, value) in entries do
        if !key.isMerge then
          if ← survey fuel key then
            let _ ← survey fuel value
      return true

def keyName? (fuel : Nat) (key : Node) : ReadM (Option Bytes) := do
  let _ ← survey fuel key
  match (← readThe Document).resolve key with
  | .scalar _ tag content =>
    match ← Meaning.ofTagged tag content with
    | .text name => return some name
    | _ => return none
  | _ => return none

def names (fuel : Nat) (entries : List (Node × Node)) : ReadM (List Bytes) :=
  entries.filterMapM fun (key, _) => keyName? fuel key

def requireMapping (node : Node) : ReadM Unit := do
  unless ((← readThe Document).resolve node).isMapping do
    throw { text := "map merge requires map or sequence of maps as the value" }

def mergeable : Node → List Node
  | .sequence _ _ items => items
  | node => [node]

/-- Reads the whole of a mapping; `taken` are the names that are given already if it is merged into
another. Yields the names that are given then. Of merged mappings the earlier ones win. -/
def whole : Nat → Option (List Bytes) → Node → ReadM (Option (List Bytes))
  | 0, taken, _ => return taken
  | fuel + 1, taken, node => do
    visit
    match node with
    | .reference _ name number target => follow name number target (whole fuel taken)
    | .sequence line tag _ =>
      complainKind line tag "" wholeName
      return taken
    | .scalar line tag content =>
      match ← Meaning.ofTagged tag content with
      | .null => return taken
      | _ =>
        complainKind line tag content wholeName
        return taken
    | .mapping _ _ entries =>
      if !(← keysDiffer entries) then return taken
      let taken ← fields taken [] entries
      match entries.find? (·.1.isMerge) with
      | none => return taken
      | some (_, merged) =>
        let before ← match taken with
          | some before => pure before
          | none => names fuel entries
        let after ← (mergeable merged).foldlM
          (fun (before : Option (List Bytes)) node => do
            requireMapping node
            whole fuel before node)
          (some before)
        return if taken.isSome then after else none

end Reading

/-- Reads the settings in a document on top of the defaults. The budget `fuel` bounds how deeply
mappings are merged into others. -/
def ofDocument (fuel : Nat) (document : Document) : Except Problem Reading := do
  let read : ReadM Unit := do
    Reading.visit
    let _ ← Reading.whole fuel none document.root
  return (← (read.run document).run {}).2

end Koy.Settings
