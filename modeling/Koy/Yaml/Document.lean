import Koy.Yaml.Cursor
import Koy.Yaml.Node
import Koy.Yaml.TokenQueue

/-! The first document of a YAML text. -/

namespace Koy.Yaml

structure Anchored where
  name : String
  node : Node

/-- The nodes with anchors met so far, in order, and the number of references to them. -/
structure Anchors where
  nodes : Array Anchored := #[]
  references : Nat := 0

structure Document where
  root : Node
  anchored : Array Node

abbrev Building (α : Type) := StateT Anchors (StateT TokenQueue (Except Problem)) α

abbrev Handles := List (String × Tag)

namespace Document

def target (document : Document) (number : Nat) : Node :=
  document.anchored.getD number (Node.blank {})

/-- The node itself, or the one that a reference stands for. -/
def resolve (document : Document) : Node → Node
  | .reference _ _ _ number => document.target number
  | node => node

def peek : Building Token := TokenQueue.first

def use : Building Unit := TokenQueue.use

def advance : Building Token := do
  use
  peek

/-- Ends a part of the tree: its beginning, its end, or a node without parts. Here a mistake counts
that was overlooked while the tokens of the part were read. -/
def settle : Building Unit := do
  if let some problem := (← getThe TokenQueue).cursor.overlooked then throw problem

def blank (mark : Mark) : Building Node := do
  settle
  return Node.blank mark

def misplaced {α : Type} (start : Mark) (token : Token) (text : String) : Building α :=
  throw (.ofOrder start token.start text)

structure Properties where
  anchor : Option String := none
  tag : Option Tag := none

def resolveTag (handles : Handles) (start : Mark) (token : Token) (handle : String)
    (suffix : Tag) : Building Tag :=
  if handle = "" then return suffix
  else match handles.lookup handle with
    | some lead => return lead ++ suffix
    | none => misplaced start token "found undefined tag handle"

/-- Reads an anchor and a tag, in either order; each may be left out. A handle is looked up only
after both have been read. -/
def properties (handles : Handles) : Building Properties := do
  let first ← peek
  match first.kind with
  | .anchor name =>
    let second ← advance
    match second.kind with
    | .tag handle suffix =>
      let _ ← advance
      return { anchor := name, tag := ← resolveTag handles first.start second handle suffix }
    | _ => return { anchor := name }
  | .tag handle suffix =>
    let second ← advance
    match second.kind with
    | .anchor name =>
      let _ ← advance
      return { anchor := name, tag := ← resolveTag handles first.start first handle suffix }
    | _ => return { tag := ← resolveTag handles first.start first handle suffix }
  | _ => return {}

def announce (anchor : Option String) : Building Nat := do
  settle
  let anchors ← get
  if let some name := anchor then
    set { anchors with nodes := anchors.nodes.push ⟨name, Node.blank {}⟩ }
  return anchors.nodes.size

def complete (number : Nat) (anchor : Option String) (node : Node) : Building Node := do
  if let some name := anchor then
    modify fun anchors => { anchors with nodes := anchors.nodes.setIfInBounds number ⟨name, node⟩ }
  return node

def leaf (anchor : Option String) (node : Node) : Building Node := do
  complete (← announce anchor) anchor node

def reference (line : Nat) (name : String) : Building Node := do
  settle
  let anchors ← get
  match anchors.nodes.toList.zipIdx.reverse.find? (·.1.name = name) with
  | none => throw { text := "unknown anchor '" ++ name ++ "' referenced" }
  | some (_, target) =>
    set { anchors with references := anchors.references + 1 }
    return .reference line name anchors.references target

def leavesOut (kinds : List TokenKind) (token : Token) : Bool := kinds.contains token.kind

def entryEnds : List TokenKind := [.key, .value, .blockEnd]

mutual

/-- Reads a node. In a flow collection no block collection may start; and where a sequence needs no
indentation of its own, it may start with a dash. -/
def node (handles : Handles) : Nat → Bool → Bool → Building Node
  | 0, _, _ => throw { text := "did not find expected node content" }
  | fuel + 1, block, indentless => do
    let first ← peek
    match first.kind with
    | .reference name =>
      use
      reference (first.start.line + 1) name
    | _ =>
      let found ← properties handles
      let token ← peek
      let line := first.start.line + 1
      let sequence (items : List Node) : Node :=
        .sequence line (Node.tagOr Node.sequenceTag found.tag) items
      let mapping (entries : List (Node × Node)) : Node :=
        .mapping line (Node.tagOr Node.mappingTag found.tag) entries
      match token.kind, block, indentless with
      | .scalar content style, _, _ =>
        use
        leaf found.anchor
          (.scalar line (Node.tagOr (Node.scalarTag style content) found.tag) content)
      | .blockEntry, _, true =>
        let number ← announce found.anchor
        complete number found.anchor (sequence (← indentlessItems handles fuel))
      | .flowSequenceStart, _, _ =>
        let number ← announce found.anchor
        use
        complete number found.anchor (sequence (← flowItems handles fuel token.start true))
      | .flowMappingStart, _, _ =>
        let number ← announce found.anchor
        use
        complete number found.anchor (mapping (← flowEntries handles fuel token.start true))
      | .blockSequenceStart, true, _ =>
        let number ← announce found.anchor
        use
        complete number found.anchor (sequence (← blockItems handles fuel token.start))
      | .blockMappingStart, true, _ =>
        let number ← announce found.anchor
        use
        complete number found.anchor (mapping (← blockEntries handles fuel token.start))
      | _, _, _ =>
        if found.anchor.isSome || found.tag.isSome then
          leaf found.anchor (.scalar line (Node.tagOr Meaning.null.tag found.tag) "")
        else misplaced first.start token "did not find expected node content"

def blockItems (handles : Handles) : Nat → Mark → Building (List Node)
  | 0, _ => return []
  | fuel + 1, start => do
    let token ← peek
    match token.kind with
    | .blockEntry =>
      let next ← advance
      let item ←
        if leavesOut [.blockEntry, .blockEnd] next then blank token.stop
        else node handles fuel true false
      return item :: (← blockItems handles fuel start)
    | .blockEnd =>
      use
      settle
      return []
    | _ => misplaced start token "did not find expected '-' indicator"

/-- Reads the items of a sequence in the column of the mapping around it. -/
def indentlessItems (handles : Handles) : Nat → Building (List Node)
  | 0 => return []
  | fuel + 1 => do
    let token ← peek
    match token.kind with
    | .blockEntry =>
      let next ← advance
      let item ←
        if leavesOut (.blockEntry :: entryEnds) next then blank token.stop
        else node handles fuel true false
      return item :: (← indentlessItems handles fuel)
    | _ =>
      settle
      return []

def blockEntries (handles : Handles) : Nat → Mark → Building (List (Node × Node))
  | 0, _ => return []
  | fuel + 1, start => do
    let token ← peek
    match token.kind with
    | .key =>
      let next ← advance
      let key ←
        if leavesOut entryEnds next then blank token.stop
        else node handles fuel true true
      let value ← blockValue handles fuel
      return (key, value) :: (← blockEntries handles fuel start)
    | .blockEnd =>
      use
      settle
      return []
    | _ => misplaced start token "did not find expected key"

def blockValue (handles : Handles) : Nat → Building Node
  | 0 => return Node.blank {}
  | fuel + 1 => do
    let token ← peek
    match token.kind with
    | .value =>
      let next ← advance
      if leavesOut entryEnds next then blank token.stop
      else node handles fuel true true
    | _ => blank token.start

/-- Reads the items of a sequence in brackets. A key among them starts a mapping of one entry. -/
def flowItems (handles : Handles) : Nat → Mark → Bool → Building (List Node)
  | 0, _, _ => return []
  | fuel + 1, start, isFirst => do
    let token ← peek
    match token.kind, isFirst with
    | .flowSequenceEnd, _ =>
      use
      settle
      return []
    | .flowEntry, false =>
      use
      flowItem handles fuel start
    | _, true => flowItem handles fuel start
    | _, false => misplaced start token "did not find expected ',' or ']'"

def flowItem (handles : Handles) : Nat → Mark → Building (List Node)
  | 0, _ => return []
  | fuel + 1, start => do
    let token ← peek
    match token.kind with
    | .flowSequenceEnd =>
      use
      settle
      return []
    | .key =>
      use
      settle
      let next ← peek
      let key ←
        if leavesOut [.value, .flowEntry, .flowSequenceEnd] next then do
          use
          blank next.stop
        else node handles fuel false false
      let value ← flowValue handles fuel .flowSequenceEnd
      let _ ← peek
      settle
      return .mapping (token.start.line + 1) Node.mappingTag [(key, value)]
        :: (← flowItems handles fuel start false)
    | _ =>
      let item ← node handles fuel false false
      return item :: (← flowItems handles fuel start false)

def flowEntries (handles : Handles) : Nat → Mark → Bool → Building (List (Node × Node))
  | 0, _, _ => return []
  | fuel + 1, start, isFirst => do
    let token ← peek
    match token.kind, isFirst with
    | .flowMappingEnd, _ =>
      use
      settle
      return []
    | .flowEntry, false =>
      use
      flowEntry handles fuel start
    | _, true => flowEntry handles fuel start
    | _, false => misplaced start token "did not find expected ',' or '\x7d'"

def flowEntry (handles : Handles) : Nat → Mark → Building (List (Node × Node))
  | 0, _ => return []
  | fuel + 1, start => do
    let token ← peek
    match token.kind with
    | .flowMappingEnd =>
      use
      settle
      return []
    | .key =>
      let next ← advance
      let key ←
        if leavesOut [.value, .flowEntry, .flowMappingEnd] next then blank next.start
        else node handles fuel false false
      let value ← flowValue handles fuel .flowMappingEnd
      return (key, value) :: (← flowEntries handles fuel start false)
    | _ =>
      let key ← node handles fuel false false
      let value ← blank (← peek).start
      return (key, value) :: (← flowEntries handles fuel start false)

def flowValue (handles : Handles) : Nat → TokenKind → Building Node
  | 0, _ => return Node.blank {}
  | fuel + 1, closing => do
    let token ← peek
    match token.kind with
    | .value =>
      let next ← advance
      if leavesOut [.flowEntry, closing] next then blank token.start
      else node handles fuel false false
    | _ => blank token.start

end

def defaultHandles : Handles :=
  [("!", Bytes.ofString "!"), ("!!", Bytes.ofString "tag:yaml.org,2002:")]

def directives : Nat → Bool → Handles → Building Handles
  | 0, _, handles => return handles
  | fuel + 1, versioned, handles => do
    let token ← peek
    match token.kind with
    | .versionDirective major minor =>
      if versioned then misplaced {} token "found duplicate %YAML directive"
      else if major ≠ 1 ∨ minor ≠ 1 then misplaced {} token "found incompatible YAML document"
      else
        use
        directives fuel true handles
    | .tagDirective handle lead =>
      if (handles.lookup handle).isSome then misplaced {} token "found duplicate %TAG directive"
      else
        use
        directives fuel versioned (handles ++ [(handle, lead)])
    | _ => return handles

def content (handles : Handles) (fuel : Nat) : Building Node := do
  let token ← peek
  match token.kind with
  | .versionDirective .. | .tagDirective .. | .documentStart | .documentEnd | .streamEnd =>
    blank token.start
  | _ => node handles fuel true false

def firstRoot (fuel : Nat) : Building (Option Node) := do
  let token ← peek
  match token.kind with
  | .streamEnd =>
    settle
    return none
  | .versionDirective .. | .tagDirective .. | .documentStart =>
    let handles ← directives fuel false []
    let token ← peek
    if token.kind ≠ .documentStart then
      misplaced {} token "did not find expected <document start>"
    use
    settle
    content (handles ++ defaultHandles) fuel
  | _ =>
    settle
    node defaultHandles fuel true false

def first (fuel : Nat) : Building (Option Document) := do
  let _ ← peek
  use
  settle
  match ← firstRoot fuel with
  | none => return none
  | some root =>
    let _ ← peek
    settle
    return some { root, anchored := (← get).nodes.map (·.node) }

def read (text : Bytes) : Except Problem (Option Document) := do
  let fuel := 8 * (text.length + 8)
  let ((document, _), _) ← ((first fuel).run {}).run (.ofBytes text)
  return document

end Document

end Koy.Yaml
