import Koy.Yaml.Token

/-! The token sequence of a YAML text. Indentation opens and closes block collections, and a scalar
turns out to be a key only at the colon after it; so tokens wait in a queue until nothing can be put
in front of them any more. -/

namespace Koy.Yaml

/-- A token that may turn out to start a key. -/
structure PossibleKey where
  possible : Bool := false
  /-- Here nothing but a key may stand. -/
  required : Bool := false
  number : Nat := 0
  mark : Mark := {}

structure TokenQueue where
  cursor : Cursor
  waiting : List Token
  used : Nat := 0
  /-- The column of the innermost block collection, or -1. -/
  indent : Int := -1
  indents : List Int := []
  flow : Nat := 0
  keyAllowed : Bool := true
  /-- A possible key outside of all flow collections, and one for each open one. -/
  keys : Array PossibleKey := #[{}]
  /-- The levels of the possible keys, by the numbers of their tokens. A key is looked for here as
  long as its token waits. -/
  levels : List (Nat × Nat) := []

abbrev Reading (α : Type) := StateT TokenQueue (Except Problem) α

namespace TokenQueue

def ofBytes (text : Bytes) : TokenQueue :=
  { cursor := .ofBytes text, waiting := [⟨.streamStart, {}, {}⟩] }

def scan {α : Type} (step : Scan α) : Reading α := do
  let queue ← get
  let (result, cursor) ← step.run queue.cursor
  set { queue with cursor }
  return result

def refuseAt {α : Type} (start : Mark) (text : String) : Reading α := do
  throw (.ofText start (← get).cursor.mark text)

def append (kind : TokenKind) (start stop : Mark) : Reading Unit :=
  modify fun queue => { queue with waiting := queue.waiting ++ [⟨kind, start, stop⟩] }

/-- Puts an empty token before the one with the given number, or at the end if that one has been
used. -/
def insertBefore (number : Nat) (kind : TokenKind) (mark : Mark) : Reading Unit :=
  modify fun queue =>
    let token : Token := ⟨kind, mark, mark⟩
    if number < queue.used then { queue with waiting := queue.waiting ++ [token] }
    else { queue with waiting := queue.waiting.insertIdx (number - queue.used) token }

def allowKey (allowed : Bool) : Reading Unit :=
  modify fun queue => { queue with keyAllowed := allowed }

def innermostKey : Reading PossibleKey :=
  return (← get).keys.back?.getD {}

def setKey (level : Nat) (key : PossibleKey) : Reading Unit :=
  modify fun queue => { queue with keys := queue.keys.setIfInBounds level key }

def innermostLevel : Reading Nat :=
  return (← get).keys.size - 1

def forgetLevel (number : Nat) : Reading Unit :=
  modify fun queue => { queue with levels := queue.levels.filter (·.1 ≠ number) }

/-- The possible key of a level could still come true: its colon may follow in the same line, not
too far off. A required key that cannot come true is an error. -/
def stillPossible (level : Nat) : Reading Bool := do
  let queue ← get
  match queue.keys[level]? with
  | none => return false
  | some key =>
    if !key.possible then return false
    let here := queue.cursor.mark
    if key.mark.line < here.line ∨ key.mark.index + 1024 < here.index then
      if key.required then refuseAt key.mark "could not find expected ':'"
      setKey level { key with possible := false }
      return false
    return true

def dropKey : Reading Unit := do
  let key ← innermostKey
  if key.possible then
    if key.required then refuseAt key.mark "could not find expected ':'"
    setKey (← innermostLevel) { key with possible := false }
    forgetLevel key.number

def noteKey : Reading Unit := do
  let queue ← get
  if queue.keyAllowed then
    dropKey
    let level ← innermostLevel
    let number := queue.used + queue.waiting.length
    setKey level
      { possible := true
        required := queue.flow = 0 && queue.indent = queue.cursor.mark.column
        number
        mark := queue.cursor.mark }
    forgetLevel number
    modify fun queue => { queue with levels := (number, level) :: queue.levels }

def maxDepth : Nat := 10000

def indentTo (column : Nat) (number : Option Nat) (kind : TokenKind) (mark : Mark) :
    Reading Unit := do
  let queue ← get
  if queue.flow = 0 ∧ queue.indent < column then
    set { queue with indents := queue.indent :: queue.indents, indent := column }
    if queue.indents.length ≥ maxDepth then
      refuseAt (← innermostKey).mark ("exceeded max depth of " ++ toString maxDepth)
    match number with
    | some number => insertBefore number kind mark
    | none => append kind mark mark

def dedentTo (column : Int) (mark : Mark) : Nat → Reading Unit
  | 0 => return
  | fuel + 1 => do
    let queue ← get
    if queue.flow = 0 ∧ queue.indent > column then
      set { queue with
        waiting := queue.waiting ++ [Token.mk .blockEnd mark mark]
        indent := queue.indents.head?.getD (-1)
        indents := queue.indents.tail }
      dedentTo column mark fuel

def dedent (column : Int) (mark : Mark) : Reading Unit := do
  dedentTo column mark ((← get).indents.length + 1)

/-- Passes over blanks and comments within a line. At the start of a line a character is passed over
if the characters held start with a byte order mark. Tabs count as white space only where no key can
start. -/
def skipInLine (tabs : Bool) : Scan Unit := do
  Scan.ensure 1
  let cursor ← get
  if cursor.mark.column = 0 ∧ cursor.marked then Scan.skip
  Scan.skipWhile fun c => c == ' ' || (tabs && c == '\t')
  if (← get).isAt 0 '#' then Comment.skipAll

def skipSpace : Nat → Reading Unit
  | 0 => return
  | fuel + 1 => do
    let queue ← get
    scan (skipInLine (queue.flow > 0 || !queue.keyAllowed))
    if (← get).cursor.breakAt 0 then
      scan Scan.skipLine
      if queue.flow = 0 then allowKey true
      skipSpace fuel

def take (step : Scan TokenKind) : Reading Unit := do
  let start := (← get).cursor.mark
  let kind ← scan step
  append kind start (← get).cursor.mark

def takeSign (kind : TokenKind) (width : Nat) : Reading Unit :=
  take do
    Scan.skipMany width
    return kind

/-- Reads the end of the text. It starts a line of its own. -/
def takeEnd : Reading Unit := do
  modify fun queue =>
    let mark := queue.cursor.mark
    if mark.column = 0 then queue
    else { queue with cursor.mark := { mark with column := 0, line := mark.line + 1 } }
  let mark := (← get).cursor.mark
  dedent (-1) mark
  dropKey
  allowKey false
  append .streamEnd mark mark

def outsideDocument : Reading Unit := do
  dedent (-1) (← get).cursor.mark
  dropKey
  allowKey false

def openFlow (kind : TokenKind) : Reading Unit := do
  noteKey
  let queue ← get
  let inner : PossibleKey :=
    { number := queue.used + queue.waiting.length, mark := queue.cursor.mark }
  set { queue with keys := queue.keys.push inner, flow := queue.flow + 1 }
  if queue.flow ≥ maxDepth then
    refuseAt inner.mark ("exceeded max depth of " ++ toString maxDepth)
  allowKey true
  takeSign kind 1

/-- Leaves a flow collection. The level of the key with the number noted when it was opened is
forgotten; if no key was noted inside, that is the level of the collection itself. -/
def leaveFlow : Reading Unit := do
  if (← get).flow > 0 then
    forgetLevel (← innermostKey).number
    modify fun queue => { queue with keys := queue.keys.pop, flow := queue.flow - 1 }

def closeFlow (kind : TokenKind) : Reading Unit := do
  dropKey
  leaveFlow
  allowKey false
  takeSign kind 1

def takeComma : Reading Unit := do
  dropKey
  allowKey true
  takeSign .flowEntry 1

def takeDash : Reading Unit := do
  let queue ← get
  let mark := queue.cursor.mark
  if queue.flow = 0 then
    if !queue.keyAllowed then
      refuseAt mark "block sequence entries are not allowed in this context"
    indentTo mark.column none .blockSequenceStart mark
  dropKey
  allowKey true
  takeSign .blockEntry 1

def takeKeyMark : Reading Unit := do
  let queue ← get
  let mark := queue.cursor.mark
  if queue.flow = 0 then
    if !queue.keyAllowed then refuseAt mark "mapping keys are not allowed in this context"
    indentTo mark.column none .blockMappingStart mark
  dropKey
  allowKey (queue.flow = 0)
  takeSign .key 1

def takeColon : Reading Unit := do
  let level ← innermostLevel
  if ← stillPossible level then
    let key ← innermostKey
    insertBefore key.number .key key.mark
    indentTo key.mark.column (some key.number) .blockMappingStart key.mark
    setKey level { key with possible := false }
    forgetLevel key.number
    allowKey false
  else
    let queue ← get
    let mark := queue.cursor.mark
    if queue.flow = 0 then
      if !queue.keyAllowed then refuseAt mark "mapping values are not allowed in this context"
      indentTo mark.column none .blockMappingStart mark
    allowKey (queue.flow = 0)
  takeSign .value 1

def takeKeyable (step : Scan TokenKind) : Reading Unit := do
  noteKey
  allowKey false
  take step

def takeBlock (folded : Bool) : Reading Unit := do
  dropKey
  allowKey true
  let outer := (← get).indent
  take do
    let content ← Scalar.block folded outer
    return .scalar (String.ofList content) (if folded then .folded else .literal)

def quotedScalar (single : Bool) : Scan TokenKind := do
  let content ← Scalar.quoted single
  return .scalar (String.ofList content) (if single then .singleQuoted else .doubleQuoted)

/-- Reads a plain scalar. A key may follow it if it ends with a line end. -/
def takePlain : Reading Unit := do
  noteKey
  allowKey false
  let queue ← get
  let (content, endsLine) ← scan (Scalar.plain (queue.flow > 0) (queue.indent + 1))
  append (.scalar (String.ofList content) .plain) queue.cursor.mark (← get).cursor.mark
  if endsLine then allowKey true

def indicators : List Char :=
  [',', '[', ']', '\x7b', '\x7d', '#', '&', '*', '!', '|', '>', '\'', '"', '%', '@', '\x60']

def startsPlain (inFlow : Bool) (cursor : Cursor) : Bool :=
  match cursor.current? with
  | none => false
  | some '-' => !cursor.blankAt 1
  | some '?' | some ':' => !inFlow && !cursor.spaceOrEndAt 1
  | some c => !isBlank c && !isBreak c && !indicators.contains c

def takeInside (c : Char) : Reading Unit := do
  let queue ← get
  let cursor := queue.cursor
  let inFlow := queue.flow > 0
  if c = '[' then openFlow .flowSequenceStart
  else if c = '\x7b' then openFlow .flowMappingStart
  else if c = ']' then closeFlow .flowSequenceEnd
  else if c = '\x7d' then closeFlow .flowMappingEnd
  else if c = ',' then takeComma
  else if c = '-' ∧ cursor.spaceOrEndAt 1 then takeDash
  else if c = '?' ∧ (inFlow ∨ cursor.spaceOrEndAt 1) then takeKeyMark
  else if c = ':' ∧ (inFlow ∨ cursor.spaceOrEndAt 1) then takeColon
  else if c = '*' then takeKeyable (return .reference (← Token.name))
  else if c = '&' then takeKeyable (return .anchor (← Token.name))
  else if c = '!' then
    takeKeyable do
      let (handle, suffix) ← Token.tag
      return .tag handle suffix
  else if c = '|' ∧ !inFlow then takeBlock false
  else if c = '>' ∧ !inFlow then takeBlock true
  else if c = '\'' then takeKeyable (quotedScalar true)
  else if c = '"' then takeKeyable (quotedScalar false)
  else if startsPlain inFlow cursor then takePlain
  else refuseAt cursor.mark "found character that cannot start any token"

def endsWithDash (queue : TokenQueue) : Bool :=
  match queue.waiting.getLast? with
  | some token => token.kind = .blockEntry
  | none => false

/-- Reads the next token into the queue. After a token inside a document, unless it is a dash, a
comment in the same line is passed over. -/
def fetch : Reading Unit := do
  scan (Scan.ensure 1)
  let before := (← get).cursor
  skipSpace before.limit
  dedent (← get).cursor.mark.column before.mark
  scan (Scan.ensure 4)
  let cursor := (← get).cursor
  match cursor.current? with
  | none => takeEnd
  | some c =>
    if cursor.mark.column = 0 ∧ c = '%' then
      outsideDocument
      take Token.directive
    else if cursor.atThree '-' then
      outsideDocument
      takeSign .documentStart 3
    else if cursor.atThree '.' then
      outsideDocument
      takeSign .documentEnd 3
    else
      takeInside c
      if !(← get).endsWithDash then scan Comment.skipAfterToken

/-- Reads tokens until three are waiting and the first of them cannot become a key. -/
def fill : Nat → Reading Unit
  | 0 => return
  | fuel + 1 => do
    let queue ← get
    if queue.waiting.length > 2 then
      match queue.levels.lookup queue.used with
      | none => return
      | some level => if !(← stillPossible level) then return
    fetch
    fill fuel

def first : Reading Token := do
  fill ((← get).cursor.limit + 8)
  let queue ← get
  return queue.waiting.head?.getD ⟨.streamEnd, queue.cursor.mark, queue.cursor.mark⟩

def use : Reading Unit :=
  modify fun queue => { queue with waiting := queue.waiting.tail, used := queue.used + 1 }

end TokenQueue

end Koy.Yaml
