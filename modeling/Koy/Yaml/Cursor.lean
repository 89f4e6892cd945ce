import Koy.Yaml.Supply

/-! A place in a YAML text. Only some characters after it are decoded at a time; a step that looks
ahead asks for as many as it needs. -/

namespace Koy.Yaml

def isBlank (c : Char) : Bool := c == ' ' || c == '\t'

def isBreak (c : Char) : Bool :=
  c == '\n' || c == '\r' || c.toNat == 0x85 || c.toNat == 0x2028 || c.toNat == 0x2029

def isWordChar (c : Char) : Bool := c.isAlphanum || c == '_' || c == '-'

def orderMark : Char := '\ufeff'

/-- What stands after the end of a text. -/
def sentinel : Char := '\x00'

structure Cursor where
  /-- The decoded characters from the place on; sentinels follow the last character of the text. -/
  ahead : List Char := []
  mark : Mark := {}
  /-- The line ends passed since the last character other than a blank. -/
  newlines : Nat := 0
  /-- The characters held in store start with a byte order mark. -/
  marked : Bool := false
  supply : Supply
  /-- A mistake in the text that was met while looking ahead further than necessary. -/
  overlooked : Option Problem := none
  /-- More than the number of characters of the text. -/
  limit : Nat

namespace Cursor

def ofBytes (text : Bytes) : Cursor :=
  { supply := { stored := text }, limit := text.length + 8 }

def peek? (cursor : Cursor) (n : Nat) : Option Char :=
  (cursor.ahead[n]?).filter (· ≠ sentinel)

def current? (cursor : Cursor) : Option Char := cursor.peek? 0

def atEnd (cursor : Cursor) : Bool := cursor.current?.isNone

def isAt (cursor : Cursor) (n : Nat) (c : Char) : Bool := cursor.peek? n == some c

def blankAt (cursor : Cursor) (n : Nat) : Bool := (cursor.peek? n).any isBlank

def breakAt (cursor : Cursor) (n : Nat) : Bool := (cursor.peek? n).any isBreak

def breakOrEndAt (cursor : Cursor) (n : Nat) : Bool := (cursor.peek? n).all isBreak

def spaceOrEndAt (cursor : Cursor) (n : Nat) : Bool :=
  (cursor.peek? n).all fun c => isBlank c || isBreak c

/-- A line starts here with three of the given characters and white space after them. -/
def atThree (cursor : Cursor) (c : Char) : Bool :=
  cursor.mark.column == 0 && cursor.isAt 0 c && cursor.isAt 1 c && cursor.isAt 2 c
    && cursor.spaceOrEndAt 3

def atDocumentMark (cursor : Cursor) : Bool :=
  cursor.atThree '-' || cursor.atThree '.'

def holds (cursor : Cursor) : Nat → Bool
  | 0 => true
  | n + 1 => !(cursor.ahead.drop n).isEmpty

/-- Decodes pieces of the text until `n` characters are held. At the end of the text one sentinel is
added. -/
def fillOn (n : Nat) : Nat → Bool → Cursor → Option Problem × Cursor
  | 0, _, cursor => (none, cursor)
  | fuel + 1, again, cursor =>
    if cursor.holds n then (none, cursor)
    else
      let supply :=
        if again || cursor.supply.fetched.isEmpty then cursor.supply.fetch else cursor.supply
      let (chars, problem, supply) := supply.decodeFetched
      let filled := { cursor with ahead := cursor.ahead ++ chars, supply }
      if problem.isSome then (problem, filled)
      else if supply.ended then (none, { filled with ahead := filled.ahead ++ [sentinel] })
      else fillOn n fuel true filled

/-- Makes sure that `n` characters are held. If more have to be decoded, those passed before are
given up. -/
def fill (n : Nat) (cursor : Cursor) : Option Problem × Cursor :=
  if cursor.holds n then (none, cursor)
  else
    let supply :=
      if cursor.supply.encoding.isNone then cursor.supply.detect else cursor.supply
    let (problem, filled) := fillOn n cursor.limit false { cursor with supply }
    (problem, { filled with marked := filled.ahead.head? = some orderMark })

def skip (cursor : Cursor) : Cursor :=
  { cursor with
    ahead := cursor.ahead.tail
    newlines := if cursor.blankAt 0 then cursor.newlines else 0
    mark := { cursor.mark with index := cursor.mark.index + 1, column := cursor.mark.column + 1 } }

def skipBreak (width : Nat) (cursor : Cursor) : Cursor :=
  { cursor with
    ahead := cursor.ahead.drop width
    newlines := cursor.newlines + 1
    mark := ⟨cursor.mark.index + width, cursor.mark.line + 1, 0⟩ }

end Cursor

abbrev Scan (α : Type) := StateT Cursor (Except Problem) α

namespace Scan

def refuse {α : Type} (start : Mark) (text : String) : Scan α := do
  throw (.ofText start (← get).mark text)

def ensure (n : Nat) : Scan Unit := do
  match (← get).fill n with
  | (some problem, _) => throw problem
  | (none, cursor) => set cursor

/-- Tries to hold `n` characters. A mistake in the text is noted, and does not matter yet. -/
def attempt (n : Nat) : Scan Bool := do
  let (problem, cursor) := (← get).fill n
  match problem with
  | some problem =>
    set { cursor with overlooked := some problem }
    return false
  | none =>
    set cursor
    return true

def skip : Scan Unit := modify Cursor.skip

def skipMany : Nat → Scan Unit
  | 0 => return
  | n + 1 => do
    skip
    skipMany n

/-- Passes over a line end, if one stands here, and yields what it counts as in a scalar. -/
def takeBreak : Scan (List Char) := do
  let cursor ← get
  match cursor.current? with
  | none => return []
  | some c =>
    if c = '\r' ∧ cursor.isAt 1 '\n' then
      set (cursor.skipBreak 2)
      return ['\n']
    else if isBreak c then
      set (cursor.skipBreak 1)
      return if c.toNat = 0x2028 ∨ c.toNat = 0x2029 then [c] else ['\n']
    else return []

def skipLine : Scan Unit := do
  if (← get).breakAt 0 then
    ensure 2
    let _ ← takeBreak

def takeOn (p : Char → Bool) : Nat → List Char → Scan (List Char)
  | 0, taken => return taken
  | fuel + 1, taken => do
    match (← get).current? with
    | none => return taken
    | some c =>
      if p c then
        skip
        ensure 1
        takeOn p fuel (c :: taken)
      else return taken

def takeWhile (p : Char → Bool) : Scan (List Char) := do
  ensure 1
  return (← takeOn p (← get).limit []).reverse

def skipWhile (p : Char → Bool) : Scan Unit := do
  let _ ← takeWhile p

def skipToBreak : Scan Unit := skipWhile fun c => !isBreak c

end Scan

end Koy.Yaml
