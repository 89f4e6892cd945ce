import Koy.Text.Glyph
import Koy.Yaml.Scalar

/-! The tokens of a YAML text, and the reading of those that need more than one character. -/

namespace Koy.Yaml

/-- A tag. It may hold any bytes, since they can be written as escapes. -/
abbrev Tag := Bytes

inductive TokenKind where
  | streamStart
  | streamEnd
  | versionDirective (major minor : Nat)
  | tagDirective (handle : String) (lead : Tag)
  | documentStart
  | documentEnd
  | blockSequenceStart
  | blockMappingStart
  | blockEnd
  | flowSequenceStart
  | flowSequenceEnd
  | flowMappingStart
  | flowMappingEnd
  | blockEntry
  | flowEntry
  | key
  | value
  | reference (name : String)
  | anchor (name : String)
  | tag (handle : String) (suffix : Tag)
  | scalar (content : String) (style : Style)
  deriving DecidableEq, Repr

structure Token where
  kind : TokenKind
  start : Mark
  stop : Mark
  deriving Repr

namespace Token

def name : Scan String := do
  let start := (← get).mark
  Scan.skip
  let word ← Scan.takeWhile isWordChar
  let cursor ← get
  let ends := cursor.spaceOrEndAt 0
    || (cursor.current?).any fun c => ['?', ':', ',', ']', '\x7d', '%', '@', '\x60'].contains c
  if word.isEmpty || !ends then
    Scan.refuse start "did not find expected alphabetic or numeric character"
  return String.ofList word

def isTagChar (c : Char) : Bool :=
  isWordChar c || [';', '/', '?', ':', '@', '&', '=', '+', '$', ',', '.', '!', '~', '*', '\'', '(',
    ')', '[', ']'].contains c

def escapedByte (start : Mark) : Scan UInt8 := do
  Scan.ensure 3
  let cursor ← get
  match (cursor.peek? 1).bind Scalar.hexDigit?, (cursor.peek? 2).bind Scalar.hexDigit? with
  | some high, some low =>
    if !cursor.isAt 0 '%' then Scan.refuse start "did not find URI escaped octet"
    return UInt8.ofNat (16 * high + low)
  | _, _ => Scan.refuse start "did not find URI escaped octet"

def escapedRest (start : Mark) : Nat → Scan Tag
  | 0 => return []
  | n + 1 => do
    let byte ← escapedByte start
    if byte < 0x80 ∨ 0xC0 ≤ byte then
      Scan.refuse start "found an incorrect trailing UTF-8 octet"
    Scan.skipMany 3
    return byte :: (← escapedRest start n)

/-- The escaped bytes of a character. Their number is told by the first of them, and nothing else
about them is looked at. -/
def escapedChar (start : Mark) : Scan Tag := do
  let byte ← escapedByte start
  match Decoded.leading? byte with
  | none => Scan.refuse start "found an incorrect leading UTF-8 octet"
  | some (width, _) =>
    Scan.skipMany 3
    return byte :: (← escapedRest start (width - 1))

/-- The bytes of a tag, escapes included, in the pieces in which they are written, last first. -/
def tagPieces (start : Mark) : Nat → List Tag → Scan (List Tag)
  | 0, taken => return taken
  | fuel + 1, taken => do
    match (← get).current? with
    | none => return taken
    | some c =>
      if c = '%' then
        let bytes ← escapedChar start
        Scan.ensure 1
        tagPieces start fuel (bytes :: taken)
      else if isTagChar c then
        Scan.skip
        Scan.ensure 1
        tagPieces start fuel (Bytes.ofChars [c] :: taken)
      else return taken

def tagText (start : Mark) (head : List Char) : Scan Tag := do
  Scan.ensure 1
  let pieces ← tagPieces start (← get).limit []
  if head.isEmpty && pieces.isEmpty then Scan.refuse start "did not find expected tag URI"
  return Bytes.ofChars head.tail ++ pieces.reverse.flatten

def handle (directive : Bool) (start : Mark) : Scan (List Char) := do
  Scan.ensure 1
  if !(← get).isAt 0 '!' then Scan.refuse start "did not find expected '!'"
  Scan.skip
  let word ← Scan.takeWhile isWordChar
  if (← get).isAt 0 '!' then
    Scan.skip
    return '!' :: word ++ ['!']
  if directive && !word.isEmpty then Scan.refuse start "did not find expected '!'"
  return '!' :: word

def tagParts (start : Mark) : Scan (String × Tag) := do
  Scan.ensure 2
  if (← get).isAt 1 '<' then
    Scan.skipMany 2
    let suffix ← tagText start []
    if !(← get).isAt 0 '>' then Scan.refuse start "did not find the expected '>'"
    Scan.skip
    return ("", suffix)
  let found ← handle false start
  if found.length > 1 && found.getLast? == some '!' then
    return (String.ofList found, ← tagText start [])
  let suffix ← tagText start found
  return if suffix.isEmpty then ("", Bytes.ofString "!") else ("!", suffix)

def tag : Scan (String × Tag) := do
  let start := (← get).mark
  let parts ← tagParts start
  Scan.ensure 1
  if !(← get).spaceOrEndAt 0 then
    Scan.refuse start "did not find expected whitespace or line break"
  return parts

def versionNumber (start : Mark) : Scan Nat := do
  let digits ← Scan.takeWhile Char.isDigit
  if digits.length > 2 then Scan.refuse start "found extremely long version number"
  if digits.isEmpty then Scan.refuse start "did not find expected version number"
  return digits.foldl (fun n c => 10 * n + (c.toNat - 48)) 0

def version (start : Mark) : Scan TokenKind := do
  Scan.skipWhile isBlank
  let major ← versionNumber start
  if !(← get).isAt 0 '.' then
    Scan.refuse start "did not find expected digit or '.' character"
  Scan.skip
  return .versionDirective major (← versionNumber start)

def tagDefinition (start : Mark) : Scan TokenKind := do
  Scan.skipWhile isBlank
  let found ← handle true start
  Scan.ensure 1
  if !(← get).blankAt 0 then Scan.refuse start "did not find expected whitespace"
  Scan.skipWhile isBlank
  let lead ← tagText start []
  Scan.ensure 1
  if !(← get).spaceOrEndAt 0 then
    Scan.refuse start "did not find expected whitespace or line break"
  return .tagDirective (String.ofList found) lead

def directive : Scan TokenKind := do
  let start := (← get).mark
  Scan.skip
  let word ← Scan.takeWhile isWordChar
  if word.isEmpty then Scan.refuse start "could not find expected directive name"
  if !(← get).spaceOrEndAt 0 then
    Scan.refuse start "found unexpected non-alphabetical character"
  let kind ←
    if word = "YAML".toList then version start
    else if word = "TAG".toList then tagDefinition start
    else Scan.refuse start "found unknown directive name"
  Scan.skipWhile isBlank
  if (← get).isAt 0 '#' then Scan.skipToBreak
  if !(← get).breakOrEndAt 0 then
    Scan.refuse start "did not find expected comment or line break"
  Scan.skipLine
  return kind

end Token

end Koy.Yaml
