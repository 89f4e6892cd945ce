import Koy.Yaml.Cursor

/-! Comments of a YAML text. A comment may follow a token in its line, or stand before a token; then
further comments may follow it after blanks and line ends. They are looked for within a short
distance only. -/

namespace Koy.Yaml.Comment

/-- The distance within which a comment is looked for. -/
def reach : Nat := 512

def skipFrom (index : Nat) : Nat → Scan Unit
  | 0 => return
  | fuel + 1 => do
    Scan.ensure 1
    let cursor ← get
    if cursor.breakOrEndAt 0 then
      if index ≤ cursor.mark.index then return
      Scan.skipLine
    else Scan.skip
    skipFrom index fuel

def distanceInLine : Nat → Nat → Scan (Option Nat)
  | 0, _ => return none
  | fuel + 1, distance => do
    if ← Scan.attempt (distance + 1) then
      let cursor ← get
      if cursor.blankAt distance then distanceInLine fuel (distance + 1)
      else return if cursor.isAt distance '#' then some distance else none
    else return none

/-- How far away the next comment starts, if nothing but blanks, line feeds and carriage returns
stands before it. Other line ends take more than one byte, and end the search one byte later. -/
def distance : Nat → Nat → Scan (Option Nat)
  | 0, _ => return none
  | fuel + 1, far => do
    if ← Scan.attempt (far + 1) then
      match (← get).peek? far with
      | none => return none
      | some c =>
        if isBlank c || c == '\n' || c == '\r' then distance fuel (far + 1)
        else if isBreak c then
          if fuel > 0 then
            let _ ← Scan.attempt (far + 2)
          return none
        else return if c == '#' then some far else none
    else return none

/-- Passes over a comment after a token, unless a line end stands between them. -/
def skipAfterToken : Scan Unit := do
  if (← get).newlines > 0 then return
  if let some far ← distanceInLine reach 0 then
    let cursor ← get
    skipFrom (cursor.mark.index + far) cursor.limit

def skipFollowing : Nat → Scan Unit
  | 0 => return
  | fuel + 1 => do
    match (← get).current?.filter fun c => c ≠ '\n' ∧ c ≠ '\r' with
    | some _ =>
      let _ ← Scan.attempt 2
    | none =>
      if let some far ← distance (reach - 1) 1 then
        let cursor ← get
        skipFrom (cursor.mark.index + far) cursor.limit
        skipFollowing fuel

def skipAll : Scan Unit := do
  let cursor ← get
  skipFrom cursor.mark.index cursor.limit
  skipFollowing cursor.limit

end Koy.Yaml.Comment
