import Koy.Grammar
import Koy.Text.Lines

/-! How interactive input is cut into entries: lines are gathered until they are no longer the
beginning of something longer. -/

namespace Koy.Repl

def isIncomplete (source : Bytes) : Bool :=
  match Entry.parseAll source with
  | .ok _ => false
  | .error error => error.incomplete

/-- Adds a line, with its end, to those gathered before. Yields the entry if there is one now, and
what is gathered then. -/
def feed (pending line : Bytes) : Option Bytes × Bytes :=
  let source := pending ++ line
  if isIncomplete source then (none, source) else (some source, [])

/-- The entries of a stream of lines. At the end of the stream what is gathered is an entry too. -/
def streamEntries (pending : Bytes) : List Bytes → List Bytes
  | [] => if pending.isEmpty then [] else [pending]
  | line :: rest =>
    match feed pending line with
    | (none, pending) => streamEntries pending rest
    | (some entry, pending) => entry :: streamEntries pending rest

/-- The entries of a stream of lines that breaks off: a line without end and what is gathered are
lost. -/
def brokenEntries (pending : Bytes) : List Bytes → List Bytes
  | [] => []
  | line :: rest =>
    if line.getLast? ≠ some Text.lineEnd then []
    else match feed pending line with
      | (none, pending) => brokenEntries pending rest
      | (some entry, pending) => entry :: brokenEntries pending rest

structure Turn where
  continues : Bool
  entry? : Option Bytes

def turn (pending line : Bytes) : Turn × Bytes :=
  let source := pending ++ line ++ [Text.lineEnd]
  if isIncomplete source then (⟨!pending.isEmpty, none⟩, source)
  else (⟨!pending.isEmpty, some source⟩, [])

def turns (pending : Bytes) : List Bytes → List Turn × Bytes
  | [] => ([], pending)
  | line :: rest =>
    let (first, pending) := turn pending line
    let (others, pending) := turns pending rest
    (first :: others, pending)

end Koy.Repl
