import Koy.Text.Blank
import Koy.Text.Glyph
import Koy.Text.Lines

/-! The history of a terminal session: the entries of earlier ones and its own. -/

namespace Koy.Repl

abbrev History := List Bytes

namespace History

def limit : Nat := 1000

def latest (history : History) : History :=
  history.drop (history.length - limit)

/-- The lines of a file up to the first that is too long or not UTF-8. -/
def ofFile (content : Bytes) : History :=
  let usable (line : Bytes) : Bool :=
    (line.length < Text.stretch || (line.take Text.stretch).contains Text.lineEnd)
      && line.toString?.isSome
  latest (((Text.lines content).takeWhile usable).map Text.withoutEnd)

def isBlank : Glyph → Bool
  | .char c => Text.isBlank c
  | .stray _ => false

def trim (source : Bytes) : Bytes :=
  (Text.trimBy isBlank (Glyph.decode source)).flatMap Glyph.bytes

/-- Adds an entry without the white space around it, unless it is empty then or repeats the latest
entry. -/
def add (history : History) (source : Bytes) : History :=
  let entry := trim source
  if entry.isEmpty ∨ history.getLast? = some entry then history
  else latest (history ++ [entry])

def toFile (history : History) : Bytes :=
  history.flatMap (· ++ [Text.lineEnd])

end History

end Koy.Repl
