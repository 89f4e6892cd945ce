/-! Places in a YAML text, and what is said when the text cannot be read. -/

namespace Koy.Yaml

/-- A place in a text: characters before it, lines before it, and characters before it in its line. -/
structure Mark where
  index : Nat := 0
  line : Nat := 0
  column : Nat := 0
  deriving DecidableEq, Repr, Inhabited

/-- Why a text cannot be read. A line of zero is not shown. -/
structure Problem where
  line : Nat := 0
  text : String
  deriving DecidableEq, Repr

namespace Problem

/-- A problem with the characters of a piece that begins at `start`, met at `here`. It is shown with
the first line, counted from one, unless both places are in it. -/
def ofText (start here : Mark) (text : String) : Problem :=
  let line := if start.line ≠ 0 then start.line else here.line
  { line := if line = 0 then 0 else line + 1, text }

/-- A problem with the order of tokens in a collection that begins at `start`, met at `here`. It is
shown with the number of lines before it. -/
def ofOrder (start here : Mark) (text : String) : Problem :=
  { line := if start.line ≠ 0 then start.line else here.line, text }

def message (problem : Problem) : String :=
  "yaml: " ++ (if problem.line = 0 then "" else "line " ++ toString problem.line ++ ": ")
    ++ problem.text

end Problem

end Koy.Yaml
