import Koy.Text.Bytes

/-! Lines of a text. -/

namespace Koy.Text

def lineEnd : UInt8 := 10

def lines : Bytes → List Bytes
  | [] => []
  | byte :: rest =>
    if byte = lineEnd then [byte] :: lines rest
    else match lines rest with
      | [] => [[byte]]
      | line :: more => (byte :: line) :: more

/-- A line without its line end, to which a carriage return before it belongs. -/
def withoutEnd (line : Bytes) : Bytes :=
  if line.getLast? = some lineEnd then
    if line.dropLast.getLast? = some 13 then line.dropLast.dropLast else line.dropLast
  else line

def stretch : Nat := 4096

/-- A line without its end, in the stretches in which it is read. A carriage return at the end of a
stretch is left to the next, where it may belong to a line end. -/
def stretches : Nat → Bytes → List Bytes
  | 0, _ => []
  | fuel + 1, line =>
    if line.isEmpty then []
    else if line.length < stretch ∨ (line.take stretch).contains lineEnd then [withoutEnd line]
    else if (line.take stretch).getLast? = some 13 then
      line.take (stretch - 1) :: stretches fuel (line.drop (stretch - 1))
    else line.take stretch :: stretches fuel (line.drop stretch)

/-- The pieces in which a line editor hands over a text: its lines without their ends, where a line
that is too long is cut. -/
def typedLines (text : Bytes) : List Bytes :=
  (lines text).flatMap fun line => stretches (line.length + 1) line

end Koy.Text
