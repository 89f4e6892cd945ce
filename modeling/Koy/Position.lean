/-! Places in a source text. -/

namespace Koy

/-- A place in a source text: bytes before it, its line, and its column in characters. Lines and
columns count from one; a tree that was not read from a text has all three zero. -/
structure Position where
  offset : Nat := 0
  line : Nat := 0
  column : Nat := 0
  deriving DecidableEq, Repr, Inhabited

namespace Position

def start : Position := ⟨0, 1, 1⟩

/-- The place after a character: a newline starts the next line. -/
def after (position : Position) (c : Char) : Position :=
  if c = '\n' then ⟨position.offset + c.utf8Size, position.line + 1, 1⟩
  else ⟨position.offset + c.utf8Size, position.line, position.column + 1⟩

def afterAll (position : Position) (span : List Char) : Position :=
  span.foldl after position

def text (line column : Int) : String :=
  toString line ++ ":" ++ toString column

def render (position : Position) : String :=
  text position.line position.column

@[simp] theorem afterAll_nil (position : Position) : position.afterAll [] = position := rfl

@[simp] theorem afterAll_cons (position : Position) (c : Char) (span : List Char) :
    position.afterAll (c :: span) = (position.after c).afterAll span := rfl

theorem afterAll_append (position : Position) (left right : List Char) :
    position.afterAll (left ++ right) = (position.afterAll left).afterAll right := by
  simp [afterAll]

end Position

end Koy
