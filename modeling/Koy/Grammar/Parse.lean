import Koy.Token.Stream

/-! Steps of reading a token stream. -/

namespace Koy

/-- A reader of tokens: it moves a stream on and yields something, or refuses the text. -/
abbrev Parse (α : Type) := StateT TokenStream (Except SyntaxError) α

namespace Parse

def token : Parse Token :=
  return (← get).current

def kind : Parse TokenKind :=
  return (← get).current.kind

def advance : Parse Unit := do
  set (← (← get).advance)

/-- The token `n` places after the next one has the given kind. -/
def aheadIs (n : Nat) (wanted : TokenKind) : Parse Bool := do
  let (token, stream) ← (← get).peek n
  set stream
  return token.kind = wanted

def refuse {α : Type} (position : Position) (cause : SyntaxError.Cause) : Parse α :=
  throw { position, cause }

def refuseHere {α : Type} (cause : Token → SyntaxError.Cause) : Parse α := do
  let found ← token
  refuse found.position (cause found)

def tooDeep {α : Type} : Parse α :=
  refuseHere fun _ => .tooDeep

def take : Parse Token := do
  let taken ← token
  advance
  return taken

def expect (wanted : TokenKind) : Parse Token := do
  if (← kind) = wanted then take else refuseHere (.expected wanted)

def skipSemicolons : Nat → Parse Unit
  | 0 => tooDeep
  | budget + 1 => do
    if (← kind) = .semicolon then
      advance
      skipSemicolons budget

end Parse

end Koy
