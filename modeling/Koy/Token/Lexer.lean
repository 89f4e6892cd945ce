import Koy.SyntaxError
import Koy.Token.Lexeme
import Koy.Token.Trivia

/-! The token sequence of a source text. Between the tokens that are written, semicolons are
supplied: after a token that may end a statement, where the line or the input ends and the innermost
open bracket is a block's brace or none, and before the brace that closes a block. -/

namespace Koy

structure Lexer where
  rest : List Glyph
  position : Position := .start
  /-- The token handed out last, unless it was illegal. -/
  last : Option Token := none
  /-- A closing brace that waits behind a supplied semicolon. -/
  held : Option Token := none
  /-- The open brackets, innermost first. -/
  opened : List TokenKind := []

namespace Lexer

def ofSource (source : Bytes) : Lexer :=
  { rest := Glyph.decode source }

/-- The open brackets after a token: an opening one is added, a closing one removes the innermost,
whatever its shape. -/
def bracketsAfter (opened : List TokenKind) (kind : TokenKind) : List TokenKind :=
  if kind.opens then kind :: opened
  else if kind.closes then opened.tail
  else opened

def emit (lexer : Lexer) (token : Token) : Lexer :=
  { lexer with
    last := if token.kind = .illegal then none else some token
    opened := bracketsAfter lexer.opened token.kind }

def statementEnd? (lexer : Lexer) : Option Token :=
  lexer.last.filter fun token => token.kind.endsStatement

/-- A line end may end a statement here. -/
def linesCount (lexer : Lexer) : Bool :=
  match lexer.opened with
  | [] => true
  | innermost :: _ => innermost = .openBrace

def semicolonAfter (token : Token) : Token :=
  { kind := .semicolon, position := token.position }

/-- Hands out a token that was read, or first the semicolon that it implies. -/
def deliver (lexer : Lexer) (token : Token) : Token × Lexer :=
  match lexer.statementEnd? with
  | some before =>
    if token.kind = .closeBrace ∧ lexer.opened.head? = some .openBrace then
      let supplied := semicolonAfter before
      (supplied, { lexer.emit supplied with held := some token })
    else (token, lexer.emit token)
  | none => (token, lexer.emit token)

def moveOn {α : Type} (lexer : Lexer) (scan : Scan α) : Lexer :=
  { lexer with rest := scan.rest, position := lexer.position.afterAll scan.span }

def report (fault : LexicalFault) (start stop : Position) : SyntaxError :=
  { position := if fault.atStop then stop else start, cause := .lexical fault }

def readToken (lexer : Lexer) : Except SyntaxError Token × Lexer :=
  let scan := Lexeme.scan lexer.rest
  let moved := lexer.moveOn scan
  match scan.result with
  | .ok (kind, lexeme) =>
    let (token, next) := moved.deliver { kind, lexeme, position := lexer.position }
    (.ok token, next)
  | .error fault =>
    (.error (report fault lexer.position moved.position),
      if fault.isIllegal then moved.emit { kind := .illegal, position := lexer.position }
      else moved)

/-- The next token, or the fault found instead, and the place after it. Reading may go on after a
fault. -/
def next (lexer : Lexer) : Except SyntaxError Token × Lexer :=
  match lexer.held with
  | some token => (.ok token, { lexer.emit token with held := none })
  | none =>
    let scan := Trivia.scan lexer.rest
    let moved := lexer.moveOn scan
    match scan.result with
    | .error fault => (.error (report fault lexer.position moved.position), moved)
    | .ok newline =>
      match moved.statementEnd? with
      | some before =>
        if (newline || moved.rest.isEmpty) && moved.linesCount then
          let supplied := semicolonAfter before
          (.ok supplied, moved.emit supplied)
        else moved.readToken
      | none => moved.readToken

def readOn : Nat → Nat → Lexer → List (Except SyntaxError Token)
  | 0, _, _ => []
  | budget + 1, resumes, lexer =>
    match lexer.next, resumes with
    | (.ok token, rest), _ =>
      .ok token :: if token.kind = .endOfInput then [] else readOn budget resumes rest
    | (.error error, _), 0 => [.error error]
    | (.error error, rest), more + 1 => .error error :: readOn budget more rest

/-- The tokens and faults of a source text up to its end, or up to a fault after the first `resumes`
ones. Every token but the last takes a character or is a semicolon supplied for one that does. -/
def readAll (source : Bytes) (resumes : Nat) : List (Except SyntaxError Token) :=
  readOn (2 * source.length + 3 + resumes) resumes (.ofSource source)

end Lexer

end Koy
