import Koy.Token.Lexer

/-! A token sequence with look-ahead: tokens are read from the source when they are first asked for,
and tokens seen ahead are kept until they become current. -/

namespace Koy

/-- The current token, the tokens seen ahead of it, and the text they come from. -/
structure TokenStream where
  current : Token
  ahead : List Token := []
  lexer : Lexer

namespace TokenStream

def ofLexer (lexer : Lexer) : Except SyntaxError TokenStream :=
  match lexer.next with
  | (.ok token, rest) => .ok { current := token, lexer := rest }
  | (.error error, _) => .error error

def ofSource (source : Bytes) : Except SyntaxError TokenStream :=
  ofLexer (.ofSource source)

def advance (stream : TokenStream) : Except SyntaxError TokenStream :=
  match stream.ahead with
  | token :: ahead => .ok { stream with current := token, ahead := ahead }
  | [] => ofLexer stream.lexer

/-- The input is known to end within the tokens seen ahead. -/
def seesEnd (stream : TokenStream) : Bool :=
  match stream.ahead.getLast? with
  | some token => token.kind = .endOfInput
  | none => false

/-- Reads up to `count` more tokens ahead, but none after the end of the input. -/
def lookFurther : Nat → TokenStream → Except SyntaxError TokenStream
  | 0, stream => .ok stream
  | count + 1, stream =>
    if stream.seesEnd then .ok stream
    else match stream.lexer.next with
      | (.ok token, rest) =>
        lookFurther count { stream with ahead := stream.ahead ++ [token], lexer := rest }
      | (.error error, _) => .error error

/-- The token `n` places after the next one, or the end token if the input ends before. -/
def peek (stream : TokenStream) (n : Nat) : Except SyntaxError (Token × TokenStream) := do
  let further ← lookFurther (n + 1 - stream.ahead.length) stream
  return ((further.ahead[n]? <|> further.ahead.getLast?).getD further.current, further)

end TokenStream

end Koy
