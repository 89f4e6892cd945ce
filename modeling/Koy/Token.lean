import Koy.Position
import Koy.Text.Quoted

/-! Tokens: the words and signs of a source text. -/

namespace Koy

inductive TokenKind where
  | endOfInput
  | illegal
  | identifier
  | number
  | text
  | fnWord
  | letWord
  | mutableWord
  | ifWord
  | elseWord
  | whileWord
  | printlnWord
  | trueWord
  | falseWord
  | assign
  | equal
  | notEqual
  | plus
  | minus
  | increment
  | decrement
  | times
  | slash
  | percent
  | less
  | lessEqual
  | greater
  | greaterEqual
  | andAnd
  | orOr
  | comma
  | semicolon
  | colon
  | openParen
  | closeParen
  | openBrace
  | closeBrace
  | openBracket
  | closeBracket
  | openSet
  | openMap
  deriving DecidableEq, Repr

namespace TokenKind

def all : List TokenKind :=
  [.endOfInput, .illegal, .identifier, .number, .text, .fnWord, .letWord, .mutableWord, .ifWord,
   .elseWord, .whileWord, .printlnWord, .trueWord, .falseWord, .assign, .equal, .notEqual, .plus,
   .minus, .increment, .decrement, .times, .slash, .percent, .less, .lessEqual, .greater,
   .greaterEqual, .andAnd, .orOr, .comma, .semicolon, .colon, .openParen, .closeParen, .openBrace,
   .closeBrace, .openBracket, .closeBracket, .openSet, .openMap]

def name : TokenKind → String
  | .endOfInput => "EOF"
  | .illegal => "illegal"
  | .identifier => "identifier"
  | .number => "number"
  | .text => "string"
  | .fnWord => "fn"
  | .letWord => "let"
  | .mutableWord => "mutable"
  | .ifWord => "if"
  | .elseWord => "else"
  | .whileWord => "while"
  | .printlnWord => "println"
  | .trueWord => "true"
  | .falseWord => "false"
  | .assign => "="
  | .equal => "=="
  | .notEqual => "!="
  | .plus => "+"
  | .minus => "-"
  | .increment => "++"
  | .decrement => "--"
  | .times => "*"
  | .slash => "/"
  | .percent => "%"
  | .less => "<"
  | .lessEqual => "<="
  | .greater => ">"
  | .greaterEqual => ">="
  | .andAnd => "&&"
  | .orOr => "||"
  | .comma => ","
  | .semicolon => ";"
  | .colon => ":"
  | .openParen => "("
  | .closeParen => ")"
  | .openBrace => "\x7b"
  | .closeBrace => "\x7d"
  | .openBracket => "["
  | .closeBracket => "]"
  | .openSet => "%\x7b"
  | .openMap => "#\x7b"

def nameOfCode (code : Int) : String :=
  match code with
  | .ofNat n => (all[n]?.map name).getD "unknown"
  | .negSucc _ => "unknown"

def keyword? : String → Option TokenKind
  | "fn" => some .fnWord
  | "let" => some .letWord
  | "mutable" => some .mutableWord
  | "if" => some .ifWord
  | "else" => some .elseWord
  | "while" => some .whileWord
  | "println" => some .printlnWord
  | "true" => some .trueWord
  | "false" => some .falseWord
  | _ => none

/-- A statement may end after this kind of token: a line end after it counts as a semicolon. -/
def endsStatement : TokenKind → Bool
  | .identifier | .number | .text | .trueWord | .falseWord | .increment | .decrement
  | .closeParen | .closeBracket | .closeBrace => true
  | _ => false

def opens : TokenKind → Bool
  | .openParen | .openBracket | .openBrace | .openSet | .openMap => true
  | _ => false

def closes : TokenKind → Bool
  | .closeParen | .closeBracket | .closeBrace => true
  | _ => false

end TokenKind

/-- A token with the place of its first character. The lexeme is the spelling of an identifier,
keyword or number, the content of a text literal, and empty for signs. -/
structure Token where
  kind : TokenKind
  lexeme : String := ""
  position : Position := {}
  deriving DecidableEq, Repr

namespace Token

def describe (token : Token) : String :=
  match token.kind with
  | .identifier | .number => token.kind.name ++ " " ++ token.lexeme
  | .text => "string " ++ Text.quoteString token.lexeme
  | .endOfInput => "end of input"
  | kind => Text.quoteString kind.name

end Token

end Koy
