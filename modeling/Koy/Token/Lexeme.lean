import Koy.Token
import Koy.Token.Scan

/-! Source tokens: names, numbers, text literals and signs, each as long as possible. -/

namespace Koy.Lexeme

def startsName (c : Char) : Bool :=
  Text.isLetter c || c == '_'

def continuesName (c : Char) : Bool :=
  startsName c || Text.isDecimalDigit c

def run (p : Char → Bool) : List Glyph → List Char × List Glyph
  | .char c :: rest =>
    if p c then
      let (taken, left) := run p rest
      (c :: taken, left)
    else ([], .char c :: rest)
  | rest => ([], rest)

def unescape (c : Char) : Char :=
  if c = 'n' then '\n' else if c = 't' then '\t' else c

/-- Reads the content of a text literal after its opening quote. -/
def text : List Glyph → Scan (List Char)
  | [] => ⟨.error .openText, [], []⟩
  | .stray byte :: rest => ⟨.error .strayByte, [], .stray byte :: rest⟩
  | .char '"' :: rest => ⟨.ok [], ['"'], rest⟩
  | .char '\\' :: [] => ⟨.error .openEscape, ['\\'], []⟩
  | .char '\\' :: .stray byte :: rest => ⟨.error .strayByte, ['\\'], .stray byte :: rest⟩
  | .char '\\' :: .char c :: rest =>
    ((text rest).map (unescape c :: ·)).behind ['\\', c]
  | .char c :: rest =>
    if c = '\n' then ⟨.error .newlineInText, [c], rest⟩
    else ((text rest).map (c :: ·)).behind [c]

def name (first : Char) (following : List Glyph) : Scan (TokenKind × String) :=
  let (more, rest) := run continuesName following
  let word := String.ofList (first :: more)
  ⟨.ok ((TokenKind.keyword? word).getD .identifier, word), first :: more, rest⟩

/-- Reads a number that starts with `first`. A letter, an underscore or a dot may not follow it, and
is passed over with it. -/
def number (first : Char) (following : List Glyph) : Scan (TokenKind × String) :=
  let (more, rest) := run Text.isDecimalDigit following
  let digits := first :: more
  match rest with
  | .char c :: beyond =>
    if c == '.' || startsName c then
      ⟨.error (.malformedNumber (String.ofList digits) c), digits ++ [c], beyond⟩
    else ⟨.ok (.number, String.ofList digits), digits, rest⟩
  | _ => ⟨.ok (.number, String.ofList digits), digits, rest⟩

def sign (first : Char) (second : Option Char) : Except LexicalFault (TokenKind × Bool) :=
  match first, second with
  | '+', some '+' => .ok (.increment, true)
  | '+', _ => .ok (.plus, false)
  | '-', some '-' => .ok (.decrement, true)
  | '-', _ => .ok (.minus, false)
  | '*', _ => .ok (.times, false)
  | '/', _ => .ok (.slash, false)
  | '%', some '\x7b' => .ok (.openSet, true)
  | '%', _ => .ok (.percent, false)
  | '#', some '\x7b' => .ok (.openMap, true)
  | '#', _ => .error .loneHash
  | '(', _ => .ok (.openParen, false)
  | ')', _ => .ok (.closeParen, false)
  | '\x7b', _ => .ok (.openBrace, false)
  | '\x7d', _ => .ok (.closeBrace, false)
  | '[', _ => .ok (.openBracket, false)
  | ']', _ => .ok (.closeBracket, false)
  | ',', _ => .ok (.comma, false)
  | ';', _ => .ok (.semicolon, false)
  | ':', _ => .ok (.colon, false)
  | '=', some '=' => .ok (.equal, true)
  | '=', _ => .ok (.assign, false)
  | '!', some '=' => .ok (.notEqual, true)
  | '<', some '=' => .ok (.lessEqual, true)
  | '<', _ => .ok (.less, false)
  | '>', some '=' => .ok (.greaterEqual, true)
  | '>', _ => .ok (.greater, false)
  | '&', some '&' => .ok (.andAnd, true)
  | '|', some '|' => .ok (.orOr, true)
  | c, _ => .error (.unexpected c)

def symbol (first : Char) (following : List Glyph) : Scan (TokenKind × String) :=
  match sign first (Glyph.firstChar? following), following with
  | .ok (kind, true), .char second :: rest => ⟨.ok (kind, ""), [first, second], rest⟩
  | .ok (kind, _), rest => ⟨.ok (kind, ""), [first], rest⟩
  | .error fault, rest => ⟨.error fault, [first], rest⟩

def scan : List Glyph → Scan (TokenKind × String)
  | [] => ⟨.ok (.endOfInput, ""), [], []⟩
  | .stray byte :: rest => ⟨.error .strayByte, [], .stray byte :: rest⟩
  | .char c :: rest =>
    if startsName c then name c rest
    else if Text.isDecimalDigit c then number c rest
    else if c = '"' then
      ((text rest).map fun content => (TokenKind.text, String.ofList content)).behind [c]
    else symbol c rest

end Koy.Lexeme
