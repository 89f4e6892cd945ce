import Koy.Text.Blank
import Koy.Text.Digit
import Koy.Text.Glyph
import Koy.Text.Letter
import Koy.Text.Quoted

/-! What reading one piece of source text yields, and why it may fail. -/

namespace Koy

inductive LexicalFault where
  | strayByte
  | openComment
  | openText
  | openEscape
  | newlineInText
  | malformedNumber (digits : String) (next : Char)
  | loneHash
  | unexpected (c : Char)
  deriving DecidableEq, Repr

namespace LexicalFault

def message : LexicalFault → String
  | .strayByte => "invalid UTF-8 encoding"
  | .openComment => "unterminated block comment"
  | .openText => "unterminated string literal"
  | .openEscape => "unterminated escape sequence"
  | .newlineInText => "newline in string literal"
  | .malformedNumber digits next => "malformed integer literal " ++ digits ++ String.singleton next
  | .loneHash => "expected '\x7b' after '#' for mapping literal"
  | .unexpected c => "unexpected character " ++ Text.quoteChar c

def incomplete : LexicalFault → Bool
  | .openComment | .openText | .openEscape => true
  | _ => false

/-- The fault is reported where reading stopped, not where the piece began. -/
def atStop : LexicalFault → Bool
  | .strayByte | .openComment => true
  | _ => false

/-- The offending character is passed over as an illegal token. -/
def isIllegal : LexicalFault → Bool
  | .loneHash | .unexpected _ => true
  | _ => false

end LexicalFault

/-- The outcome of reading one piece of text: the characters passed over, also by a failed
attempt, and the text after them. -/
structure Scan (α : Type) where
  result : Except LexicalFault α
  span : List Char := []
  rest : List Glyph

namespace Scan

def behind {α : Type} (passed : List Char) (scan : Scan α) : Scan α :=
  { scan with span := passed ++ scan.span }

def map {α β : Type} (f : α → β) (scan : Scan α) : Scan β :=
  ⟨scan.result.map f, scan.span, scan.rest⟩

end Scan

end Koy
