import Koy.Token.Scan

/-! White space and comments. A line comment runs to the end of its line and counts as a line end
even where the input stops; a block comment ends at its first closing mark. -/

namespace Koy.Trivia

inductive Mode where
  | plain
  | line
  | block
  deriving DecidableEq, Repr

/-- Reads on in the given mode; `newline` tells whether a line end has been passed. -/
def scanFrom : Mode → Bool → List Glyph → Scan Bool
  | .plain, newline, [] => ⟨.ok newline, [], []⟩
  | .line, _, [] => ⟨.ok true, [], []⟩
  | .block, _, [] => ⟨.error .openComment, [], []⟩
  | _, _, .stray byte :: rest => ⟨.error .strayByte, [], .stray byte :: rest⟩
  | .plain, newline, .char '/' :: .char '/' :: rest =>
    (scanFrom .line newline rest).behind ['/', '/']
  | .plain, newline, .char '/' :: .char '*' :: rest =>
    (scanFrom .block newline rest).behind ['/', '*']
  | .plain, newline, .char c :: rest =>
    if Text.isBlank c then (scanFrom .plain (newline || c == '\n') rest).behind [c]
    else ⟨.ok newline, [], .char c :: rest⟩
  | .line, newline, .char c :: rest =>
    if c = '\n' then (scanFrom .plain true rest).behind [c]
    else (scanFrom .line newline rest).behind [c]
  | .block, newline, .char '*' :: .char '/' :: rest =>
    (scanFrom .plain newline rest).behind ['*', '/']
  | .block, newline, .char c :: rest =>
    (scanFrom .block (newline || c == '\n') rest).behind [c]

def scan (text : List Glyph) : Scan Bool :=
  scanFrom .plain false text

end Koy.Trivia
