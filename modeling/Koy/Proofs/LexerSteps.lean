import Koy.Proofs.Scans
import Koy.Token.Lexer

/-! What the lexer can do in one step. The cases of `Step` are all there are, and each carries what
makes it happen, so that facts about token sequences follow from one case analysis. -/

namespace Koy.Lexer

def semicolonDue (lexer : Lexer) (newline : Bool) : Option Token :=
  lexer.statementEnd?.filter fun _ =>
    (newline || (Trivia.scan lexer.rest).rest.isEmpty) && lexer.linesCount

/-- The token that is read closes a block whose last statement has no semicolon. -/
def blockEndDue (lexer : Lexer) (kind : TokenKind) : Option Token :=
  lexer.statementEnd?.filter fun _ => kind = .closeBrace ∧ lexer.opened.head? = some .openBrace

def pastTrivia (lexer : Lexer) : Lexer :=
  lexer.moveOn (Trivia.scan lexer.rest)

def pastToken (lexer : Lexer) : Lexer :=
  lexer.pastTrivia.moveOn (Lexeme.scan lexer.pastTrivia.rest)

@[simp] theorem emit_rest (lexer : Lexer) (token : Token) : (lexer.emit token).rest = lexer.rest := rfl

@[simp] theorem emit_held (lexer : Lexer) (token : Token) : (lexer.emit token).held = lexer.held := rfl

theorem semicolonAfter_ne_end (before : Token) : (semicolonAfter before).kind ≠ .endOfInput := by
  change TokenKind.semicolon ≠ .endOfInput
  decide

theorem pastTrivia_rest (lexer : Lexer) :
    lexer.pastTrivia.rest = (Trivia.scan lexer.rest).rest := rfl

theorem pastToken_rest (lexer : Lexer) :
    lexer.pastToken.rest = (Lexeme.scan lexer.pastTrivia.rest).rest := rfl

/-- One step of the lexer: what it hands out, and where it stands then. -/
inductive Step (lexer : Lexer) : Except SyntaxError Token → Lexer → Prop where
  | held (token : Token) (waiting : lexer.held = some token) :
      Step lexer (.ok token) { lexer.emit token with held := none }
  | faultyTrivia (fault : LexicalFault) (free : lexer.held = none)
      (failed : (Trivia.scan lexer.rest).result = .error fault) :
      Step lexer (.error (report fault lexer.position lexer.pastTrivia.position)) lexer.pastTrivia
  | lineEnd (newline : Bool) (before : Token) (free : lexer.held = none)
      (passed : (Trivia.scan lexer.rest).result = .ok newline)
      (due : lexer.semicolonDue newline = some before) :
      Step lexer (.ok (semicolonAfter before)) (lexer.pastTrivia.emit (semicolonAfter before))
  | faultyToken (newline : Bool) (fault : LexicalFault) (free : lexer.held = none)
      (passed : (Trivia.scan lexer.rest).result = .ok newline)
      (quiet : lexer.semicolonDue newline = none)
      (failed : (Lexeme.scan lexer.pastTrivia.rest).result = .error fault) :
      Step lexer (.error (report fault lexer.pastTrivia.position lexer.pastToken.position))
        (if fault.isIllegal then
          lexer.pastToken.emit { kind := .illegal, position := lexer.pastTrivia.position }
        else lexer.pastToken)
  | blockEnd (newline : Bool) (kind : TokenKind) (lexeme : String) (before : Token)
      (free : lexer.held = none) (passed : (Trivia.scan lexer.rest).result = .ok newline)
      (quiet : lexer.semicolonDue newline = none)
      (read : (Lexeme.scan lexer.pastTrivia.rest).result = .ok (kind, lexeme))
      (due : lexer.blockEndDue kind = some before) :
      Step lexer (.ok (semicolonAfter before))
        { lexer.pastToken.emit (semicolonAfter before) with
          held := some { kind, lexeme, position := lexer.pastTrivia.position } }
  | token (newline : Bool) (kind : TokenKind) (lexeme : String)
      (free : lexer.held = none) (passed : (Trivia.scan lexer.rest).result = .ok newline)
      (quiet : lexer.semicolonDue newline = none)
      (read : (Lexeme.scan lexer.pastTrivia.rest).result = .ok (kind, lexeme))
      (plain : lexer.blockEndDue kind = none) :
      Step lexer (.ok { kind, lexeme, position := lexer.pastTrivia.position })
        (lexer.pastToken.emit { kind, lexeme, position := lexer.pastTrivia.position })

theorem deliver_eq (lexer : Lexer) (token : Token) :
    lexer.deliver token = match lexer.blockEndDue token.kind with
      | some before => (semicolonAfter before,
          { lexer.emit (semicolonAfter before) with held := some token })
      | none => (token, lexer.emit token) := by
  unfold deliver blockEndDue
  cases lexer.statementEnd? with
  | none => rfl
  | some before =>
      by_cases closing : token.kind = .closeBrace ∧ lexer.opened.head? = some .openBrace
      · simp [closing, Option.filter]
      · simp [closing, Option.filter]

theorem next_eq (lexer : Lexer) (free : lexer.held = none) (newline : Bool)
    (passed : (Trivia.scan lexer.rest).result = .ok newline) :
    lexer.next = match lexer.semicolonDue newline with
      | some before =>
          (.ok (semicolonAfter before), lexer.pastTrivia.emit (semicolonAfter before))
      | none => lexer.pastTrivia.readToken := by
  have ending : lexer.pastTrivia.statementEnd? = lexer.statementEnd? := rfl
  simp only [next, free, passed]
  change (match lexer.pastTrivia.statementEnd? with | some before => _ | none => _) = _
  rw [ending, semicolonDue]
  cases lexer.statementEnd? with
  | none => rfl
  | some before =>
      change (if (newline || (Trivia.scan lexer.rest).rest.isEmpty) && lexer.linesCount then _
        else _) = _
      by_cases due : ((newline || (Trivia.scan lexer.rest).rest.isEmpty) && lexer.linesCount) = true
      · simp [due, pastTrivia, Option.filter]
      · simp [due, pastTrivia, Option.filter]

theorem readToken_step (lexer : Lexer) (newline : Bool) (free : lexer.held = none)
    (passed : (Trivia.scan lexer.rest).result = .ok newline)
    (quiet : lexer.semicolonDue newline = none) :
    Step lexer lexer.pastTrivia.readToken.1 lexer.pastTrivia.readToken.2 := by
  cases result : (Lexeme.scan lexer.pastTrivia.rest).result with
  | error fault =>
      simp only [readToken, result]
      exact .faultyToken newline fault free passed quiet result
  | ok pair =>
      obtain ⟨kind, lexeme⟩ := pair
      have same : (lexer.pastTrivia.moveOn (Lexeme.scan lexer.pastTrivia.rest)).blockEndDue kind =
        lexer.blockEndDue kind := rfl
      simp only [readToken, result, deliver_eq, same]
      cases due : lexer.blockEndDue kind with
      | some before => exact .blockEnd newline kind lexeme before free passed quiet result due
      | none => exact .token newline kind lexeme free passed quiet result due

theorem next_step (lexer : Lexer) : Step lexer lexer.next.1 lexer.next.2 := by
  cases waiting : lexer.held with
  | some token =>
      have handed : lexer.next = (.ok token, { lexer.emit token with held := none }) := by
        simp only [next, waiting]
      rw [handed]
      exact .held token waiting
  | none =>
      cases passed : (Trivia.scan lexer.rest).result with
      | error fault =>
          have failed : lexer.next =
              (.error (report fault lexer.position lexer.pastTrivia.position),
                lexer.pastTrivia) := by
            simp only [next, waiting, passed, pastTrivia]
          rw [failed]
          exact .faultyTrivia fault waiting passed
      | ok newline =>
          rw [next_eq lexer waiting newline passed]
          cases due : lexer.semicolonDue newline with
          | some before => exact .lineEnd newline before waiting passed due
          | none => exact readToken_step lexer newline waiting passed due

theorem step_of_next (lexer : Lexer) (result : Except SyntaxError Token) (after : Lexer)
    (stepped : lexer.next = (result, after)) : Step lexer result after := by
  have step := next_step lexer
  rw [stepped] at step
  exact step

end Koy.Lexer
