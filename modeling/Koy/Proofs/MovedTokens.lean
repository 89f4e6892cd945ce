import Koy.Proofs.Relocation

/-! Tokens and errors at other places. A stream whose places are all moved down by the same bytes and
lines hands out the same tokens, or the same fault, at the moved places: the places of tokens are
carried along, and neither the lexer nor the look-ahead looks at them. -/

namespace Koy

section

variable (move : Position → Position)

def SyntaxError.Cause.relocate : SyntaxError.Cause → SyntaxError.Cause
  | .expected wanted found => .expected wanted (found.relocate move)
  | .unterminatedElement found => .unterminatedElement (found.relocate move)
  | .notADefinition found => .notADefinition (found.relocate move)
  | .unterminatedBlockElement found => .unterminatedBlockElement (found.relocate move)
  | .notAKey found => .notAKey (found.relocate move)
  | .notAnExpression found => .notAnExpression (found.relocate move)
  | .afterExpression found => .afterExpression (found.relocate move)
  | cause => cause

def SyntaxError.relocate (error : SyntaxError) : SyntaxError :=
  { position := move error.position, cause := error.cause.relocate move }

def relocateResult {α β : Type} (change : α → β) : Except SyntaxError α → Except SyntaxError β
  | .ok value => .ok (change value)
  | .error error => .error (error.relocate move)

def Lexer.relocate (lexer : Lexer) : Lexer :=
  { lexer with
    position := move lexer.position
    last := lexer.last.map (Token.relocate move)
    held := lexer.held.map (Token.relocate move) }

def TokenStream.relocate (stream : TokenStream) : TokenStream where
  current := stream.current.relocate move
  ahead := stream.ahead.map (Token.relocate move)
  lexer := stream.lexer.relocate move

end

namespace SyntaxError

theorem relocate_id (error : SyntaxError) : error.relocate id = error := by
  obtain ⟨position, cause⟩ := error
  cases cause <;> rfl

theorem incomplete_relocate (move : Position → Position) (error : SyntaxError) :
    (error.relocate move).incomplete = error.incomplete := by
  obtain ⟨position, cause⟩ := error
  cases cause <;> rfl

/-- Messages show lines and columns, and what was found there by its kind and spelling. -/
theorem message_relocate (bytes : Nat) (source : String) (error : SyntaxError) :
    (error.relocate (.below bytes 0)).message source = error.message source := by
  obtain ⟨position, cause⟩ := error
  cases cause <;> rfl

end SyntaxError

namespace Lexer

section

variable (move : Position → Position) (lexer : Lexer)

theorem statementEnd?_relocate :
    (lexer.relocate move).statementEnd? = lexer.statementEnd?.map (Token.relocate move) := by
  rw [statementEnd?, statementEnd?, relocate, Option.filter_map]
  rfl

theorem emit_relocate (token : Token) :
    (lexer.relocate move).emit (token.relocate move) = (lexer.emit token).relocate move := by
  by_cases illegal : token.kind = .illegal
  · simp [emit, relocate, Token.relocate, illegal]
  · simp [emit, relocate, Token.relocate, illegal]

theorem semicolonDue_relocate (newline : Bool) :
    (lexer.relocate move).semicolonDue newline =
      (lexer.semicolonDue newline).map (Token.relocate move) := by
  rw [semicolonDue, semicolonDue, statementEnd?_relocate, Option.filter_map]
  rfl

theorem blockEndDue_relocate (kind : TokenKind) :
    (lexer.relocate move).blockEndDue kind =
      (lexer.blockEndDue kind).map (Token.relocate move) := by
  rw [blockEndDue, blockEndDue, statementEnd?_relocate, Option.filter_map]
  rfl

theorem deliver_relocate (token : Token) :
    (lexer.relocate move).deliver (token.relocate move) =
      Prod.map (Token.relocate move) (relocate move) (lexer.deliver token) := by
  rw [deliver_eq, deliver_eq, Token.relocate_kind, blockEndDue_relocate]
  cases lexer.blockEndDue token.kind with
  | none =>
      rw [Option.map_none, emit_relocate]
      rfl
  | some before =>
      have supplied := emit_relocate move lexer (semicolonAfter before)
      change (semicolonAfter (before.relocate move),
        { (lexer.relocate move).emit ((semicolonAfter before).relocate move) with
          held := some (token.relocate move) }) = _
      rw [supplied]
      rfl

theorem report_relocate (fault : LexicalFault) (start stop : Position) :
    report fault (move start) (move stop) = (report fault start stop).relocate move := by
  unfold report
  split <;> rfl

end

section

variable (bytes lines : Nat) (lexer : Lexer)

theorem moveOn_relocate {α : Type} (scan : Scan α) :
    (lexer.relocate (.below bytes lines)).moveOn scan =
      (lexer.moveOn scan).relocate (.below bytes lines) := by
  simp only [moveOn, relocate, Position.below_afterAll]

theorem readToken_relocate :
    (lexer.relocate (.below bytes lines)).readToken =
      Prod.map (relocateResult (.below bytes lines) (Token.relocate (.below bytes lines)))
        (relocate (.below bytes lines)) lexer.readToken := by
  have same : (lexer.relocate (.below bytes lines)).rest = lexer.rest := rfl
  simp only [readToken, moveOn_relocate, same]
  cases (Lexeme.scan lexer.rest).result with
  | ok pair =>
      obtain ⟨kind, lexeme⟩ := pair
      have delivered := deliver_relocate (.below bytes lines)
        (lexer.moveOn (Lexeme.scan lexer.rest)) { kind, lexeme, position := lexer.position }
      exact congrArg (Prod.map Except.ok id) delivered
  | error fault =>
      have reported := report_relocate (.below bytes lines) fault lexer.position
        (lexer.moveOn (Lexeme.scan lexer.rest)).position
      have skipped := emit_relocate (.below bytes lines) (lexer.moveOn (Lexeme.scan lexer.rest))
        { kind := .illegal, position := lexer.position }
      refine Prod.ext (congrArg Except.error reported) ?_
      change (if fault.isIllegal then _ else _) = relocate _ (if fault.isIllegal then _ else _)
      split
      · exact skipped
      · rfl

theorem next_of_faultyTrivia {fault : LexicalFault} (free : lexer.held = none)
    (failed : (Trivia.scan lexer.rest).result = .error fault) :
    lexer.next = (.error (report fault lexer.position lexer.pastTrivia.position),
      lexer.pastTrivia) := by
  simp only [next, free, failed, pastTrivia]

theorem next_relocate :
    (lexer.relocate (.below bytes lines)).next =
      Prod.map (relocateResult (.below bytes lines) (Token.relocate (.below bytes lines)))
        (relocate (.below bytes lines)) lexer.next := by
  let below := Position.below bytes lines
  cases waiting : lexer.held with
  | some brace =>
      have waiting' : (lexer.relocate below).held = some (brace.relocate below) :=
        congrArg (Option.map _) waiting
      have handed := emit_relocate below lexer brace
      simp only [next, waiting, waiting', below, handed]
      rfl
  | none =>
      have free' : (lexer.relocate below).held = none := congrArg (Option.map _) waiting
      have behind : (lexer.relocate below).pastTrivia = lexer.pastTrivia.relocate below :=
        moveOn_relocate bytes lines lexer _
      cases passed : (Trivia.scan lexer.rest).result with
      | error fault =>
          have passed' : (Trivia.scan (lexer.relocate below).rest).result = .error fault := passed
          have failed : (lexer.relocate below).next = _ := next_of_faultyTrivia _ free' passed'
          rw [failed, next_of_faultyTrivia lexer waiting passed, behind]
          exact Prod.ext (congrArg Except.error (report_relocate below fault _ _)) rfl
      | ok newline =>
          have stepped : (lexer.relocate below).next = _ := next_eq _ free' newline passed
          rw [stepped, next_eq lexer waiting newline passed, behind, semicolonDue_relocate]
          cases lexer.semicolonDue newline with
          | some before =>
              exact Prod.ext rfl (emit_relocate below lexer.pastTrivia (semicolonAfter before))
          | none => exact readToken_relocate bytes lines lexer.pastTrivia

end

end Lexer

namespace TokenStream

theorem relocate_id (stream : TokenStream) : stream.relocate id = stream := by
  have same : Token.relocate id = id := rfl
  rw [relocate, Lexer.relocate, same]
  simp

variable (bytes lines : Nat) (stream : TokenStream)

theorem ofLexer_relocate (lexer : Lexer) :
    ofLexer (lexer.relocate (.below bytes lines)) =
      relocateResult (.below bytes lines) (relocate (.below bytes lines)) (ofLexer lexer) := by
  rw [ofLexer, Lexer.next_relocate, ofLexer]
  rcases lexer.next with ⟨_ | _, _⟩ <;> rfl

theorem advance_relocate :
    (stream.relocate (.below bytes lines)).advance =
      relocateResult (.below bytes lines) (relocate (.below bytes lines)) stream.advance := by
  obtain ⟨current, ahead, lexer⟩ := stream
  cases ahead with
  | nil => exact ofLexer_relocate bytes lines lexer
  | cons token ahead => rfl

theorem seesEnd_relocate (move : Position → Position) :
    (stream.relocate move).seesEnd = stream.seesEnd := by
  have last : (stream.relocate move).ahead.getLast? = stream.ahead.getLast?.map (Token.relocate move) :=
    List.getLast?_map
  rw [seesEnd, last, seesEnd]
  cases stream.ahead.getLast? <;> rfl

theorem lookFurther_relocate (count : Nat) :
    lookFurther count (stream.relocate (.below bytes lines)) =
      relocateResult (.below bytes lines) (relocate (.below bytes lines))
        (lookFurther count stream) := by
  induction count generalizing stream with
  | zero => rfl
  | succ count ih =>
      have next : (stream.relocate (.below bytes lines)).lexer.next = _ :=
        Lexer.next_relocate bytes lines stream.lexer
      rw [lookFurther, lookFurther, seesEnd_relocate, next]
      split
      · rfl
      · rcases stream.lexer.next with ⟨error | token, rest⟩
        · rfl
        · let grown : TokenStream := { stream with ahead := stream.ahead ++ [token], lexer := rest }
          have moved : grown.relocate (.below bytes lines) =
              { stream.relocate (.below bytes lines) with
                ahead := (stream.relocate (.below bytes lines)).ahead ++
                  [token.relocate (.below bytes lines)]
                lexer := rest.relocate (.below bytes lines) } := by
            simp [grown, relocate]
          exact (congrArg (lookFurther count) moved).symm.trans (ih grown)

theorem peek_relocate (n : Nat) :
    (stream.relocate (.below bytes lines)).peek n =
      relocateResult (.below bytes lines)
        (Prod.map (Token.relocate (.below bytes lines)) (relocate (.below bytes lines)))
        (stream.peek n) := by
  have far : n + 1 - (stream.relocate (.below bytes lines)).ahead.length =
      n + 1 - stream.ahead.length := by
    rw [relocate, List.length_map]
  rw [peek, far, lookFurther_relocate, peek]
  cases lookFurther (n + 1 - stream.ahead.length) stream with
  | error error => rfl
  | ok further =>
      have seen : ((further.relocate (.below bytes lines)).ahead[n]? <|>
          (further.relocate (.below bytes lines)).ahead.getLast?) =
          (further.ahead[n]? <|> further.ahead.getLast?).map (Token.relocate (.below bytes lines)) := by
        simp [relocate, Option.map_or]
      refine congrArg Except.ok (Prod.ext ?_ rfl)
      exact (congrArg (Option.getD · _) seen).trans (Option.getD_map _ _ _)

end TokenStream

end Koy
