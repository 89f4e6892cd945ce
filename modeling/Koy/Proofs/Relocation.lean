import Koy.Program
import Koy.Proofs.LexingStability
import Koy.Proofs.SemicolonInsertion

/-! Text that is moved down. Put after lines of other text, the tokens of a text are the same but for
their places, all of which move by the same bytes and lines. -/

namespace Koy

namespace Position

/-- The place when so many bytes and lines come before the text. -/
def below (bytes lines : Nat) (position : Position) : Position :=
  ⟨position.offset + bytes, position.line + lines, position.column⟩

theorem below_after (bytes lines : Nat) (position : Position) (c : Char) :
    (position.after c).below bytes lines = (position.below bytes lines).after c := by
  unfold after
  split
  · simp only [below, Nat.add_right_comm]
  · simp only [below, Nat.add_right_comm]

theorem below_afterAll (bytes lines : Nat) (position : Position) (span : List Char) :
    (position.afterAll span).below bytes lines = (position.below bytes lines).afterAll span := by
  induction span generalizing position with
  | nil => rfl
  | cons c span ih => rw [afterAll_cons, ih, below_after, afterAll_cons]

theorem count_encodeChar (c : Char) :
    (String.utf8EncodeChar c).count 10 = if c = '\n' then 1 else 0 := by
  by_cases here : c = '\n'
  · subst here
    decide
  · rw [if_neg here, List.count_eq_zero]
    intro member
    obtain ⟨before, after, shape⟩ := List.append_of_mem member
    obtain ⟨rfl, rfl⟩ := Glyph.encodeChar_of_lineEnd c before after shape
    have newline : Glyph.decode [10] = [.char '\n'] := Glyph.decode_ofChars ['\n']
    have self := Glyph.decode_encodeChar_append c []
    rw [shape] at self
    exact here (Glyph.char.inj (List.cons.inj (self.symm.trans newline)).1)

theorem afterAll_eq (position : Position) (text : List Char) :
    position.afterAll text = ⟨position.offset + (Bytes.ofChars text).length,
      position.line + (Bytes.ofChars text).count 10, (position.afterAll text).column⟩ := by
  induction text generalizing position with
  | nil => rfl
  | cons c text ih =>
      rw [afterAll_cons, ih, Bytes.ofChars_cons, List.length_append, List.count_append,
        count_encodeChar, String.length_utf8EncodeChar]
      unfold after
      split <;> simp [Nat.add_assoc]

theorem start_below_eq (text : List Char) (ends : text.getLast? = some '\n') :
    start.afterAll text = start.below (Bytes.ofChars text).length ((Bytes.ofChars text).count 10) := by
  obtain ⟨lines, rfl⟩ := List.getLast?_eq_some_iff.mp ends
  have column : (start.afterAll (lines ++ ['\n'])).column = 1 := by
    rw [afterAll_append]
    rfl
  rw [afterAll_eq, column]
  simp [below, start, Nat.add_comm]

end Position

def Token.relocate (move : Position → Position) (token : Token) : Token :=
  { token with position := move token.position }

@[simp] theorem Token.relocate_kind (move : Position → Position) (token : Token) :
    (token.relocate move).kind = token.kind := rfl

namespace Expr

variable (move : Position → Position)

mutual

def relocate : Expr → Expr
  | .missing => .missing
  | .int value position => .int value (move position)
  | .bool value position => .bool value (move position)
  | .text value position => .text value (move position)
  | .sequence items position => .sequence (relocateAll items) (move position)
  | .set items position => .set (relocateAll items) (move position)
  | .mapping entries position => .mapping (relocateEntries entries) (move position)
  | .function params id body bodyPosition position =>
    .function params id (relocateAll body) (move bodyPosition) (move position)
  | .identifier name position => .identifier name (move position)
  | .update op before operand position => .update op before (relocate operand) (move position)
  | .binary op lhs rhs position => .binary op (relocate lhs) (relocate rhs) (move position)
  | .declare name mutable value position => .declare name mutable (relocate value) (move position)
  | .assign name value position => .assign name (relocate value) (move position)
  | .println argument position => .println (relocate argument) (move position)
  | .branch condition consequent alternative position =>
    .branch (relocate condition) (relocate consequent) (relocateAlternative alternative)
      (move position)
  | .loop condition body position => .loop (relocate condition) (relocate body) (move position)
  | .block elements position => .block (relocateAll elements) (move position)
  | .call callee arguments position => .call callee (relocateAll arguments) (move position)
  | .labeledCall callee arguments position =>
    .labeledCall callee (relocateEntries arguments) (move position)

def relocateAll : List Expr → List Expr
  | [] => []
  | expr :: rest => relocate expr :: relocateAll rest

def relocateEntries : List (String × Expr) → List (String × Expr)
  | [] => []
  | (name, expr) :: rest => (name, relocate expr) :: relocateEntries rest

def relocateAlternative : Option Expr → Option Expr
  | none => none
  | some alternative => some (relocate alternative)

end

mutual

theorem relocate_id : (expr : Expr) → expr.relocate id = expr
  | .missing | .int _ _ | .bool _ _ | .text _ _ | .identifier _ _ => rfl
  | .sequence items _ | .set items _ | .block items _ => by
      rw [relocate, relocateAll_id items, id]
  | .function _ _ body _ _ => by rw [relocate, relocateAll_id body, id, id]
  | .mapping entries _ | .labeledCall _ entries _ => by
      rw [relocate, relocateEntries_id entries, id]
  | .call _ arguments _ => by rw [relocate, relocateAll_id arguments, id]
  | .update _ _ operand _ => by rw [relocate, relocate_id operand, id]
  | .binary _ lhs rhs _ | .loop lhs rhs _ => by rw [relocate, relocate_id lhs, relocate_id rhs, id]
  | .declare _ _ value _ | .assign _ value _ | .println value _ => by
      rw [relocate, relocate_id value, id]
  | .branch condition consequent alternative _ => by
      rw [relocate, relocate_id condition, relocate_id consequent,
        relocateAlternative_id alternative, id]

theorem relocateAll_id : (exprs : List Expr) → relocateAll id exprs = exprs
  | [] => rfl
  | expr :: rest => by rw [relocateAll, relocate_id expr, relocateAll_id rest]

theorem relocateEntries_id : (entries : List (String × Expr)) → relocateEntries id entries = entries
  | [] => rfl
  | (name, expr) :: rest => by rw [relocateEntries, relocate_id expr, relocateEntries_id rest]

theorem relocateAlternative_id :
    (alternative : Option Expr) → relocateAlternative id alternative = alternative
  | none => rfl
  | some expr => by rw [relocateAlternative, relocate_id expr]

end

end Expr

def Body.relocate (move : Position → Position) (body : Body) : Body :=
  { body with elements := Expr.relocateAll move body.elements, position := move body.position }

def FunctionDef.relocate (move : Position → Position) (function : FunctionDef) : FunctionDef :=
  { function with body := function.body.relocate move, position := move function.position }

def ValueDef.relocate (move : Position → Position) (definition : ValueDef) : ValueDef :=
  { definition with value := definition.value.relocate move, position := move definition.position }

def Entry.relocate (move : Position → Position) : Entry → Entry
  | .function defined => .function (defined.relocate move)
  | .expression expr => .expression (expr.relocate move)

theorem FunctionDef.relocate_id (defined : FunctionDef) : defined.relocate id = defined := by
  rw [relocate, Body.relocate, Expr.relocateAll_id]
  rfl

theorem ValueDef.relocate_id (defined : ValueDef) : defined.relocate id = defined := by
  rw [relocate, Expr.relocate_id]
  rfl

theorem Entry.relocate_id (entry : Entry) : entry.relocate id = entry := by
  cases entry with
  | function defined => rw [relocate, FunctionDef.relocate_id]
  | expression expr => rw [relocate, Expr.relocate_id]

namespace Lexer

/-- The two lexers stand before the same text, one with the places of the other moved. -/
structure Moved (move : Position → Position) (lexer other : Lexer) : Prop where
  rest : other.rest = lexer.rest
  position : other.position = move lexer.position
  held : other.held = lexer.held.map (Token.relocate move)
  opened : other.opened = lexer.opened
  ending : other.statementEnd? = lexer.statementEnd?.map (Token.relocate move)

namespace Moved

variable {bytes lines : Nat} {lexer other after : Lexer} {token : Token}

theorem moveOn {α : Type} (moved : Moved (.below bytes lines) lexer other) (scan : Scan α) :
    Moved (.below bytes lines) (lexer.moveOn scan) (other.moveOn scan) where
  rest := rfl
  position := by
    change other.position.afterAll scan.span = _
    rw [moved.position, ← Position.below_afterAll]
    rfl
  held := moved.held
  opened := moved.opened
  ending := moved.ending

variable {move : Position → Position}

theorem emit (moved : Moved move lexer other) (token : Token) :
    Moved move (lexer.emit token) (other.emit (token.relocate move)) where
  rest := moved.rest
  position := moved.position
  held := moved.held
  opened := by
    change bracketsAfter other.opened token.kind = bracketsAfter lexer.opened token.kind
    rw [moved.opened]
  ending := by
    unfold statementEnd?
    by_cases illegal : token.kind = .illegal
    · simp [Lexer.emit, Token.relocate, illegal]
    · have illegal' : (token.relocate move).kind ≠ .illegal := illegal
      rw [Lexer.emit, Lexer.emit, if_neg illegal, if_neg illegal', ← Option.map_some,
        Option.filter_map]
      rfl

theorem semicolonDue (moved : Moved move lexer other) (newline : Bool) :
    other.semicolonDue newline = (lexer.semicolonDue newline).map (Token.relocate move) := by
  unfold Lexer.semicolonDue linesCount
  rw [moved.ending, moved.rest, moved.opened, Option.filter_map]
  rfl

theorem blockEndDue (moved : Moved move lexer other) (kind : TokenKind) :
    other.blockEndDue kind = (lexer.blockEndDue kind).map (Token.relocate move) := by
  unfold Lexer.blockEndDue
  rw [moved.ending, moved.opened, Option.filter_map]
  rfl

theorem readToken (moved : Moved (.below bytes lines) lexer other)
    (read : lexer.readToken = (.ok token, after)) :
    ∃ after', other.readToken = (.ok (token.relocate (.below bytes lines)), after') ∧
      Moved (.below bytes lines) after after' := by
  cases result : (Lexeme.scan lexer.rest).result with
  | error fault =>
      simp only [Lexer.readToken, result] at read
      cases read
  | ok pair =>
      obtain ⟨kind, lexeme⟩ := pair
      have result' : (Lexeme.scan other.rest).result = .ok (kind, lexeme) := by
        rw [moved.rest, result]
      have behind := moved.moveOn (Lexeme.scan lexer.rest)
      have due' := moved.blockEndDue kind
      cases due : lexer.blockEndDue kind with
      | none =>
          rw [due] at due'
          rw [readToken_plain result due] at read
          rw [readToken_plain result' due', moved.position, moved.rest]
          cases read
          exact ⟨_, rfl, behind.emit _⟩
      | some before =>
          rw [due] at due'
          rw [readToken_blockEnd result due] at read
          rw [readToken_blockEnd result' due', moved.position, moved.rest]
          cases read
          have waiting := behind.emit (semicolonAfter before)
          exact ⟨_, rfl, { waiting with held := rfl }⟩

theorem next (moved : Moved (.below bytes lines) lexer other)
    (stepped : lexer.next = (.ok token, after)) :
    ∃ after', other.next = (.ok (token.relocate (.below bytes lines)), after') ∧
      Moved (.below bytes lines) after after' := by
  cases waiting : lexer.held with
  | some brace =>
      have waiting' : other.held = some (brace.relocate (.below bytes lines)) := by
        rw [moved.held, waiting]
        rfl
      simp only [Lexer.next, waiting] at stepped
      simp only [Lexer.next, waiting']
      cases stepped
      exact ⟨_, rfl, { moved.emit _ with held := rfl }⟩
  | none =>
      have free' : other.held = none := by
        rw [moved.held, waiting]
        rfl
      cases passed : (Trivia.scan lexer.rest).result with
      | error fault =>
          simp only [Lexer.next, waiting, passed] at stepped
          cases stepped
      | ok newline =>
          have passed' : (Trivia.scan other.rest).result = .ok newline := by
            rw [moved.rest, passed]
          have behind : Moved (.below bytes lines) lexer.pastTrivia other.pastTrivia := by
            unfold pastTrivia
            rw [moved.rest]
            exact moved.moveOn _
          have due' := moved.semicolonDue newline
          cases due : lexer.semicolonDue newline with
          | none =>
              rw [due] at due'
              rw [next_of_quiet waiting passed due] at stepped
              rw [next_of_quiet free' passed' due']
              exact behind.readToken stepped
          | some before =>
              rw [due] at due'
              rw [next_semicolon waiting passed due] at stepped
              rw [next_semicolon free' passed' due']
              cases stepped
              exact ⟨_, rfl, behind.emit _⟩

theorem item (moved : Moved (.below bytes lines) lexer other) (n : Nat)
    (found : lexer.item n = .ok token) :
    other.item n = .ok (token.relocate (.below bytes lines)) := by
  induction n generalizing lexer other with
  | zero =>
      obtain ⟨after', stepped, -⟩ := moved.next (Prod.ext found rfl)
      exact congrArg Prod.fst stepped
  | succ n ih =>
      rw [Lexer.item] at found
      split at found
      · rename_i first rest stepped
        obtain ⟨after', stepped', moved'⟩ := moved.next stepped
        rw [item_succ_of_ok stepped']
        exact ih moved' found
      · cases found

end Moved

variable {lexer after : Lexer} {token : Token} {tokens : List Token}

def Within (text : List Glyph) (lexer : Lexer) : Prop :=
  ∃ passed : List Char, text = passed.map .char ++ lexer.rest ∧
    lexer.position = Position.start.afterAll passed

theorem Within.moveOn {α : Type} {text : List Glyph} {scan : Scan α} (within : Within text lexer)
    (split : scan.Splits lexer.rest) : Within text (lexer.moveOn scan) := by
  obtain ⟨passed, shape, place⟩ := within
  refine ⟨passed ++ scan.span, ?_, ?_⟩
  · rw [shape, List.map_append, List.append_assoc]
    exact congrArg (passed.map .char ++ ·) split
  · change lexer.position.afterAll scan.span = _
    rw [place, Position.afterAll_append]

theorem Within.pastTrivia {text : List Glyph} (within : Within text lexer) :
    Within text lexer.pastTrivia :=
  within.moveOn (Trivia.scan_splits _)

theorem Within.pastToken {text : List Glyph} (within : Within text lexer) :
    Within text lexer.pastToken :=
  within.pastTrivia.moveOn (Lexeme.scan_splits _)

theorem Within.step {text : List Glyph} {result : Except SyntaxError Token}
    (within : Within text lexer) (step : Step lexer result after) : Within text after := by
  cases step with
  | held => exact within
  | faultyTrivia | lineEnd => exact within.pastTrivia
  | faultyToken =>
      split
      · exact within.pastToken
      · exact within.pastToken
  | blockEnd => exact within.pastToken
  | token => exact within.pastToken

theorem Within.passes {text : List Glyph} (within : Within text lexer)
    (passes : Passes lexer tokens after) : Within text after := by
  induction passes with
  | nil => exact within
  | cons stepped _ _ ih => exact ih (within.step (step_of_next _ _ _ stepped))

theorem Within.position_eq {text : List Char} (within : Within (text.map .char) lexer)
    (nothing : lexer.rest = []) : lexer.position = Position.start.afterAll text := by
  obtain ⟨passed, shape, place⟩ := within
  rw [nothing, List.append_nil] at shape
  rw [place, (List.map_inj_right fun _ _ => Glyph.char.inj).mp shape]

theorem Step.opened_eq (step : Step lexer (.ok token) after) :
    after.opened = bracketsAfter lexer.opened token.kind := by
  cases step with
  | held | lineEnd | blockEnd | token => rfl

theorem Passes.opened_eq (passes : Passes lexer tokens after) :
    after.opened = tokens.foldl (fun opened token => bracketsAfter opened token.kind) lexer.opened := by
  induction passes with
  | nil => rfl
  | cons stepped _ _ ih => rw [ih, (step_of_next _ _ _ stepped).opened_eq, List.foldl_cons]

theorem Moved.item_of_readToken {bytes lines : Nat} {reached place fresh origin : Lexer}
    (moved : Moved (.below bytes lines) origin place) (here : reached.next = place.readToken)
    (there : fresh.next = origin.readToken) (n : Nat) (found : fresh.item n = .ok token) :
    reached.item n = .ok (token.relocate (.below bytes lines)) := by
  cases stepped : fresh.next with
  | mk result rest =>
      cases result with
      | error error =>
          rw [item_of_error (congrArg Prod.fst stepped) n] at found
          cases found
      | ok first =>
          obtain ⟨rest', read, moved'⟩ := moved.readToken (there.symm.trans stepped)
          have stepped' := here.trans read
          cases n with
          | zero =>
              have same : first = token := Except.ok.inj ((congrArg Prod.fst stepped).symm.trans found)
              rw [← same]
              exact congrArg Prod.fst stepped'
          | succ n =>
              rw [item_succ_of_ok stepped] at found
              rw [item_succ_of_ok stepped']
              exact moved'.item n found

/-- A lexer before a text that ends a line, of which only the end token is left, is on the last line. -/
theorem onLastLine_of_end (sound : lexer.Sound) (ends : EndsLine lexer.rest)
    (last : lexer.next.1 = .ok token) (ended : token.kind = .endOfInput) : lexer.OnLastLine := by
  rcases next_goes lexer sound ends with
    (⟨found, left, proper, -, alone, -⟩ | ⟨error, failed, -⟩ | failing) | onLast
  · rw [alone] at last
    cases last
    exact absurd ended proper
  · rw [failed] at last
    cases last
  · obtain ⟨error, failed⟩ := failing []
    rw [followedBy_nil, last] at failed
    cases failed
  · exact onLast

theorem statementEnd?_of_end (sound : lexer.Sound) (level : lexer.opened = [])
    (last : lexer.next.1 = .ok token) (ended : token.kind = .endOfInput) :
    lexer.statementEnd? = none := by
  have step := next_step lexer
  rw [last] at step
  generalize lexer.next.2 = after at step
  cases step with
  | held token waiting =>
      have closing := sound token waiting
      rw [ended] at closing
      cases closing
  | lineEnd | blockEnd => cases ended
  | token newline kind lexeme free passed quiet read plain =>
      have is : kind = .endOfInput := ended
      subst is
      have nothing := Lexeme.eq_nil_of_scan_endOfInput _ _ read
      rw [pastTrivia_rest] at nothing
      cases ending : lexer.statementEnd? with
      | none => rfl
      | some before =>
          simp [semicolonDue, ending, nothing, linesCount, level] at quiet

theorem Step.statementEnd? (step : Step lexer (.ok token) after)
    (ends : token.kind.endsStatement = true) : after.statementEnd?.isSome = true := by
  have legal : token.kind ≠ .illegal := by
    intro illegal
    rw [illegal] at ends
    cases ends
  cases step with
  | held => exact (emit_pending lexer _ legal).trans ends
  | lineEnd => exact (emit_pending lexer.pastTrivia _ legal).trans ends
  | blockEnd | token => exact (emit_pending lexer.pastToken _ legal).trans ends

theorem Passes.statementEnd? (passes : Passes lexer tokens after)
    (last : tokens.getLast? = some token) (ends : token.kind.endsStatement = true) :
    after.statementEnd?.isSome = true := by
  induction passes with
  | nil => cases last
  | cons stepped _ rest ih =>
      cases rest with
      | nil =>
          cases last
          exact (step_of_next _ _ _ stepped).statementEnd? ends
      | cons => exact ih (by rw [← last, List.getLast?_cons_cons])

section

variable {text : List Char} {more : Bytes} {newline : Bool}

theorem OnLastLine.moved (last : lexer.OnLastLine) (within : Within (text.map .char) lexer)
    (ends : text.getLast? = some '\n')
    (clear : (Trivia.scan (Glyph.decode more)).result = .ok newline) (place : Lexer)
    (rest : place.rest = (lexer.followedBy (Glyph.decode more)).pastTrivia.rest)
    (position : place.position = (lexer.followedBy (Glyph.decode more)).pastTrivia.position)
    (held : place.held = none) (opened : place.opened = []) (ending : place.statementEnd? = none) :
    Moved (.below (Bytes.ofChars text).length ((Bytes.ofChars text).count 10))
      (ofSource more).pastTrivia place where
  rest := by
    rw [rest, pastTrivia_rest, last.scan_followedBy clear]
    rfl
  position := by
    have reached : lexer.position.afterAll (Trivia.scan lexer.rest).span =
      Position.start.afterAll text := within.pastTrivia.position_eq last.nothing
    rw [position, pastTrivia, last.scan_followedBy clear]
    change lexer.position.afterAll _ =
      (Position.start.afterAll (Trivia.scan (Glyph.decode more)).span).below _ _
    rw [Position.afterAll_append, reached, Position.start_below_eq text ends,
      Position.below_afterAll]
  held := held
  opened := opened
  ending := ending

theorem next_ofSource (clear : (Trivia.scan (Glyph.decode more)).result = .ok newline) :
    (ofSource more).next = (ofSource more).pastTrivia.readToken :=
  next_of_quiet rfl clear (semicolonDue_of_statementEnd? _ _ rfl)

theorem OnLastLine.item_followedBy (last : lexer.OnLastLine) (within : Within (text.map .char) lexer)
    (ends : text.getLast? = some '\n')
    (clear : (Trivia.scan (Glyph.decode more)).result = .ok newline) (level : lexer.opened = [])
    (ending : lexer.statementEnd? = none) (n : Nat) (token : Token)
    (found : (ofSource more).item n = .ok token) :
    (lexer.followedBy (Glyph.decode more)).item n =
      .ok (token.relocate (.below (Bytes.ofChars text).length ((Bytes.ofChars text).count 10))) := by
  let reached := lexer.followedBy (Glyph.decode more)
  have passed : (Trivia.scan reached.rest).result = .ok true := by
    rw [last.scan_followedBy clear]
  have free : reached.held = none := last.free
  have here : reached.next = reached.pastTrivia.readToken :=
    next_of_quiet free passed (semicolonDue_of_statementEnd? _ _ ending)
  have moved := last.moved within ends clear reached.pastTrivia rfl rfl free level ending
  exact moved.item_of_readToken here (next_ofSource clear) n found

theorem OnLastLine.item_behindSemicolon (last : lexer.OnLastLine)
    (within : Within (text.map .char) lexer) (ends : text.getLast? = some '\n')
    (clear : (Trivia.scan (Glyph.decode more)).result = .ok newline) (level : lexer.opened = [])
    (before : Token) (n : Nat) (token : Token) (found : (ofSource more).item n = .ok token) :
    ((lexer.followedBy (Glyph.decode more)).behindSemicolon before).item n =
      .ok (token.relocate (.below (Bytes.ofChars text).length ((Bytes.ofChars text).count 10))) := by
  let reached := (lexer.followedBy (Glyph.decode more)).behindSemicolon before
  have passed : (Trivia.scan (lexer.followedBy (Glyph.decode more)).rest).result = .ok true := by
    rw [last.scan_followedBy clear]
  have free : (lexer.followedBy (Glyph.decode more)).held = none := last.free
  have here : reached.next = reached.readToken := next_behindSemicolon before free passed
  have moved := last.moved within ends clear reached rfl rfl free level rfl
  exact moved.item_of_readToken here (next_ofSource clear) n found

end

/-- With more text after it, a text that ends a line outside all brackets has the same tokens, and
those of the other text come after them, moved down. -/
theorem exists_run_append (source more : Bytes) (ends : source.getLast? = some 10)
    {newline : Bool} (passes : Passes (ofSource source) tokens after)
    (last : after.next.1 = .ok token) (ended : token.kind = .endOfInput)
    (level : after.opened = [])
    (clear : (Trivia.scan (Glyph.decode more)).result = .ok newline) :
    ∃ reached, Passes (ofSource (source ++ more)) tokens reached ∧
      ∀ n token, (ofSource more).item n = .ok token →
        reached.item n = .ok (token.relocate (.below source.length (source.count 10))) := by
  have sound := sound_of_free (ofSource source) rfl
  have ends' : EndsLine (ofSource source).rest := Glyph.getLast?_decode source ends
  obtain ⟨text, rfl⟩ := (faultless_of_passes passes sound last ended).exists_text
  have decoded : (ofSource (Bytes.ofChars text)).rest = text.map .char := Glyph.decode_ofChars text
  have within : Within (text.map .char) (ofSource (Bytes.ofChars text)) := ⟨[], decoded.symm, rfl⟩
  have newlineLast : text.getLast? = some '\n' := by
    rw [decoded, EndsLine, List.getLast?_map, Option.map_eq_some_iff] at ends'
    obtain ⟨c, found, same⟩ := ends'
    rw [found, Glyph.char.inj same]
  rw [ofSource_append _ more ends]
  -- The run goes on into the other text, but for a last semicolon: it was due at the end of the text,
  -- and is due now at the line end before it.
  rcases passes.followedBy sound ends' with
    ⟨ends'', same⟩ | ⟨earlier, previous, before, onLast, due, rfl, rfl, same⟩
  · have onLast := onLastLine_of_end (passes.sound sound) ends'' last ended
    have ending := statementEnd?_of_end (passes.sound sound) level last ended
    exact ⟨_, same _, onLast.item_followedBy (within.passes passes) newlineLast clear level ending⟩
  · have within' : Within (text.map .char) previous := by
      have alone := same []
      rw [followedBy_nil, followedBy_nil] at alone
      exact within.passes alone
    refine ⟨_, (same _).append (.single (onLast.next_followedBy due clear) ?_), ?_⟩
    · exact semicolonAfter_ne_end before
    · exact onLast.item_behindSemicolon within' newlineLast clear level before

end Lexer

end Koy
