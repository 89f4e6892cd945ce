import Koy.Proofs.LexerRuns
import Koy.Proofs.SourceTokens

/-! Where semicolons are supplied. The first pass cuts the text into written tokens and gaps, the
second puts semicolons between the tokens; what the lexer hands out, token by token and with no
second look at the text, is what the two passes give. -/

namespace Koy

namespace Semicolons

def statementEnds : List TokenKind :=
  [.identifier, .number, .text, .trueWord, .falseWord, .increment, .decrement, .closeParen,
   .closeBracket, .closeBrace]

/-- The open brackets after a token, innermost first. Any closing bracket closes the innermost. -/
def openAfter (opened : List TokenKind) (kind : TokenKind) : List TokenKind :=
  if kind ∈ [.openParen, .openBracket, .openBrace, .openSet, .openMap] then kind :: opened
  else if kind ∈ [.closeParen, .closeBracket, .closeBrace] then opened.tail
  else opened

/-- A semicolon belongs after a token of this kind. `opened` are the brackets open after it, `gap`
separates it from the next token, and `next` is the kind of that token, if there is one. -/
def Wanted (opened : List TokenKind) (kind : TokenKind) (gap : List Char)
    (next : Option TokenKind) : Prop :=
  kind ∈ statementEnds ∧
    ((('\n' ∈ gap ∨ next = none) ∧ (opened.head? = none ∨ opened.head? = some .openBrace)) ∨
      (next = some .closeBrace ∧ opened.head? = some .openBrace))

instance (opened : List TokenKind) (kind : TokenKind) (gap : List Char) (next : Option TokenKind) :
    Decidable (Wanted opened kind gap next) :=
  inferInstanceAs (Decidable (_ ∧ _))

def after (opened : List TokenKind) (token : Token) (gap : List Char) (next : Option TokenKind) :
    List Token :=
  if Wanted opened token.kind gap next then [{ kind := .semicolon, position := token.position }]
  else []

/-- The tokens of the pieces, the first of which stands at `position` with the brackets `opened`
open, and the semicolons that belong between them. -/
def supply : List TokenKind → Position → List Piece → List Token
  | _, _, [] => []
  | opened, position, piece :: pieces =>
    let token : Token := ⟨piece.kind, piece.lexeme, position⟩
    let opened := openAfter opened piece.kind
    token :: (after opened token piece.gap (pieces.head?.map Piece.kind) ++
      supply opened (position.afterAll (piece.span ++ piece.gap)) pieces)

theorem mem_statementEnds (kind : TokenKind) : kind ∈ statementEnds ↔ kind.endsStatement = true := by
  cases kind <;> decide

theorem openAfter_eq (opened : List TokenKind) (kind : TokenKind) :
    openAfter opened kind = Lexer.bracketsAfter opened kind := by
  cases kind <;> rfl

end Semicolons

namespace Lexer

open Semicolons

def supplied (lexer : Lexer) (gap : List Char) (next : Option TokenKind) : List Token :=
  lexer.last.toList.flatMap fun before => Semicolons.after lexer.opened before gap next

theorem linesCount_iff (lexer : Lexer) : lexer.linesCount = true ↔
    lexer.opened.head? = none ∨ lexer.opened.head? = some .openBrace := by
  unfold linesCount
  split
  · rename_i empty
    simp [empty]
  · rename_i innermost outer shape
    simp [shape]

theorem semicolonDue_eq_some_iff (lexer : Lexer) (newline : Bool) (before : Token) :
    lexer.semicolonDue newline = some before ↔
      (lexer.last = some before ∧ before.kind ∈ statementEnds) ∧
      (newline = true ∨ (Trivia.scan lexer.rest).rest = []) ∧
      (lexer.opened.head? = none ∨ lexer.opened.head? = some .openBrace) := by
  rw [semicolonDue, statementEnd?, Option.filter_eq_some_iff, Option.filter_eq_some_iff,
    Bool.and_eq_true, linesCount_iff, mem_statementEnds, Bool.or_eq_true, List.isEmpty_iff]

theorem blockEndDue_eq_some_iff (lexer : Lexer) (kind : TokenKind) (before : Token) :
    lexer.blockEndDue kind = some before ↔
      (lexer.last = some before ∧ before.kind ∈ statementEnds) ∧
      kind = .closeBrace ∧ lexer.opened.head? = some .openBrace := by
  rw [blockEndDue, statementEnd?, Option.filter_eq_some_iff, Option.filter_eq_some_iff,
    mem_statementEnds, decide_eq_true_iff]

variable {lexer : Lexer} {newline : Bool} {gap : List Char} {before : Token}
  {next : Option TokenKind}

def Agrees (lexer : Lexer) (newline : Bool) (gap : List Char) (next : Option TokenKind) : Prop :=
  (newline = true ∨ (Trivia.scan lexer.rest).rest = []) ↔ ('\n' ∈ gap ∨ next = none)

theorem supplied_of_lineEnd (agrees : Agrees lexer newline gap next)
    (due : lexer.semicolonDue newline = some before) :
    lexer.supplied gap next = [semicolonAfter before] := by
  obtain ⟨⟨last, ends⟩, lineEnd, lines⟩ := (semicolonDue_eq_some_iff _ _ _).mp due
  have wanted : Wanted lexer.opened before.kind gap next :=
    ⟨ends, .inl ⟨agrees.mp lineEnd, lines⟩⟩
  simp [supplied, last, Semicolons.after, wanted, semicolonAfter]

theorem supplied_of_blockEnd {kind : TokenKind} (due : lexer.blockEndDue kind = some before) :
    lexer.supplied gap (some kind) = [semicolonAfter before] := by
  obtain ⟨⟨last, ends⟩, closing, inBlock⟩ := (blockEndDue_eq_some_iff _ _ _).mp due
  have wanted : Wanted lexer.opened before.kind gap (some kind) :=
    ⟨ends, .inr ⟨congrArg some closing, inBlock⟩⟩
  simp [supplied, last, Semicolons.after, wanted, semicolonAfter]

theorem supplied_of_quiet (agrees : Agrees lexer newline gap next)
    (quiet : lexer.semicolonDue newline = none)
    (plain : ∀ kind, next = some kind → lexer.blockEndDue kind = none) :
    lexer.supplied gap next = [] := by
  cases last : lexer.last with
  | none => simp [supplied, last]
  | some before =>
      have unwanted : ¬ Wanted lexer.opened before.kind gap next := by
        rintro ⟨ends, ⟨lineEnd, lines⟩ | ⟨closing, inBlock⟩⟩
        · have due := (semicolonDue_eq_some_iff lexer newline before).mpr
            ⟨⟨last, ends⟩, agrees.mpr lineEnd, lines⟩
          rw [quiet] at due
          cases due
        · have due := (blockEndDue_eq_some_iff lexer .closeBrace before).mpr
            ⟨⟨last, ends⟩, rfl, inBlock⟩
          rw [plain _ closing] at due
          cases due
      simp [supplied, last, Semicolons.after, unwanted]

theorem agrees_before_token (kind : TokenKind)
    (passed : (Trivia.scan lexer.rest).result = .ok newline)
    (present : (Trivia.scan lexer.rest).rest ≠ []) :
    Agrees lexer newline (Trivia.scan lexer.rest).span (some kind) := by
  have flag := Trivia.mem_of_scanFrom .plain false newline lexer.rest passed present
  rw [Bool.false_or] at flag
  have ended : newline = true ↔ '\n' ∈ (Trivia.scan lexer.rest).span := by
    rw [flag, decide_eq_true_iff]
    rfl
  simp [Agrees, present, ended]

theorem agrees_at_end (newline : Bool) (gap : List Char)
    (nothing : (Trivia.scan lexer.rest).rest = []) : Agrees lexer newline gap none := by
  simp [Agrees, nothing]

def behindSemicolon (lexer : Lexer) (before : Token) : Lexer :=
  lexer.pastTrivia.emit (semicolonAfter before)

theorem next_semicolon (free : lexer.held = none)
    (passed : (Trivia.scan lexer.rest).result = .ok newline)
    (due : lexer.semicolonDue newline = some before) :
    lexer.next = (.ok (semicolonAfter before), lexer.behindSemicolon before) := by
  rw [next_eq lexer free newline passed, due]
  rfl

theorem next_of_quiet (free : lexer.held = none)
    (passed : (Trivia.scan lexer.rest).result = .ok newline)
    (quiet : lexer.semicolonDue newline = none) : lexer.next = lexer.pastTrivia.readToken := by
  rw [next_eq lexer free newline passed, quiet]

theorem next_behindSemicolon (before : Token) (free : lexer.held = none)
    (passed : (Trivia.scan lexer.rest).result = .ok newline) :
    (lexer.behindSemicolon before).next = (lexer.behindSemicolon before).readToken := by
  have solid : Trivia.scan (lexer.behindSemicolon before).rest =
      ⟨.ok false, [], (lexer.behindSemicolon before).rest⟩ :=
    Trivia.scanFrom_rest .plain false newline false lexer.rest passed
  have free' : (lexer.behindSemicolon before).held = none := free
  have passed' : (Trivia.scan (lexer.behindSemicolon before).rest).result = .ok false := by
    rw [solid]
  rw [next_of_quiet free' passed' (semicolonDue_of_statementEnd? _ _ rfl),
    pastTrivia_of_solid _ solid]

variable {kind : TokenKind} {lexeme : String}

theorem readToken_plain (read : (Lexeme.scan lexer.rest).result = .ok (kind, lexeme))
    (plain : lexer.blockEndDue kind = none) :
    lexer.readToken = (.ok ⟨kind, lexeme, lexer.position⟩,
      (lexer.moveOn (Lexeme.scan lexer.rest)).emit ⟨kind, lexeme, lexer.position⟩) := by
  have plain' : (lexer.moveOn (Lexeme.scan lexer.rest)).blockEndDue kind = none := plain
  simp only [readToken, read, deliver_eq, plain']

theorem readToken_blockEnd (read : (Lexeme.scan lexer.rest).result = .ok (kind, lexeme))
    (due : lexer.blockEndDue kind = some before) :
    lexer.readToken = (.ok (semicolonAfter before),
      { (lexer.moveOn (Lexeme.scan lexer.rest)).emit (semicolonAfter before) with
        held := some ⟨kind, lexeme, lexer.position⟩ }) := by
  have due' : (lexer.moveOn (Lexeme.scan lexer.rest)).blockEndDue kind = some before := due
  simp only [readToken, read, deliver_eq, due']

def behindToken (lexer : Lexer) (token : Token) : Lexer :=
  { lexer.pastToken with
    last := some token, held := none, opened := openAfter lexer.opened token.kind }

def tokenHere (lexer : Lexer) (kind : TokenKind) (lexeme : String) : Token :=
  ⟨kind, lexeme, lexer.pastTrivia.position⟩

theorem emit_of_legal (token : Token) (legal : token.kind ≠ .illegal) :
    lexer.emit token = { lexer with
      last := some token, opened := openAfter lexer.opened token.kind } := by
  rw [emit, if_neg legal, openAfter_eq]

theorem emit_eq_behindToken (token : Token) (legal : token.kind ≠ .illegal)
    (free : lexer.held = none) : lexer.pastToken.emit token = lexer.behindToken token := by
  have free' : lexer.pastToken.held = none := free
  rw [emit_of_legal token legal, free']
  rfl

theorem passes_token (free : lexer.held = none)
    (passed : (Trivia.scan lexer.rest).result = .ok newline)
    (read : (Lexeme.scan lexer.pastTrivia.rest).result = .ok (kind, lexeme))
    (proper : kind ≠ .endOfInput) :
    Passes lexer (lexer.supplied (Trivia.scan lexer.rest).span (some kind) ++
      [lexer.tokenHere kind lexeme]) (lexer.behindToken (lexer.tokenHere kind lexeme)) := by
  let token := lexer.tokenHere kind lexeme
  have present : (Trivia.scan lexer.rest).rest ≠ [] := by
    intro nothing
    rw [pastTrivia_rest, nothing] at read
    cases read
    exact proper rfl
  have agrees := agrees_before_token kind passed present
  have legal : kind ≠ .illegal := (Lexeme.spells_of_scan _ kind lexeme read proper).legal
  -- A semicolon is handed out in two places: with the gap, before the token is read, and with a
  -- brace, which then waits behind it.
  cases due : lexer.semicolonDue newline with
  | some before =>
      have first := next_semicolon free passed due
      have second : (lexer.behindSemicolon before).next = (.ok token, lexer.behindToken token) := by
        have read' : (Lexeme.scan (lexer.behindSemicolon before).rest).result =
          .ok (kind, lexeme) := read
        rw [next_behindSemicolon before free passed, readToken_plain read' rfl,
          ← emit_eq_behindToken token legal free]
        rfl
      rw [supplied_of_lineEnd agrees due]
      exact .cons first (semicolonAfter_ne_end before) (.single second proper)
  | none =>
      have stepped := next_of_quiet free passed due
      cases closing : lexer.blockEndDue kind with
      | some before =>
          let waiting : Lexer :=
            { lexer.pastToken.emit (semicolonAfter before) with held := some token }
          have first : lexer.next = (.ok (semicolonAfter before), waiting) := by
            rw [stepped]
            exact readToken_blockEnd read closing
          have second : waiting.next = (.ok token, lexer.behindToken token) := by
            change (_, { waiting.emit token with held := none }) = _
            rw [emit_of_legal token legal]
            rfl
          rw [supplied_of_blockEnd closing]
          exact .cons first (semicolonAfter_ne_end before) (.single second proper)
      | none =>
          rw [supplied_of_quiet agrees due (by rintro kind ⟨⟩; exact closing), List.nil_append,
            ← emit_eq_behindToken _ legal free]
          apply Passes.single _ proper
          rw [stepped]
          exact readToken_plain read closing

theorem passes_end (free : lexer.held = none)
    (passed : (Trivia.scan lexer.rest).result = .ok newline)
    (nothing : (Trivia.scan lexer.rest).rest = []) :
    ∃ after, Passes lexer (lexer.supplied (Trivia.scan lexer.rest).span none) after ∧
      after.next.1 = .ok lexer.pastTrivia.endToken := by
  have agrees := agrees_at_end newline (Trivia.scan lexer.rest).span nothing
  cases due : lexer.semicolonDue newline with
  | some before =>
      have first := next_semicolon free passed due
      rw [supplied_of_lineEnd agrees due]
      refine ⟨_, .single first (semicolonAfter_ne_end before), ?_⟩
      rw [next_behindSemicolon before free passed, readToken_at_end _ nothing]
      rfl
  | none =>
      rw [supplied_of_quiet agrees due nofun]
      refine ⟨lexer, .nil lexer, ?_⟩
      rw [next_at_end lexer free newline passed nothing due]

theorem passes_pieces {pieces : List Piece} (free : lexer.held = none)
    (passed : (Trivia.scan lexer.rest).result = .ok newline)
    (scanned : Scanned (Trivia.scan lexer.rest).rest pieces) :
    ∃ after, Passes lexer
      (lexer.supplied (Trivia.scan lexer.rest).span (pieces.head?.map Piece.kind) ++
        supply lexer.opened lexer.pastTrivia.position pieces) after ∧
      after.next.1 =
        .ok ⟨.endOfInput, "", lexer.pastTrivia.position.afterAll (Piece.text pieces)⟩ := by
  generalize shape : (Trivia.scan lexer.rest).rest = text at scanned
  -- A round starts before the gap in front of a piece, and the next one before the gap behind it.
  induction scanned generalizing lexer newline with
  | nil =>
      obtain ⟨after, passes, ended⟩ := passes_end free passed shape
      refine ⟨after, ?_, ended⟩
      simpa [supply] using passes
  | @cons text rest piece newline' pieces read proper passed' gap more ih =>
      have here : Lexeme.scan lexer.pastTrivia.rest =
          ⟨.ok (piece.kind, piece.lexeme), piece.span, rest⟩ := by
        rw [pastTrivia_rest, shape, read]
      let token := lexer.tokenHere piece.kind piece.lexeme
      have first := passes_token free passed (by rw [here]) proper
      have rest_eq : (lexer.behindToken token).rest = rest := by
        change (Lexeme.scan lexer.pastTrivia.rest).rest = rest
        rw [here]
      have position_eq : (lexer.behindToken token).pastTrivia.position =
          lexer.pastTrivia.position.afterAll (piece.span ++ piece.gap) := by
        rw [Position.afterAll_append, ← gap, ← rest_eq]
        change (lexer.pastTrivia.position.afterAll (Lexeme.scan lexer.pastTrivia.rest).span).afterAll
          _ = _
        rw [here]
      have free' : (lexer.behindToken token).held = none := rfl
      obtain ⟨after, second, ended⟩ := ih free' (by rw [rest_eq]; exact passed') (by rw [rest_eq])
      have supplied_eq : (lexer.behindToken token).supplied
          (Trivia.scan (lexer.behindToken token).rest).span (pieces.head?.map Piece.kind) =
          Semicolons.after (openAfter lexer.opened piece.kind) token piece.gap
            (pieces.head?.map Piece.kind) := by
        rw [rest_eq, gap]
        exact List.append_nil _
      rw [supplied_eq, position_eq] at second
      refine ⟨after, ?_, ?_⟩
      · have whole := first.append second
        rwa [List.append_assoc] at whole
      · rw [ended, position_eq, Piece.text_cons, ← Position.afterAll_append]

def Faultless (lexer : Lexer) : Prop :=
  ∀ n error, lexer.item n ≠ .error error

theorem Faultless.after {after : Lexer} {tokens : List Token} (faultless : lexer.Faultless)
    (passes : Passes lexer tokens after) : after.Faultless := by
  intro n error
  rw [← passes.item_add n]
  exact faultless _ error

theorem Faultless.trivia (faultless : lexer.Faultless) (free : lexer.held = none) :
    ∃ newline, (Trivia.scan lexer.rest).result = .ok newline := by
  cases passed : (Trivia.scan lexer.rest).result with
  | ok newline => exact ⟨newline, rfl⟩
  | error fault =>
      have failed : lexer.next.1 = .error (report fault lexer.position lexer.pastTrivia.position) := by
        simp only [next, free, passed, pastTrivia]
      exact absurd failed (faultless 0 _)

theorem Faultless.token (faultless : lexer.Faultless) (free : lexer.held = none) :
    ∃ kind lexeme, (Lexeme.scan lexer.pastTrivia.rest).result = .ok (kind, lexeme) := by
  obtain ⟨newline, passed⟩ := faultless.trivia free
  cases read : (Lexeme.scan lexer.pastTrivia.rest).result with
  | ok pair => exact ⟨pair.1, pair.2, rfl⟩
  | error fault =>
      have failed (place : Lexer) (same : place.rest = lexer.pastTrivia.rest) :
          ∃ error, place.readToken.1 = .error error := by
        simp only [readToken, same, read]
        exact ⟨_, rfl⟩
      cases due : lexer.semicolonDue newline with
      | some before =>
          have first := next_semicolon free passed due
          obtain ⟨error, failed⟩ := failed (lexer.behindSemicolon before) rfl
          rw [← next_behindSemicolon before free passed] at failed
          have clean := faultless.after (.single first (semicolonAfter_ne_end before))
          exact absurd failed (clean 0 error)
      | none =>
          obtain ⟨error, failed⟩ := failed lexer.pastTrivia rfl
          rw [← next_of_quiet free passed due] at failed
          exact absurd failed (faultless 0 error)

theorem Faultless.scanned (faultless : lexer.Faultless) (free : lexer.held = none) :
    ∃ pieces, Scanned (Trivia.scan lexer.rest).rest pieces := by
  induction length : lexer.rest.length using Nat.strongRecOn generalizing lexer with
  | _ n ih =>
      obtain ⟨newline, passed⟩ := faultless.trivia free
      obtain ⟨kind, lexeme, read⟩ := faultless.token free
      by_cases ended : kind = .endOfInput
      · rw [ended] at read
        have nothing := Lexeme.eq_nil_of_scan_endOfInput _ _ read
        rw [pastTrivia_rest] at nothing
        rw [nothing]
        exact ⟨[], .nil⟩
      · let behind := lexer.behindToken (lexer.tokenHere kind lexeme)
        have rest_eq : behind.rest = (Lexeme.scan lexer.pastTrivia.rest).rest := rfl
        have shorter : behind.rest.length < n := by
          have token := Lexeme.rest_lt_of_scan _ kind lexeme read ended
          have trivia := length_pastTrivia lexer
          rw [rest_eq]
          omega
        have clean : behind.Faultless := faultless.after (passes_token free passed read ended)
        obtain ⟨newline', passed'⟩ := clean.trivia rfl
        obtain ⟨pieces, more⟩ := ih _ shorter clean rfl rfl
        let piece : Piece :=
          ⟨(Lexeme.scan lexer.pastTrivia.rest).span, kind, lexeme, (Trivia.scan behind.rest).span⟩
        exact ⟨piece :: pieces, .cons (by rw [← read]; rfl) ended passed' rfl more⟩

theorem Faultless.exists_text {source : Bytes} (faultless : (ofSource source).Faultless) :
    ∃ text, source = Bytes.ofChars text := by
  obtain ⟨pieces, scanned⟩ := faultless.scanned rfl
  obtain ⟨chars, rest_eq, -⟩ := scanned.divides
  have split : Glyph.decode source = _ := Trivia.scan_splits (ofSource source).rest
  rw [rest_eq, ← List.map_append] at split
  exact ⟨_, Glyph.eq_ofChars_of_chars? source _ (by rw [split, Glyph.chars?_map])⟩

theorem faultless_of_passes {after : Lexer} {tokens : List Token} {token : Token}
    (passes : Passes lexer tokens after) (sound : lexer.Sound) (last : after.next.1 = .ok token)
    (ended : token.kind = .endOfInput) : lexer.Faultless := by
  intro n error failed
  rcases Nat.lt_or_ge n tokens.length with inside | beyond
  · rw [passes.item_lt n inside] at failed
    cases failed
  · rw [passes.item_of_le sound last ended beyond] at failed
    cases failed

theorem faultless_of_readAll (source : Bytes)
    (faultless : ∀ error, .error error ∉ readAll source 0) : (ofSource source).Faultless := by
  obtain ⟨tokens, after, passes, final⟩ := exists_passes (ofSource source)
  have read := readAll_of_passes passes final
  cases last : after.next.1 with
  | error error =>
      have member : .error error ∈ readAll source 0 := by simp [read, last]
      exact absurd member (faultless error)
  | ok token =>
      rw [last] at final
      exact faultless_of_passes passes (sound_of_free _ rfl) last final

end Lexer

structure Cut where
  lead : List Char
  pieces : List Piece

/-- The text is cut in this way, every gap and every token as long as can be. -/
def Cut.Of (text : List Char) (cut : Cut) : Prop :=
  ∃ rest, text = cut.lead ++ rest ∧ IsLongest Trivia.IsGap cut.lead rest ∧ Divides rest cut.pieces

def Cut.tokens (cut : Cut) : List Token :=
  Semicolons.supply [] (Position.start.afterAll cut.lead) cut.pieces

theorem Cut.of_iff {text : List Char} {newline : Bool} {pieces : List Piece}
    (passed : (Trivia.scan (text.map .char)).result = .ok newline)
    (scanned : Scanned (Trivia.scan (text.map .char)).rest pieces) (cut : Cut) :
    cut.Of text ↔ cut = ⟨(Trivia.scan (text.map .char)).span, pieces⟩ := by
  constructor
  · rintro ⟨rest, rfl, longest, divides⟩
    obtain ⟨lead_eq, rest_eq⟩ := Trivia.scan_of_isLongest longest passed
    rw [rest_eq] at scanned
    rw [lead_eq, ← scanned.unique divides]
  · rintro rfl
    obtain ⟨rest, rest_eq, divides⟩ := scanned.divides
    refine ⟨rest, ?_, Trivia.isLongest_of_scan _ newline rest passed rest_eq, divides⟩
    have split := Trivia.scan_splits (text.map .char)
    rw [Scan.Splits, rest_eq, ← List.map_append] at split
    exact (List.map_inj_right fun _ _ => Glyph.char.inj).mp split

theorem Lexer.readAll_of_faultless {source : Bytes}
    (faultless : ∀ error, .error error ∉ Lexer.readAll source 0) :
    ∃ text newline pieces, source = Bytes.ofChars text ∧
      (Trivia.scan (text.map .char)).result = .ok newline ∧
      Scanned (Trivia.scan (text.map .char)).rest pieces ∧
      Lexer.readAll source 0 = (Cut.tokens ⟨(Trivia.scan (text.map .char)).span, pieces⟩ ++
        [(⟨.endOfInput, "", Position.start.afterAll text⟩ : Token)]).map .ok := by
  have clean := Lexer.faultless_of_readAll source faultless
  obtain ⟨text, rfl⟩ := clean.exists_text
  obtain ⟨newline, passed⟩ := clean.trivia rfl
  obtain ⟨pieces, scanned⟩ := clean.scanned rfl
  obtain ⟨after, passes, ended⟩ := Lexer.passes_pieces rfl passed scanned
  have decoded : (Lexer.ofSource (Bytes.ofChars text)).rest = text.map .char :=
    Glyph.decode_ofChars text
  rw [decoded] at passed scanned
  refine ⟨text, newline, pieces, rfl, passed, scanned, ?_⟩
  have text_eq : text = (Trivia.scan (text.map .char)).span ++ Piece.text pieces := by
    obtain ⟨rest, shape, -, divides⟩ := (Cut.of_iff passed scanned _).mpr rfl
    rwa [divides.text_eq] at shape
  have start_eq : (Lexer.ofSource (Bytes.ofChars text)).pastTrivia.position =
      Position.start.afterAll (Trivia.scan (text.map .char)).span := by
    rw [← decoded]
    rfl
  have end_eq : (Position.start.afterAll (Trivia.scan (text.map .char)).span).afterAll
      (Piece.text pieces) = Position.start.afterAll text := by
    rw [← Position.afterAll_append, ← text_eq]
  rw [start_eq] at passes ended
  rw [end_eq] at ended
  change Lexer.Passes _ (Cut.tokens ⟨(Trivia.scan (text.map .char)).span, pieces⟩) after at passes
  rw [Lexer.readAll_of_passes passes (by rw [ended]; rfl), ended, List.map_append]
  rfl

/-- A text without a fault is cut into gaps and tokens in one way only, and what the lexer hands out
are these tokens, with semicolons where they are wanted, and the end token. -/
theorem Lexer.readAll_eq_supply (source : Bytes)
    (faultless : ∀ error, .error error ∉ Lexer.readAll source 0) :
    ∃ text cut, source = Bytes.ofChars text ∧ (∀ other : Cut, other.Of text ↔ other = cut) ∧
      Lexer.readAll source 0 =
        (cut.tokens ++ [(⟨.endOfInput, "", Position.start.afterAll text⟩ : Token)]).map .ok := by
  obtain ⟨text, newline, pieces, decoded, passed, scanned, read⟩ :=
    Lexer.readAll_of_faultless faultless
  exact ⟨text, _, decoded, Cut.of_iff passed scanned, read⟩

def bracketsSample : Bytes :=
  Bytes.ofString "f(a,\nb) // call\n\x7b #\x7b c: d\n\x7d; x \x7d"

theorem Lexer.readAll_eq_supply_sample :
    (∀ error, .error error ∉ Lexer.readAll bracketsSample 0) ∧
      ∃ text cut, bracketsSample = Bytes.ofChars text ∧
        (∀ other : Cut, other.Of text ↔ other = cut) ∧ Lexer.readAll bracketsSample 0 =
          (cut.tokens ++ [(⟨.endOfInput, "", Position.start.afterAll text⟩ : Token)]).map .ok := by
  have clean : (Lexer.readAll bracketsSample 0).all Except.isOk = true := by decide +kernel
  have faultless : ∀ error, .error error ∉ Lexer.readAll bracketsSample 0 := by
    intro error member
    exact absurd (List.all_eq_true.mp clean _ member) Bool.false_ne_true
  exact ⟨faultless, Lexer.readAll_eq_supply bracketsSample faultless⟩

end Koy
