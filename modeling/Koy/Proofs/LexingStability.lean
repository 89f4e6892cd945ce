import Koy.Proofs.Appending
import Koy.Proofs.LexerRuns

/-! Lexing is stable when lines are added. The tokens of a text that ends a line come first among the
tokens of every longer text, and a fault that more text cannot mend stays as it is. -/

namespace Koy

namespace Scan

variable {α β : Type} {scan : Scan α} {fault : LexicalFault}

theorem error_of_map {f : α → β} (failed : (scan.map f).result = .error fault) :
    scan.result = .error fault := by
  cases result : scan.result with
  | ok value => simp [Scan.map, result, Except.map] at failed
  | error found =>
      rw [Scan.map, result] at failed
      cases failed
      rfl

end Scan

namespace Lexeme

variable {fault : LexicalFault}

theorem text_fault (content more : List Glyph) (failed : (text content).result = .error fault)
    (final : fault.incomplete = false) : text (content ++ more) = (text content).followedBy more := by
  fun_induction text content with
  | case1 | case4 =>
      cases failed
      cases final
  | case2 byte rest | case5 byte rest => rfl
  | case3 rest => cases failed
  | case6 c rest ih =>
      rw [List.cons_append, List.cons_append, text, ih (Scan.error_of_map failed)]
      rfl
  | case7 rest =>
      rw [List.cons_append, text, if_pos rfl]
      · rfl
      all_goals simp
  | case8 c rest quote last stray escape other ih =>
      have plain : c ≠ '\\' := by
        cases rest with
        | nil => exact last rfl
        | cons glyph rest =>
            cases glyph with
            | char d => exact escape d rest rfl
            | stray byte => exact stray byte rest rfl
      rw [List.cons_append, text, if_neg other, ih (Scan.error_of_map failed)]
      · rfl
      · exact quote
      · exact fun _ => plain
      · exact fun _ _ _ => plain
      · exact fun _ _ _ => plain

theorem number_fault (first : Char) (following more : List Glyph) (ends : EndsLine following)
    (failed : (number first following).result = .error fault) :
    number first (following ++ more) = (number first following).followedBy more := by
  obtain ⟨-, same⟩ := run_append Text.isDecimalDigit following ends (by decide)
  unfold number at failed ⊢
  rw [same]
  generalize run Text.isDecimalDigit following = parts at failed ⊢
  obtain ⟨digits, rest⟩ := parts
  cases rest with
  | nil => cases failed
  | cons glyph rest =>
      cases glyph with
      | stray byte => cases failed
      | char c =>
          dsimp only [List.cons_append] at failed ⊢
          split at failed
          · rename_i malformed
            simp only [malformed, if_true]
            rfl
          · cases failed

theorem symbol_fault (first : Char) (following more : List Glyph)
    (ends : EndsLine (.char first :: following))
    (failed : (symbol first following).result = .error fault) (final : fault.incomplete = false) :
    symbol first (following ++ more) = (symbol first following).followedBy more := by
  -- A refused sign passes over its first character only.
  have refused (text : List Glyph) (failed : (symbol first text).result = .error fault) :
      symbol first text = ⟨.error fault, [first], text⟩ := by
    unfold symbol at failed ⊢
    split
    · rename_i found
      simp only [found] at failed
      cases failed
    · rename_i narrow found
      rw [found] at failed
      revert failed
      split
      · exact fun failed => nomatch failed
      · exact fun failed => nomatch failed
      · rename_i other
        cases other
    · rename_i found
      rw [found] at failed
      cases failed
      rfl
  rcases symbol_continues first following ends with ⟨-, same⟩ | ⟨found, failed', cause⟩
  · exact same more
  · rw [failed] at failed'
    cases failed'
    rw [refused following failed]
    rcases cause with incomplete | again
    · rw [incomplete] at final
      cases final
    · rw [refused (following ++ more) (again more)]
      rfl

theorem scan_fault (content more : List Glyph) (ends : EndsLine content)
    (failed : (scan content).result = .error fault) (final : fault.incomplete = false) :
    scan (content ++ more) = (scan content).followedBy more := by
  cases content with
  | nil => cases ends
  | cons glyph rest =>
      cases glyph with
      | stray byte => rfl
      | char c =>
          rw [scan] at failed
          rw [List.cons_append, scan, scan]
          by_cases named : startsName c = true
          · rw [if_pos named] at failed
            cases failed
          · rw [if_neg named] at failed
            rw [if_neg named, if_neg named]
            by_cases digit : Text.isDecimalDigit c = true
            · rw [if_pos digit] at failed
              rw [if_pos digit, if_pos digit]
              have ends' := ends.tail_of_ne fun here => absurd (here ▸ digit) (by decide)
              exact number_fault c rest more ends' failed
            · rw [if_neg digit] at failed
              rw [if_neg digit, if_neg digit]
              by_cases quote : c = '"'
              · rw [if_pos quote] at failed
                rw [if_pos quote, if_pos quote, text_fault rest more (Scan.error_of_map failed) final]
                rfl
              · rw [if_neg quote] at failed
                rw [if_neg quote, if_neg quote]
                exact symbol_fault c rest more ends failed final

end Lexeme

namespace Lexer

variable {lexer after : Lexer} {tokens : List Token}

theorem trivia_fault (lexer : Lexer) (ends : EndsLine lexer.rest) {fault : LexicalFault}
    (failed : (Trivia.scan lexer.rest).result = .error fault) (final : fault.incomplete = false)
    (more : List Glyph) :
    Trivia.scan (lexer.rest ++ more) = (Trivia.scan lexer.rest).followedBy more := by
  rcases Trivia.scanFrom_continues .plain false lexer.rest ends with
    ⟨-, same⟩ | opened | ⟨ended, -, -⟩
  · exact same more
  · rw [Trivia.scan, opened] at failed
    cases failed
    cases final
  · rw [Trivia.scan, ended] at failed
    cases failed

theorem followedBy_rest (lexer : Lexer) (more : List Glyph) :
    (lexer.followedBy more).rest = lexer.rest ++ more := rfl

theorem next_fault (lexer : Lexer) (ends : EndsLine lexer.rest) {error : SyntaxError}
    (failed : lexer.next.1 = .error error) (final : error.incomplete = false) (more : List Glyph) :
    (lexer.followedBy more).next.1 = .error error := by
  have step := step_of_next lexer (.error error) lexer.next.2 (Prod.ext failed rfl)
  generalize lexer.next.2 = left at step
  cases step with
  | faultyTrivia fault free faulty =>
      have same := lexer.trivia_fault ends faulty final more
      have faulty' : (Trivia.scan (lexer.followedBy more).rest).result = .error fault := by
        rw [followedBy_rest, same]
        exact faulty
      have reported := item_of_faultyTrivia (lexer.followedBy more) free faulty' 0
      rw [lexer.pastTrivia_followedBy more same] at reported
      exact reported
  | faultyToken newline fault free passed quiet faulty =>
      -- The text goes on after its white space and comments: else there would be no fault.
      rcases Trivia.scanFrom_continues .plain false lexer.rest ends with
        ⟨ends', same⟩ | opened | ⟨-, nothing, -⟩
      · have together := Lexeme.scan_fault lexer.pastTrivia.rest more ends' faulty final
        have passed' : (Trivia.scan (lexer.followedBy more).rest).result = .ok newline := by
          rw [followedBy_rest, Trivia.scan, same]
          exact passed
        have quiet' : (lexer.followedBy more).semicolonDue newline = none :=
          (lexer.semicolonDue_followedBy newline more ends' (same more)).trans quiet
        rw [next_eq (lexer.followedBy more) free newline passed', quiet',
          lexer.pastTrivia_followedBy more (same more)]
        simp only [readToken, followedBy_rest, together, Scan.followedBy, faulty]
        rfl
      · rw [Trivia.scan, opened] at passed
        cases passed
      · have empty : lexer.pastTrivia.rest = [] := nothing
        rw [empty] at faulty
        cases faulty

theorem followedBy_nil (lexer : Lexer) : lexer.followedBy [] = lexer := by
  rw [followedBy, List.append_nil]

theorem OnLastLine.next_eq_semicolon (last : lexer.OnLastLine) {before : Token}
    (due : lexer.semicolonDue true = some before) :
    lexer.next = (.ok (semicolonAfter before), lexer.pastTrivia.emit (semicolonAfter before)) := by
  rw [next_eq lexer last.free true last.ended, due]

theorem OnLastLine.next_eq_end (last : lexer.OnLastLine) (quiet : lexer.semicolonDue true = none) :
    lexer.next = (.ok lexer.pastTrivia.endToken, lexer.pastTrivia.emit lexer.pastTrivia.endToken) :=
  next_at_end lexer last.free true last.ended last.nothing quiet

theorem OnLastLine.end_after_semicolon (last : lexer.OnLastLine) (before : Token) :
    (lexer.pastTrivia.emit (semicolonAfter before)).next.1 = .ok lexer.pastTrivia.endToken := by
  let after := lexer.pastTrivia.emit (semicolonAfter before)
  have empty : after.rest = [] := last.nothing
  have stayed : after.pastTrivia = after := pastTrivia_of_nil after empty
  have ended := next_at_end after last.free false (by rw [empty]; rfl) (by rw [stayed, empty])
    (semicolonDue_of_statementEnd? after false rfl)
  rw [stayed] at ended
  exact congrArg Prod.fst ended

/-- The run of a lexer when more text follows its own. All tokens are handed out then too, but for
the semicolon of the last line, which waits until the white space after it has been read. -/
theorem Passes.followedBy (passes : Passes lexer tokens after) (sound : lexer.Sound)
    (ends : EndsLine lexer.rest) :
    (EndsLine after.rest ∧
      ∀ more, Passes (lexer.followedBy more) tokens (after.followedBy more)) ∨
    ∃ (earlier : List Token) (previous : Lexer) (before : Token), previous.OnLastLine ∧
      previous.semicolonDue true = some before ∧ tokens = earlier ++ [semicolonAfter before] ∧
      after = previous.pastTrivia.emit (semicolonAfter before) ∧
      ∀ more, Passes (lexer.followedBy more) earlier (previous.followedBy more) := by
  induction passes with
  | nil lexer => exact .inl ⟨ends, fun more => .nil _⟩
  | @cons lexer middle after token tokens stepped proper rest ih =>
      have faultless (error : SyntaxError) (failed : lexer.next.1 = .error error) : False := by
        rw [stepped] at failed
        cases failed
      rcases next_goes lexer sound ends with
        (⟨found, left, -, ends', alone, together⟩ | ⟨error, failed, -⟩ | failing) | last
      · rw [stepped] at alone
        cases alone
        rcases ih (step_of_next lexer _ _ stepped).sound ends' with
          ⟨ends, same⟩ | ⟨earlier, previous, before, last, due, shape, reached, same⟩
        · exact .inl ⟨ends, fun more => .cons (together more) proper (same more)⟩
        · refine .inr ⟨token :: earlier, previous, before, last, due, ?_, reached, ?_⟩
          · rw [shape, List.cons_append]
          · exact fun more => .cons (together more) proper (same more)
      · exact (faultless error failed).elim
      · obtain ⟨error, failed⟩ := failing []
        rw [followedBy_nil] at failed
        exact (faultless error failed).elim
      · right
        cases due : lexer.semicolonDue true with
        | none =>
            rw [last.next_eq_end due] at stepped
            cases stepped
            exact absurd rfl proper
        | some before =>
            rw [last.next_eq_semicolon due] at stepped
            cases stepped
            have ended := last.end_after_semicolon before
            cases rest with
            | nil => exact ⟨[], lexer, before, last, due, rfl, rfl, fun more => .nil _⟩
            | cons stepped' proper' _ =>
                rw [stepped'] at ended
                cases ended
                exact absurd rfl proper'

end Lexer

theorem Trivia.scanFrom_or (mode : Mode) (earlier newline : Bool) (text : List Glyph) :
    scanFrom mode (earlier || newline) text =
      (scanFrom mode newline text).map (earlier || ·) := by
  fun_induction scanFrom mode newline text with
  | case1 newline => rfl
  | case2 newline =>
      rw [scanFrom, Scan.map]
      simp [Except.map]
  | case3 newline => rfl
  | case4 mode newline byte rest => cases mode <;> rfl
  | case5 newline rest ih | case6 newline rest ih | case11 newline rest ih =>
      rw [scanFrom, ih]
      rfl
  | case7 newline c rest line block blank ih =>
      rw [scanFrom, if_pos blank, Bool.or_assoc, ih]
      · rfl
      · exact line
      · exact block
  | case8 newline c rest line block solid =>
      rw [scanFrom, if_neg solid]
      · rfl
      · exact line
      · exact block
  | case9 newline rest ih =>
      rw [scanFrom, if_pos rfl]
      rw [Bool.or_true] at ih
      exact congrArg (Scan.behind ['\n']) ih
  | case10 newline c rest other ih =>
      rw [scanFrom, if_neg other, ih]
      rfl
  | case12 newline c rest other ih =>
      rw [scanFrom, Bool.or_assoc, ih]
      · rfl
      · exact other

namespace Lexer

variable {lexer after : Lexer} {tokens : List Token}

/-- After the last line of a text, further white space and comments count as its line end. -/
theorem OnLastLine.scan_followedBy (last : lexer.OnLastLine) {more : List Glyph} {newline : Bool}
    (clear : (Trivia.scan more).result = .ok newline) :
    Trivia.scan (lexer.followedBy more).rest =
      ⟨.ok true, (Trivia.scan lexer.rest).span ++ (Trivia.scan more).span, (Trivia.scan more).rest⟩ := by
  have flagged := Trivia.scanFrom_or .plain true false more
  rw [followedBy_rest, last.beyond, show true = (true || false) from rfl, flagged]
  rw [Trivia.scan] at clear
  simp [Scan.behind, Scan.map, clear, Except.map, Trivia.scan]

theorem OnLastLine.next_followedBy (last : lexer.OnLastLine) {before : Token}
    (due : lexer.semicolonDue true = some before) {more : List Glyph} {newline : Bool}
    (clear : (Trivia.scan more).result = .ok newline) :
    (lexer.followedBy more).next = (.ok (semicolonAfter before),
      (lexer.followedBy more).pastTrivia.emit (semicolonAfter before)) := by
  have passed : (Trivia.scan (lexer.followedBy more).rest).result = .ok true := by
    rw [last.scan_followedBy clear]
  have due' : (lexer.followedBy more).semicolonDue true = some before := due
  rw [next_eq (lexer.followedBy more) last.free true passed, due']

theorem Passes.isPrefix {source : Bytes}
    (passes : Passes (ofSource source) tokens after) : tokens.map .ok <+: readAll source 0 := by
  obtain ⟨more, last, rest, final⟩ := exists_passes after
  rw [readAll_of_passes (passes.append rest) final, List.map_append, List.append_assoc]
  exact List.prefix_append _ _

end Lexer

/-- Text after a text that ends a line leaves the tokens of the first text as they are, if the white
space and comments at its start have no fault. A fault that more text cannot mend remains, with all
tokens before it. -/
theorem Lexer.readAll_append (source more : Bytes) (ends : source.getLast? = some 10)
    (tokens : List Token) :
    (∀ last newline, last.kind = .endOfInput →
      readAll source 0 = tokens.map .ok ++ [.ok last] →
      (Trivia.scan (Glyph.decode more)).result = .ok newline →
      tokens.map .ok <+: readAll (source ++ more) 0) ∧
    (∀ error, error.incomplete = false →
      readAll source 0 = tokens.map .ok ++ [.error error] →
      readAll (source ++ more) 0 = tokens.map .ok ++ [.error error]) := by
  have ends' : EndsLine (ofSource source).rest := Glyph.getLast?_decode source ends
  have sound := sound_of_free (ofSource source) rfl
  constructor
  · intro last newline _ read clear
    obtain ⟨after, passes, -, -⟩ := (readAll_eq_iff source tokens _).mp read
    rcases passes.followedBy sound ends' with
      ⟨-, same⟩ | ⟨earlier, previous, before, last, due, rfl, -, same⟩
    · have longer := same (Glyph.decode more)
      rw [← ofSource_append source more ends] at longer
      exact longer.isPrefix
    · have longer := (same (Glyph.decode more)).append
        (.single (last.next_followedBy due clear) (semicolonAfter_ne_end before))
      rw [← ofSource_append source more ends] at longer
      exact longer.isPrefix
  · intro error final read
    obtain ⟨after, passes, failed, -⟩ := (readAll_eq_iff source tokens _).mp read
    rcases passes.followedBy sound ends' with
      ⟨ends'', same⟩ | ⟨earlier, previous, before, last, due, rfl, rfl, same⟩
    · have longer := same (Glyph.decode more)
      rw [← ofSource_append source more ends] at longer
      have failed' := after.next_fault ends'' failed final (Glyph.decode more)
      exact (readAll_eq_iff _ _ _).mpr ⟨_, longer, failed', trivial⟩
    · rw [last.end_after_semicolon before] at failed
      cases failed

theorem Lexer.readAll_append_sample :
    [.ok ⟨.openBrace, "", ⟨0, 1, 1⟩⟩, .ok ⟨.identifier, "x", ⟨2, 1, 3⟩⟩,
      .ok ⟨.semicolon, "", ⟨2, 1, 3⟩⟩] <+:
        readAll (Bytes.ofString "\x7b x // y\n" ++ Bytes.ofString " /* k */ + z\n") 0 ∧
    readAll (Bytes.ofString "x #\n" ++ Bytes.ofString "\x7b\x7d\n") 0 =
      [.ok ⟨.identifier, "x", ⟨0, 1, 1⟩⟩, .error ⟨⟨2, 1, 3⟩, .lexical .loneHash⟩] := by
  constructor
  · have read : readAll (Bytes.ofString "\x7b x // y\n") 0 =
        [⟨.openBrace, "", ⟨0, 1, 1⟩⟩, ⟨.identifier, "x", ⟨2, 1, 3⟩⟩,
          ⟨.semicolon, "", ⟨2, 1, 3⟩⟩].map .ok ++ [.ok ⟨.endOfInput, "", ⟨9, 2, 1⟩⟩] := rfl
    exact (readAll_append _ (Bytes.ofString " /* k */ + z\n") rfl _).1 _ false rfl read rfl
  · have read : readAll (Bytes.ofString "x #\n") 0 =
        [⟨.identifier, "x", ⟨0, 1, 1⟩⟩].map .ok ++ [.error ⟨⟨2, 1, 3⟩, .lexical .loneHash⟩] := rfl
    exact (readAll_append _ (Bytes.ofString "\x7b\x7d\n") rfl _).2 _ rfl read

end Koy
