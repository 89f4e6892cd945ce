import Koy.Proofs.Glyphs
import Koy.Proofs.TokenSequence

/-! Text put after a text that ends a line. Everything that is read before the end of the first text
is read in the same way, and only an unfinished comment or text literal reaches over that end. -/

namespace Koy

def EndsLine (text : List Glyph) : Prop :=
  text.getLast? = some (.char '\n')

theorem EndsLine.tail {glyph : Glyph} {rest : List Glyph} (ends : EndsLine (glyph :: rest)) :
    (glyph = .char '\n' ∧ rest = []) ∨ EndsLine rest := by
  cases rest with
  | nil => exact .inl ⟨Option.some.inj ends, rfl⟩
  | cons next rest => exact .inr (by simpa [EndsLine, List.getLast?_cons_cons] using ends)

theorem EndsLine.tail_of_ne {c : Char} {rest : List Glyph} (ends : EndsLine (.char c :: rest))
    (other : c ≠ '\n') : EndsLine rest :=
  ends.tail.resolve_left fun last => other (Glyph.char.inj last.1)

namespace Scan

variable {α β : Type}

def followedBy (scan : Scan α) (more : List Glyph) : Scan α :=
  { scan with rest := scan.rest ++ more }

theorem behind_followedBy (scan : Scan α) (passed : List Char) (more : List Glyph) :
    (scan.followedBy more).behind passed = (scan.behind passed).followedBy more := rfl

theorem map_followedBy (scan : Scan α) (f : α → β) (more : List Glyph) :
    (scan.followedBy more).map f = (scan.map f).followedBy more := rfl

end Scan

namespace Trivia

/-- How trivia at the start of a text are read when more text follows: they end within the text, or
in a comment that is open, or with the text. -/
def Continues (mode : Mode) (newline : Bool) (text : List Glyph) : Prop :=
  (EndsLine (scanFrom mode newline text).rest ∧ ∀ more,
    scanFrom mode newline (text ++ more) = (scanFrom mode newline text).followedBy more) ∨
  (scanFrom mode newline text).result = .error .openComment ∨
  ((scanFrom mode newline text).result = .ok true ∧ (scanFrom mode newline text).rest = [] ∧
    ∀ more, scanFrom mode newline (text ++ more) =
      (scanFrom .plain true more).behind (scanFrom mode newline text).span)

variable {mode mode' : Mode} {newline newline' : Bool} {text text' : List Glyph}

theorem Continues.behind (passed : List Char) (inner : Continues mode' newline' text')
    (alone : scanFrom mode newline text = (scanFrom mode' newline' text').behind passed)
    (together : ∀ more, scanFrom mode newline (text ++ more) =
      (scanFrom mode' newline' (text' ++ more)).behind passed) : Continues mode newline text := by
  simp only [Continues, alone, together]
  rcases inner with ⟨ends, same⟩ | opened | ⟨ended, nothing, same⟩
  · left
    refine ⟨ends, fun more => ?_⟩
    rw [same]
    exact Scan.behind_followedBy _ _ _
  · right
    left
    exact opened
  · right
    right
    refine ⟨ended, nothing, fun more => ?_⟩
    rw [same, Scan.behind_behind]
    rfl

theorem continues_nil : Continues .plain true [] :=
  .inr (.inr ⟨rfl, rfl, fun _ => rfl⟩)

theorem no_pair_of_append {c first second : Char} {rest : List Glyph}
    (ends : EndsLine (.char c :: rest)) (first_ne : first ≠ '\n')
    (none : ∀ left, rest = .char second :: left → c = first → False) (more : List Glyph) :
    ∀ left, rest ++ more = .char second :: left → c = first → False := by
  intro left pair here
  cases rest with
  | nil =>
      subst here
      cases ends
      exact first_ne rfl
  | cons next rest =>
      rw [List.cons_append] at pair
      cases pair
      exact none rest rfl here

theorem scanFrom_continues (mode : Mode) (newline : Bool) (text : List Glyph)
    (ends : EndsLine text) : Continues mode newline text := by
  fun_induction scanFrom mode newline text with
  | case1 | case2 | case3 => cases ends
  | case4 mode newline byte rest =>
      refine .inl ⟨?_, fun more => ?_⟩
      · cases mode <;> exact ends
      · cases mode <;> rfl
  | case5 newline rest ih =>
      have inner := ih ((ends.tail_of_ne (by decide)).tail_of_ne (by decide))
      refine inner.behind ['/', '/'] ?_ fun more => ?_
      · rw [scanFrom]
      · rw [List.cons_append, List.cons_append, scanFrom]
  | case6 newline rest ih =>
      have inner := ih ((ends.tail_of_ne (by decide)).tail_of_ne (by decide))
      refine inner.behind ['/', '*'] ?_ fun more => ?_
      · rw [scanFrom]
      · rw [List.cons_append, List.cons_append, scanFrom]
  | case7 newline c rest line block blank ih =>
      have inner : Continues .plain (newline || c == '\n') rest := by
        rcases ends.tail with ⟨here, rfl⟩ | ends
        · cases here
          rw [beq_self_eq_true, Bool.or_true]
          exact continues_nil
        · exact ih ends
      refine inner.behind [c] ?_ fun more => ?_
      · rw [scanFrom, if_pos blank]
        · exact line
        · exact block
      · rw [List.cons_append, scanFrom, if_pos blank]
        · exact no_pair_of_append ends (by decide) line more
        · exact no_pair_of_append ends (by decide) block more
  | case8 newline c rest line block solid =>
      have alone : scanFrom .plain newline (.char c :: rest) = ⟨.ok newline, [], .char c :: rest⟩ := by
        rw [scanFrom, if_neg solid]
        · exact line
        · exact block
      refine .inl ?_
      rw [alone]
      refine ⟨ends, fun more => ?_⟩
      rw [List.cons_append, scanFrom, if_neg solid]
      · rfl
      · exact no_pair_of_append ends (by decide) line more
      · exact no_pair_of_append ends (by decide) block more
  | case9 newline rest ih =>
      have inner : Continues .plain true rest := by
        rcases ends.tail with ⟨_, rfl⟩ | ends
        · exact continues_nil
        · exact ih ends
      refine inner.behind ['\n'] ?_ fun more => ?_
      · rw [scanFrom, if_pos rfl]
      · rw [List.cons_append, scanFrom, if_pos rfl]
  | case10 newline c rest other ih =>
      refine (ih (ends.tail_of_ne other)).behind [c] ?_ fun more => ?_
      · rw [scanFrom, if_neg other]
      · rw [List.cons_append, scanFrom, if_neg other]
  | case11 newline rest ih =>
      have inner := ih ((ends.tail_of_ne (by decide)).tail_of_ne (by decide))
      refine inner.behind ['*', '/'] ?_ fun more => ?_
      · rw [scanFrom]
      · rw [List.cons_append, List.cons_append, scanFrom]
  | case12 newline c rest other ih =>
      have inner : Continues .block (newline || c == '\n') rest := by
        rcases ends.tail with ⟨_, rfl⟩ | ends
        · exact .inr (.inl rfl)
        · exact ih ends
      refine inner.behind [c] ?_ fun more => ?_
      · rw [scanFrom]
        exact other
      · rw [List.cons_append, scanFrom]
        exact no_pair_of_append ends (by decide) other more

end Trivia

namespace Lexeme

theorem run_append (p : Char → Bool) (text : List Glyph) (ends : EndsLine text)
    (stops : p '\n' = false) : EndsLine (run p text).2 ∧
      ∀ more, run p (text ++ more) = ((run p text).1, (run p text).2 ++ more) := by
  fun_induction run p text with
  | case1 c rest holds taken left ran ih =>
      have other : c ≠ '\n' := by
        rintro rfl
        rw [stops] at holds
        cases holds
      obtain ⟨ends, same⟩ := ih (ends.tail_of_ne other)
      rw [ran] at ends
      refine ⟨ends, fun more => ?_⟩
      rw [List.cons_append, run, if_pos holds, same, ran]
  | case2 c rest fails =>
      refine ⟨ends, fun more => ?_⟩
      rw [List.cons_append, run, if_neg fails]
  | case3 text other =>
      refine ⟨ends, fun more => ?_⟩
      cases text with
      | nil => cases ends
      | cons glyph rest =>
          cases glyph with
          | char c => exact (other c rest rfl).elim
          | stray byte => rfl

/-- How a piece of text is read when more text follows: in the same way, or with a fault then too,
or it is unfinished. -/
def Continues {α : Type} (alone : Scan α) (together : List Glyph → Scan α) : Prop :=
  (EndsLine alone.rest ∧ ∀ more, together more = alone.followedBy more) ∨
  (∃ fault, alone.result = .error fault ∧
    (fault.incomplete = true ∨ ∀ more, (together more).result = .error fault))

theorem Continues.behind {α : Type} {alone : Scan α} {together : List Glyph → Scan α}
    (inner : Continues alone together) (passed : List Char) :
    Continues (alone.behind passed) (fun more => (together more).behind passed) := by
  rcases inner with ⟨ends, same⟩ | failed
  · left
    refine ⟨ends, fun more => ?_⟩
    dsimp only
    rw [same]
    exact Scan.behind_followedBy _ _ _
  · exact .inr failed

theorem Continues.map {α β : Type} {alone : Scan α} {together : List Glyph → Scan α}
    (inner : Continues alone together) (f : α → β) :
    Continues (alone.map f) (fun more => (together more).map f) := by
  rcases inner with ⟨ends, same⟩ | ⟨fault, failed, cause⟩
  · left
    refine ⟨ends, fun more => ?_⟩
    dsimp only
    rw [same]
    exact Scan.map_followedBy _ _ _
  · right
    refine ⟨fault, ?_, cause.imp_right fun failed' more => ?_⟩
    · rw [Scan.map, failed]
      rfl
    · dsimp only
      rw [Scan.map, failed']
      rfl

theorem text_continues (content : List Glyph) (ends : EndsLine content) :
    Continues (text content) (fun more => text (content ++ more)) := by
  fun_induction text content with
  | case1 => cases ends
  | case2 byte rest => exact .inr ⟨_, rfl, .inr fun _ => rfl⟩
  | case3 rest => exact .inl ⟨ends.tail_of_ne (by decide), fun _ => rfl⟩
  | case4 => exact .inr ⟨_, rfl, .inl rfl⟩
  | case5 byte rest => exact .inr ⟨_, rfl, .inr fun _ => rfl⟩
  | case6 c rest ih =>
      have ends' : EndsLine (.char c :: rest) := ends.tail_of_ne (by decide)
      have inner : Continues (text rest) (fun more => text (rest ++ more)) := by
        rcases ends'.tail with ⟨_, rfl⟩ | ends
        · exact .inr ⟨_, rfl, .inl rfl⟩
        · exact ih ends
      simp only [List.cons_append, text]
      exact (inner.map _).behind _
  | case7 rest =>
      refine .inr ⟨_, rfl, .inr fun more => ?_⟩
      dsimp only
      rw [List.cons_append, text, if_pos rfl]
      all_goals simp
  | case8 c rest quote last stray escape other ih =>
      have ends' := ends.tail_of_ne other
      have plain : c ≠ '\\' := by
        cases rest with
        | nil => exact last rfl
        | cons glyph rest =>
            cases glyph with
            | char d => exact escape d rest rfl
            | stray byte => exact stray byte rest rfl
      have together : ∀ more, text (.char c :: rest ++ more) =
          ((text (rest ++ more)).map (c :: ·)).behind [c] := by
        intro more
        rw [List.cons_append, text, if_neg other]
        · exact quote
        · exact fun _ => plain
        · exact fun _ _ _ => plain
        · exact fun _ _ _ => plain
      simp only [together]
      exact ((ih ends').map _).behind _

theorem name_continues (first : Char) (following : List Glyph) (ends : EndsLine following) :
    Continues (name first following) (fun more => name first (following ++ more)) := by
  obtain ⟨ends', same⟩ := run_append continuesName following ends (by decide)
  refine .inl ⟨ends', fun more => ?_⟩
  dsimp only
  rw [name, name, same]
  rfl

theorem number_continues (first : Char) (following : List Glyph) (ends : EndsLine following) :
    Continues (number first following) (fun more => number first (following ++ more)) := by
  obtain ⟨ends', same⟩ := run_append Text.isDecimalDigit following ends (by decide)
  simp only [number, same]
  generalize run Text.isDecimalDigit following = parts at ends'
  obtain ⟨digits, rest⟩ := parts
  cases rest with
  | nil => cases ends'
  | cons glyph rest =>
      cases glyph with
      | stray byte => exact .inl ⟨ends', fun _ => rfl⟩
      | char c =>
          simp only [List.cons_append]
          by_cases malformed : (c == '.' || startsName c) = true
          · simp only [malformed, if_true]
            exact .inr ⟨_, rfl, .inr fun _ => rfl⟩
          · simp only [malformed]
            exact .inl ⟨ends', fun _ => rfl⟩

theorem sign_before_newline (first : Char) (kind : TokenKind) :
    sign first (some '\n') ≠ .ok (kind, true) := by
  unfold sign
  split <;> simp_all

theorem symbol_continues (first : Char) (following : List Glyph)
    (ends : EndsLine (.char first :: following)) :
    Continues (symbol first following) (fun more => symbol first (following ++ more)) := by
  rcases ends.tail with ⟨here, rfl⟩ | ends
  · cases here
    exact .inr ⟨_, rfl, .inr fun _ => rfl⟩
  · cases following with
    | nil => cases ends
    | cons glyph rest =>
        have seen : ∀ more, Glyph.firstChar? (glyph :: rest ++ more) =
            Glyph.firstChar? (glyph :: rest) := by
          intro more
          cases glyph <;> rfl
        cases found : sign first (Glyph.firstChar? (glyph :: rest)) with
        | error fault =>
            refine .inr ⟨fault, ?_, .inr fun more => ?_⟩
            · simp only [symbol, found]
            · simp only [symbol, seen, found]
        | ok pair =>
            obtain ⟨kind, wide⟩ := pair
            cases glyph with
            | stray byte =>
                refine .inl ⟨?_, fun more => ?_⟩
                · simpa only [symbol, found] using ends
                · simp only [symbol, seen, found]
                  cases wide <;> rfl
            | char second =>
                cases wide with
                | false =>
                    refine .inl ⟨?_, fun more => ?_⟩
                    · simpa only [symbol, found] using ends
                    · simp only [symbol, seen, found]
                      rfl
                | true =>
                    have other : second ≠ '\n' := by
                      rintro rfl
                      exact sign_before_newline first kind found
                    refine .inl ⟨?_, fun more => ?_⟩
                    · simpa only [symbol, found] using ends.tail_of_ne other
                    · simp only [symbol, seen, found]
                      rfl

theorem scan_continues (content : List Glyph) (ends : EndsLine content) :
    Continues (scan content) (fun more => scan (content ++ more)) := by
  cases content with
  | nil => cases ends
  | cons glyph rest =>
      cases glyph with
      | stray byte => exact .inr ⟨_, rfl, .inr fun _ => rfl⟩
      | char c =>
          simp only [List.cons_append, scan]
          by_cases named : startsName c = true
          · have ends' := ends.tail_of_ne fun here => absurd (here ▸ named) (by decide)
            simp only [named, if_true]
            exact name_continues c rest ends'
          · simp only [named]
            by_cases digit : Text.isDecimalDigit c = true
            · have ends' := ends.tail_of_ne fun here => absurd (here ▸ digit) (by decide)
              simp only [digit, if_true]
              exact number_continues c rest ends'
            · simp only [digit]
              by_cases quote : c = '"'
              · have ends' := ends.tail_of_ne fun here => absurd (here ▸ quote) (by decide)
                simp only [quote, if_true]
                exact ((text_continues rest ends').map _).behind _
              · simp only [quote, if_false]
                exact symbol_continues c rest ends

end Lexeme

namespace Lexer

def followedBy (lexer : Lexer) (more : List Glyph) : Lexer :=
  { lexer with rest := lexer.rest ++ more }

/-- Only white space and finished comments are left of the text, and a line ends among them. -/
structure OnLastLine (lexer : Lexer) : Prop where
  free : lexer.held = none
  ended : (Trivia.scan lexer.rest).result = .ok true
  nothing : lexer.pastTrivia.rest = []
  beyond : ∀ more, Trivia.scan (lexer.rest ++ more) =
    (Trivia.scanFrom .plain true more).behind (Trivia.scan lexer.rest).span

theorem deliver_followedBy (lexer : Lexer) (token : Token) (more : List Glyph) :
    (lexer.followedBy more).deliver token =
      ((lexer.deliver token).1, (lexer.deliver token).2.followedBy more) := by
  have same : (lexer.followedBy more).blockEndDue token.kind = lexer.blockEndDue token.kind := rfl
  rw [deliver_eq, deliver_eq, same]
  cases lexer.blockEndDue token.kind with
  | none => rfl
  | some before => rfl

theorem deliver_rest (lexer : Lexer) (token : Token) : (lexer.deliver token).2.rest = lexer.rest := by
  rw [deliver_eq]
  cases lexer.blockEndDue token.kind with
  | none => rfl
  | some before => rfl

theorem deliver_kind (lexer : Lexer) (token : Token) (proper : token.kind ≠ .endOfInput) :
    (lexer.deliver token).1.kind ≠ .endOfInput := by
  rw [deliver_eq]
  cases lexer.blockEndDue token.kind with
  | none => exact proper
  | some before => exact semicolonAfter_ne_end before

def Goes (step : Lexer → Except SyntaxError Token × Lexer) (lexer : Lexer) : Prop :=
  (∃ token after, token.kind ≠ .endOfInput ∧ EndsLine after.rest ∧ step lexer = (.ok token, after) ∧
    ∀ more, step (lexer.followedBy more) = (.ok token, after.followedBy more)) ∨
  (∃ error, (step lexer).1 = .error error ∧ error.incomplete = true) ∨
  (∀ more, ∃ error, (step (lexer.followedBy more)).1 = .error error)

theorem readToken_goes (lexer : Lexer) (ends : EndsLine lexer.rest) : Goes readToken lexer := by
  have failing : ∀ (other : Lexer) (fault : LexicalFault),
      (Lexeme.scan other.rest).result = .error fault → other.readToken.1 =
        .error (report fault other.position (other.moveOn (Lexeme.scan other.rest)).position) := by
    intro other fault failed
    simp only [readToken, failed]
  rcases Lexeme.scan_continues lexer.rest ends with ⟨ends', same⟩ | ⟨fault, failed, cause⟩
  · replace same : ∀ more, Lexeme.scan (lexer.rest ++ more) =
      (Lexeme.scan lexer.rest).followedBy more := same
    cases read : (Lexeme.scan lexer.rest).result with
    | error fault =>
        refine .inr (.inr fun more => ⟨_, failing _ fault ?_⟩)
        rw [show (lexer.followedBy more).rest = lexer.rest ++ more from rfl, same]
        exact read
    | ok pair =>
        obtain ⟨kind, lexeme⟩ := pair
        have proper : kind ≠ .endOfInput := by
          rintro rfl
          have nothing := Lexeme.eq_nil_of_scan_endOfInput _ _ read
          rw [nothing] at ends
          cases ends
        let moved := lexer.moveOn (Lexeme.scan lexer.rest)
        let token : Token := { kind, lexeme, position := lexer.position }
        refine .inl ⟨(moved.deliver token).1, (moved.deliver token).2, ?_, ?_, ?_, fun more => ?_⟩
        · exact deliver_kind moved token proper
        · rw [deliver_rest]
          exact ends'
        · simp only [readToken, read]
          rfl
        · have moved' : (lexer.followedBy more).moveOn (Lexeme.scan (lexer.rest ++ more)) =
              moved.followedBy more := by
            rw [same]
            rfl
          have read' : (Lexeme.scan (lexer.rest ++ more)).result = .ok (kind, lexeme) := by
            rw [same]
            exact read
          simp only [readToken]
          rw [show (lexer.followedBy more).rest = lexer.rest ++ more from rfl, moved', read']
          simp only [deliver_followedBy]
          rfl
  · rcases cause with incomplete | again
    · exact .inr (.inl ⟨_, failing lexer fault failed, incomplete⟩)
    · exact .inr (.inr fun more => ⟨_, failing _ fault (again more)⟩)

theorem pastTrivia_followedBy (lexer : Lexer) (more : List Glyph)
    (same : Trivia.scan (lexer.rest ++ more) = (Trivia.scan lexer.rest).followedBy more) :
    (lexer.followedBy more).pastTrivia = lexer.pastTrivia.followedBy more := by
  rw [pastTrivia, show (lexer.followedBy more).rest = lexer.rest ++ more from rfl, same]
  rfl

theorem semicolonDue_followedBy (lexer : Lexer) (newline : Bool) (more : List Glyph)
    (ends : EndsLine lexer.pastTrivia.rest)
    (same : Trivia.scan (lexer.rest ++ more) = (Trivia.scan lexer.rest).followedBy more) :
    (lexer.followedBy more).semicolonDue newline = lexer.semicolonDue newline := by
  have here : (Trivia.scan lexer.rest).rest.isEmpty = false := by
    rw [List.isEmpty_eq_false_iff]
    rintro nothing
    rw [pastTrivia_rest, nothing] at ends
    cases ends
  have there : (Trivia.scan (lexer.followedBy more).rest).rest.isEmpty = false := by
    rw [show (lexer.followedBy more).rest = lexer.rest ++ more from rfl, same]
    simp [Scan.followedBy, List.isEmpty_eq_false_iff.mp here]
  rw [semicolonDue, semicolonDue, here, there]
  rfl

theorem next_goes_of_trivia (lexer : Lexer) (free : lexer.held = none)
    (ends : EndsLine lexer.pastTrivia.rest)
    (same : ∀ more, Trivia.scan (lexer.rest ++ more) = (Trivia.scan lexer.rest).followedBy more) :
    Goes next lexer := by
  have free' : ∀ more, (lexer.followedBy more).held = none := fun _ => free
  have past : ∀ more, (lexer.followedBy more).pastTrivia = lexer.pastTrivia.followedBy more :=
    fun more => lexer.pastTrivia_followedBy more (same more)
  have scanned : ∀ more, (Trivia.scan (lexer.followedBy more).rest).result =
      (Trivia.scan lexer.rest).result := by
    intro more
    rw [show (lexer.followedBy more).rest = lexer.rest ++ more from rfl, same]
    rfl
  cases passed : (Trivia.scan lexer.rest).result with
  | error fault =>
      refine .inr (.inr fun more => ?_)
      refine ⟨report fault lexer.position (lexer.followedBy more).pastTrivia.position, ?_⟩
      simp only [next, free', scanned, passed]
      rfl
  | ok newline =>
      have passed' : ∀ more, (Trivia.scan (lexer.followedBy more).rest).result = .ok newline :=
        fun more => (scanned more).trans passed
      have due : ∀ more, (lexer.followedBy more).semicolonDue newline =
          lexer.semicolonDue newline :=
        fun more => lexer.semicolonDue_followedBy newline more ends (same more)
      cases ready : lexer.semicolonDue newline with
      | some before =>
          refine .inl ⟨semicolonAfter before, lexer.pastTrivia.emit (semicolonAfter before),
            semicolonAfter_ne_end before, ends, ?_, fun more => ?_⟩
          · rw [next_eq lexer free newline passed, ready]
          · rw [next_eq _ (free' more) newline (passed' more), due, ready, past]
            rfl
      | none =>
          have alone : lexer.next = lexer.pastTrivia.readToken := by
            rw [next_eq lexer free newline passed, ready]
          have together : ∀ more, (lexer.followedBy more).next =
              (lexer.pastTrivia.followedBy more).readToken := by
            intro more
            rw [next_eq _ (free' more) newline (passed' more), due, ready, past]
          have goes := readToken_goes lexer.pastTrivia ends
          simpa only [Goes, alone, together] using goes

theorem next_goes (lexer : Lexer) (sound : lexer.Sound) (ends : EndsLine lexer.rest) :
    Goes next lexer ∨ lexer.OnLastLine := by
  cases waiting : lexer.held with
  | some token =>
      left
      left
      refine ⟨token, { lexer.emit token with held := none }, ?_, ends, ?_, fun more => ?_⟩
      · rw [sound token waiting]
        decide
      · simp only [next, waiting]
      · have waiting' : (lexer.followedBy more).held = some token := waiting
        simp only [next, waiting']
        rfl
  | none =>
      rcases Trivia.scanFrom_continues .plain false lexer.rest ends with
        ⟨ends', same⟩ | opened | ⟨ended, nothing, beyond⟩
      · exact .inl (next_goes_of_trivia lexer waiting ends' same)
      · left
        right
        left
        have failed : (Trivia.scan lexer.rest).result = .error .openComment := opened
        refine ⟨report .openComment lexer.position lexer.pastTrivia.position, ?_, rfl⟩
        simp only [next, waiting, failed]
        rfl
      · exact .inr ⟨waiting, ended, nothing, beyond⟩

end Lexer

theorem ofSource_append (source more : Bytes) (ends : source.getLast? = some 10) :
    Lexer.ofSource (source ++ more) = (Lexer.ofSource source).followedBy (Glyph.decode more) := by
  rw [Lexer.ofSource, Glyph.decode_append source more ends]
  rfl

def Lexer.Reaches (lexer : Lexer) : Prop :=
  ∃ n, Items.HasAt lexer.item n .endOfInput

/-- Three sequences have their first `k` tokens in common. Then the first is at its end, where the
last has one more token, the word `else`; or it breaks off unfinished; or the second has a fault. -/
structure Abreast (k : Nat) (short long probe : Items) : Prop where
  same : ∀ i < k, long i = short i ∧ probe i = short i
  parting : (∃ error, short k = .error error ∧ error.incomplete = true) ∨
    (∃ error, long k = .error error) ∨
    (short.HasAt k .endOfInput ∧ probe.HasAt k .elseWord ∧ probe.HasAt (k + 1) .endOfInput)

theorem Abreast.cons {k : Nat} {short long probe : Items} (first : long 0 = short 0 ∧ probe 0 = short 0)
    (rest : Abreast k (fun i => short (i + 1)) (fun i => long (i + 1)) (fun i => probe (i + 1))) :
    Abreast (k + 1) short long probe where
  same i lt := by
    cases i with
    | zero => exact first
    | succ i => exact rest.same i (Nat.lt_of_succ_lt_succ lt)
  parting := rest.parting

theorem Trivia.newline_of_scanFrom (mode : Mode) (newline ended : Bool) (text : List Glyph)
    (passed : newline = true) (found : (scanFrom mode newline text).result = .ok ended) :
    ended = true := by
  fun_induction scanFrom mode newline text with
  | case1 newline | case8 newline =>
      cases found
      exact passed
  | case2 =>
      cases found
      rfl
  | case3 | case4 => cases found
  | case5 | case6 | case10 | case11 => simp_all
  | case7 | case9 | case12 => simp_all

namespace Lexer

def elseLine : List Glyph :=
  "else\n".toList.map .char

theorem item_of_faultyTrivia (lexer : Lexer) {fault : LexicalFault} (free : lexer.held = none)
    (failed : (Trivia.scan lexer.rest).result = .error fault) (n : Nat) :
    lexer.item n = .error (report fault lexer.position lexer.pastTrivia.position) := by
  apply item_of_error
  simp only [next, free, failed]
  rfl

theorem item_at_end (lexer : Lexer) (free : lexer.held = none) (newline : Bool)
    (passed : (Trivia.scan lexer.rest).result = .ok newline) (empty : lexer.pastTrivia.rest = [])
    (quiet : lexer.semicolonDue newline = none) : Items.HasAt lexer.item 0 .endOfInput := by
  refine ⟨lexer.pastTrivia.endToken, ?_, rfl⟩
  rw [item, next_at_end lexer free newline passed empty quiet]

theorem next_else (lexer : Lexer) (free : lexer.held = none) (newline : Bool)
    (passed : (Trivia.scan lexer.rest).result = .ok newline) (tail : List Char)
    (line : lexer.pastTrivia.rest = ("else".toList ++ tail).map .char)
    (stops : ∀ c, tail.head? = some c → Lexeme.continuesName c = false)
    (quiet : lexer.semicolonDue newline = none) :
    ∃ after, lexer.next = (.ok ⟨.elseWord, "else", lexer.pastTrivia.position⟩, after) ∧
      after.held = none ∧ after.rest = tail.map .char ∧ after.statementEnd? = none := by
  have word : Lexeme.scan (("else".toList ++ tail).map .char) =
      ⟨.ok (.elseWord, "else"), "else".toList, tail.map .char⟩ := by
    have ran := Lexeme.run_all Lexeme.continuesName ['l', 's', 'e'] tail (by decide) stops
    change Lexeme.scan (.char 'e' :: (['l', 's', 'e'] ++ tail).map .char) = _
    rw [Lexeme.scan, if_pos (by decide), Lexeme.name, ran]
    rfl
  let token : Token := ⟨.elseWord, "else", lexer.pastTrivia.position⟩
  refine ⟨lexer.pastToken.emit token, ?_, free, ?_, rfl⟩
  · rw [next_eq lexer free newline passed, quiet]
    simp only [readToken, deliver_eq]
    rw [line, word]
    simp only [blockEndDue_of_ne _ .elseWord (by decide)]
    rw [pastToken, line, word]
  · rw [emit_rest, pastToken_rest, line, word]

theorem items_before_else (lexer : Lexer) (free : lexer.held = none) (newline : Bool)
    (passed : (Trivia.scan lexer.rest).result = .ok newline)
    (line : lexer.pastTrivia.rest = elseLine) (quiet : lexer.semicolonDue newline = none) :
    Items.HasAt lexer.item 0 .elseWord ∧ Items.HasAt lexer.item 1 .endOfInput := by
  have stops : ∀ c, ['\n'].head? = some c → Lexeme.continuesName c = false := by
    rintro _ ⟨⟩
    decide
  obtain ⟨after, stepped, free', blank, quiet'⟩ :=
    next_else lexer free newline passed ['\n'] line stops quiet
  have ended := item_at_end after free' true (by rw [blank]; rfl) (by rw [pastTrivia_rest, blank]; rfl)
    (semicolonDue_of_statementEnd? _ _ quiet')
  refine ⟨⟨_, congrArg Prod.fst stepped, rfl⟩, ?_⟩
  rw [Items.HasAt, item_succ_of_ok stepped]
  exact ended

theorem OnLastLine.abreast {lexer : Lexer} (last : lexer.OnLastLine) (more : List Glyph) :
    ∃ k, Abreast k lexer.item (lexer.followedBy more).item (lexer.followedBy elseLine).item := by
  have probe : Trivia.scan (lexer.rest ++ elseLine) =
      ⟨.ok true, (Trivia.scan lexer.rest).span ++ [], elseLine⟩ := last.beyond elseLine
  have passed : (Trivia.scan (lexer.followedBy elseLine).rest).result = .ok true := by
    rw [show (lexer.followedBy elseLine).rest = lexer.rest ++ elseLine from rfl, probe]
  have line : (lexer.followedBy elseLine).pastTrivia.rest = elseLine := by
    rw [pastTrivia_rest, show (lexer.followedBy elseLine).rest = lexer.rest ++ elseLine from rfl,
      probe]
  cases due : lexer.semicolonDue true with
  | none =>
      refine ⟨0, fun i lt => absurd lt (Nat.not_lt_zero i), .inr (.inr ⟨?_, ?_⟩)⟩
      · exact item_at_end lexer last.free true last.ended last.nothing due
      · exact items_before_else (lexer.followedBy elseLine) last.free true passed line due
  | some before =>
      let supplied := semicolonAfter before
      have short : lexer.next = (.ok supplied, lexer.pastTrivia.emit supplied) := by
        rw [next_eq lexer last.free true last.ended, due]
      have probed : (lexer.followedBy elseLine).next =
          (.ok supplied, (lexer.followedBy elseLine).pastTrivia.emit supplied) := by
        rw [next_eq (lexer.followedBy elseLine) last.free true passed,
          show (lexer.followedBy elseLine).semicolonDue true = some before from due]
      have beyond : (Trivia.scan (lexer.followedBy more).rest).result =
          (Trivia.scanFrom .plain true more).result := by
        rw [show (lexer.followedBy more).rest = lexer.rest ++ more from rfl, last.beyond]
        rfl
      cases read : (Trivia.scanFrom .plain true more).result with
      | error fault =>
          have failed := item_of_faultyTrivia (lexer.followedBy more) last.free (beyond.trans read) 0
          exact ⟨0, fun i lt => absurd lt (Nat.not_lt_zero i), .inr (.inl ⟨_, failed⟩)⟩
      | ok newline =>
          have line_end := Trivia.newline_of_scanFrom .plain true newline more rfl read
          subst line_end
          have long : (lexer.followedBy more).next =
              (.ok supplied, (lexer.followedBy more).pastTrivia.emit supplied) := by
            rw [next_eq (lexer.followedBy more) last.free true (beyond.trans read),
              show (lexer.followedBy more).semicolonDue true = some before from due]
          refine ⟨1, Abreast.cons ⟨?_, ?_⟩ ?_⟩
          · rw [item, item, long, short]
          · rw [item, item, probed, short]
          · refine ⟨fun i lt => absurd lt (Nat.not_lt_zero i), .inr (.inr ?_)⟩
            simp only [Items.HasAt, item_succ_of_ok short, item_succ_of_ok probed]
            refine ⟨?_, ?_⟩
            · have nothing : (lexer.pastTrivia.emit supplied).rest = [] := last.nothing
              exact item_at_end _ last.free false (by rw [nothing]; rfl)
                (by rw [pastTrivia_rest, nothing]; rfl) (semicolonDue_of_statementEnd? _ _ rfl)
            · have line' : ((lexer.followedBy elseLine).pastTrivia.emit supplied).rest = elseLine :=
                line
              exact items_before_else _ last.free false (by rw [line']; rfl)
                (by rw [pastTrivia_rest, line']; rfl) (semicolonDue_of_statementEnd? _ _ rfl)

theorem exists_abreast (lexer : Lexer) (sound : lexer.Sound) (ends : EndsLine lexer.rest)
    (more : List Glyph) :
    ∃ k, Abreast k lexer.item (lexer.followedBy more).item (lexer.followedBy elseLine).item := by
  induction bound : lexer.weight using Nat.strongRecOn generalizing lexer with
  | _ bound ih =>
      subst bound
      rcases next_goes lexer sound ends with
        (⟨token, after, proper, ends', alone, together⟩ | ⟨error, failed, incomplete⟩ | failing) | last
      · have step := step_of_next lexer _ _ alone
        obtain ⟨k, rest⟩ := ih after.weight (step.weight_lt proper) after step.sound ends' rfl
        refine ⟨k + 1, Abreast.cons ⟨?_, ?_⟩ ?_⟩
        · rw [item, item, together, alone]
        · rw [item, item, together, alone]
        · simpa only [item_succ_of_ok alone, item_succ_of_ok (together _)] using rest
      · exact ⟨0, fun i lt => absurd lt (Nat.not_lt_zero i), .inl ⟨error, failed, incomplete⟩⟩
      · exact ⟨0, fun i lt => absurd lt (Nat.not_lt_zero i), .inr (.inl (failing more))⟩
      · exact last.abreast more

end Lexer

end Koy
