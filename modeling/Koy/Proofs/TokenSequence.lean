import Koy.Proofs.Glyphs
import Koy.Proofs.LexerSteps
import Koy.Token.Stream

/-! The tokens of a source text as one sequence. A reader sees a stream only through the sequence
of its tokens: moving on drops the first, looking ahead changes nothing, and the end token, once
reached, comes again and again. -/

namespace Koy

namespace Lexer

/-- The token `n` places after the next one, or the first fault before it. -/
def item : Lexer → Nat → Except SyntaxError Token
  | lexer, 0 => lexer.next.1
  | lexer, n + 1 =>
    match lexer.next with
    | (.ok _, rest) => rest.item n
    | (.error error, _) => .error error

def Sound (lexer : Lexer) : Prop :=
  ∀ token, lexer.held = some token → token.kind = .closeBrace

theorem sound_of_free (lexer : Lexer) (free : lexer.held = none) : lexer.Sound := by
  intro token waiting
  rw [free] at waiting
  cases waiting

variable {lexer after : Lexer} {result : Except SyntaxError Token} {token : Token}

theorem Step.sound (step : Step lexer result after) : after.Sound := by
  cases step with
  | held token waiting => exact sound_of_free _ rfl
  | faultyTrivia fault free failed => exact sound_of_free _ free
  | lineEnd newline before free passed due => exact sound_of_free _ free
  | faultyToken newline fault free passed quiet failed =>
      apply sound_of_free
      split
      · exact free
      · exact free
  | blockEnd newline kind lexeme before free passed quiet read due =>
      have closing := (Option.filter_eq_some_iff.mp due).2
      intro token waiting
      cases waiting
      exact (of_decide_eq_true closing).1
  | token newline kind lexeme free passed quiet read plain => exact sound_of_free _ free

def endToken (lexer : Lexer) : Token :=
  { kind := .endOfInput, position := lexer.position }

theorem blockEndDue_of_ne (lexer : Lexer) (kind : TokenKind) (other : kind ≠ .closeBrace) :
    lexer.blockEndDue kind = none := by
  rw [blockEndDue, Option.filter_eq_none_iff]
  intro before _ closing
  exact other (of_decide_eq_true closing).1

theorem readToken_at_end (lexer : Lexer) (empty : lexer.rest = []) :
    lexer.readToken = (.ok lexer.endToken, lexer.emit lexer.endToken) := by
  have again : lexer.moveOn (Lexeme.scan lexer.rest) = lexer := by
    rw [empty]
    simp [moveOn, Lexeme.scan, ← empty]
  simp only [readToken, again, deliver_eq]
  simp only [empty, Lexeme.scan]
  rw [blockEndDue_of_ne lexer .endOfInput (by decide)]
  rfl

theorem next_at_end (lexer : Lexer) (free : lexer.held = none) (newline : Bool)
    (passed : (Trivia.scan lexer.rest).result = .ok newline) (empty : lexer.pastTrivia.rest = [])
    (quiet : lexer.semicolonDue newline = none) :
    lexer.next = (.ok lexer.pastTrivia.endToken,
      lexer.pastTrivia.emit lexer.pastTrivia.endToken) := by
  rw [next_eq lexer free newline passed, quiet]
  exact readToken_at_end lexer.pastTrivia empty

theorem semicolonDue_of_statementEnd? (lexer : Lexer) (newline : Bool)
    (quiet : lexer.statementEnd? = none) : lexer.semicolonDue newline = none := by
  rw [semicolonDue, quiet]
  rfl

theorem pastTrivia_of_nil (lexer : Lexer) (empty : lexer.rest = []) : lexer.pastTrivia = lexer := by
  rw [pastTrivia, empty]
  simp [moveOn, Trivia.scan, Trivia.scanFrom, ← empty]

theorem Step.next_of_end (step : Step lexer (.ok token) after) (sound : lexer.Sound)
    (ended : token.kind = .endOfInput) : after.next = (.ok token, after) := by
  cases step with
  | held token waiting =>
      have closing := sound token waiting
      rw [ended] at closing
      cases closing
  | lineEnd | blockEnd => cases ended
  | token newline kind lexeme free passed quiet found plain =>
      have ended' : kind = .endOfInput := ended
      subst ended'
      have nothing := Lexeme.eq_nil_of_scan_endOfInput _ _ found
      have blank : lexeme = "" := by
        rw [nothing] at found
        cases found
        rfl
      subst blank
      have empty : lexer.pastToken.rest = [] := by
        rw [pastToken, nothing]
        rfl
      have still : lexer.pastToken.endToken = lexer.pastTrivia.endToken := by
        rw [endToken, pastToken, nothing]
        rfl
      -- Handing out the end token again leaves the lexer as it is.
      let reached := lexer.pastToken.emit lexer.pastTrivia.endToken
      have stayed : reached.pastTrivia = reached := pastTrivia_of_nil reached empty
      have passed : (Trivia.scan reached.rest).result = .ok false := by
        rw [show reached.rest = [] from empty]
        rfl
      have again := next_at_end reached free false passed (by rw [stayed]; exact empty)
        (semicolonDue_of_statementEnd? reached false rfl)
      rw [stayed, show reached.endToken = lexer.pastTrivia.endToken from still] at again
      exact again

theorem item_succ_of_ok (stepped : lexer.next = (.ok token, after)) (n : Nat) :
    lexer.item (n + 1) = after.item n := by
  rw [item, stepped]

theorem item_of_error {error : SyntaxError} (failed : lexer.next.1 = .error error) (n : Nat) :
    lexer.item n = .error error := by
  cases n with
  | zero => exact failed
  | succ n =>
      rw [item]
      split
      · rename_i stepped
        rw [stepped] at failed
        cases failed
      · rename_i stepped
        rw [stepped] at failed
        exact failed

theorem item_error_succ (lexer : Lexer) (n : Nat) (error : SyntaxError)
    (failed : lexer.item n = .error error) : lexer.item (n + 1) = .error error := by
  induction n generalizing lexer with
  | zero => exact item_of_error failed 1
  | succ n ih =>
      rw [item] at failed ⊢
      split at failed
      · rename_i token rest stepped
        exact ih rest failed
      · exact failed

theorem item_end_succ (lexer : Lexer) (sound : lexer.Sound) (n : Nat) (token : Token)
    (found : lexer.item n = .ok token) (ended : token.kind = .endOfInput) :
    lexer.item (n + 1) = .ok token := by
  induction n generalizing lexer with
  | zero =>
      have stepped : lexer.next = (.ok token, lexer.next.2) := Prod.ext found rfl
      have again := (step_of_next lexer _ _ stepped).next_of_end sound ended
      rw [item_succ_of_ok stepped, item, again]
  | succ n ih =>
      rw [item] at found ⊢
      split at found
      · rename_i first rest stepped
        exact ih rest (step_of_next lexer _ _ stepped).sound found
      · cases found

theorem item_of_end (sound : lexer.Sound) (last : lexer.next.1 = .ok token)
    (ended : token.kind = .endOfInput) (n : Nat) : lexer.item n = .ok token := by
  induction n with
  | zero => exact last
  | succ n ih => exact item_end_succ lexer sound n token ih ended

/-- A bound on the tokens that are left: every character may be a token that a semicolon follows. -/
def weight (lexer : Lexer) : Nat :=
  2 * lexer.rest.length + lexer.statementEnd?.toList.length + 2 * lexer.held.toList.length

theorem weight_ofSource_le (source : Bytes) : (ofSource source).weight ≤ 2 * source.length := by
  have glyphs := Glyph.length_decode_le source
  change 2 * (Glyph.decode source).length + 0 + 2 * 0 ≤ _
  omega

theorem length_pastTrivia (lexer : Lexer) : lexer.pastTrivia.rest.length ≤ lexer.rest.length := by
  have split := (Trivia.scan_splits lexer.rest).length_rest
  rw [pastTrivia_rest]
  omega

theorem length_statementEnd? (lexer : Lexer) : lexer.statementEnd?.toList.length ≤ 1 := by
  cases lexer.statementEnd? with
  | none => exact Nat.zero_le 1
  | some token => exact Nat.le_refl 1

theorem length_pastToken (lexer : Lexer) (kind : TokenKind) (lexeme : String)
    (read : (Lexeme.scan lexer.pastTrivia.rest).result = .ok (kind, lexeme))
    (token : kind ≠ .endOfInput) : lexer.pastToken.rest.length < lexer.rest.length := by
  have shorter := Lexeme.rest_lt_of_scan _ _ _ read token
  have trivia := lexer.length_pastTrivia
  rw [pastToken_rest]
  omega

theorem Step.weight_lt (step : Step lexer (.ok token) after)
    (proper : token.kind ≠ .endOfInput) : after.weight < lexer.weight := by
  cases step with
  | held token waiting =>
      have most := (lexer.emit token).length_statementEnd?
      change 2 * lexer.rest.length + (lexer.emit token).statementEnd?.toList.length + 2 * 0 < _
      simp only [weight, waiting, Option.toList_some, List.length_singleton]
      omega
  | lineEnd newline before free passed due =>
      have ending := (Option.filter_eq_some_iff.mp due).1
      have trivia := lexer.length_pastTrivia
      have quiet : (lexer.pastTrivia.emit (semicolonAfter before)).statementEnd? = none := rfl
      have still : lexer.pastTrivia.held = none := free
      simp only [weight, ending, free, quiet, still, emit_rest, emit_held, Option.toList_none,
        Option.toList_some, List.length_nil, List.length_singleton]
      omega
  | blockEnd newline kind lexeme before free passed quiet read due =>
      obtain ⟨ending, closing⟩ := Option.filter_eq_some_iff.mp due
      have closes : kind = .closeBrace := (of_decide_eq_true closing).1
      have shorter := lexer.length_pastToken kind lexeme read (closes ▸ by decide)
      change 2 * lexer.pastToken.rest.length + 0 + 2 * 1 < _
      simp only [weight, ending, free, Option.toList_none, Option.toList_some, List.length_nil,
        List.length_singleton]
      omega
  | token newline kind lexeme free passed quiet read plain =>
      have shorter := lexer.length_pastToken kind lexeme read proper
      have most := (lexer.pastToken.emit
        ⟨kind, lexeme, lexer.pastTrivia.position⟩).length_statementEnd?
      have still : lexer.pastToken.held = none := free
      simp only [weight, free, still, emit_rest, emit_held, Option.toList_none, List.length_nil]
      omega

theorem exists_end (lexer : Lexer) : ∃ i ≤ lexer.weight, ∀ token, lexer.item i = .ok token →
    token.kind = .endOfInput := by
  induction bound : lexer.weight using Nat.strongRecOn generalizing lexer with
  | _ bound ih =>
      subst bound
      cases stepped : lexer.next with
      | mk result rest =>
          cases result with
          | error error =>
              refine ⟨0, Nat.zero_le _, fun token found => ?_⟩
              rw [item, stepped] at found
              cases found
          | ok first =>
              by_cases ended : first.kind = .endOfInput
              · refine ⟨0, Nat.zero_le _, fun token found => ?_⟩
                rw [item, stepped] at found
                cases found
                exact ended
              · have lighter := (step_of_next lexer _ _ stepped).weight_lt ended
                obtain ⟨i, le, stops⟩ := ih rest.weight lighter rest rfl
                refine ⟨i + 1, by omega, fun token found => ?_⟩
                rw [item_succ_of_ok stepped] at found
                exact stops token found

end Lexer

/-- A sequence of tokens, which ends with a fault or goes on with its end token. -/
abbrev Items := Nat → Except SyntaxError Token

def Items.HasAt (items : Items) (k : Nat) (kind : TokenKind) : Prop :=
  ∃ token, items k = .ok token ∧ token.kind = kind

namespace TokenStream

def item (stream : TokenStream) : Nat → Except SyntaxError Token
  | 0 => .ok stream.current
  | n + 1 =>
    match stream.ahead[n]? with
    | some token => .ok token
    | none => stream.lexer.item (n - stream.ahead.length)

/-- The sequence of tokens goes on with its end token once it has come to it. -/
def Sound (stream : TokenStream) : Prop :=
  ∀ n token, stream.item n = .ok token → token.kind = .endOfInput → stream.item (n + 1) = .ok token

def Same (stream other : TokenStream) : Prop :=
  ∀ n, other.item n = stream.item n

theorem Sound.of_same {stream other : TokenStream} (sound : stream.Sound)
    (same : stream.Same other) : other.Sound := by
  intro n token found ended
  rw [same] at found ⊢
  exact sound n token found ended

theorem Sound.of_shift {stream other : TokenStream} (sound : stream.Sound)
    (shifted : ∀ n, other.item n = stream.item (n + 1)) : other.Sound := by
  intro n token found ended
  rw [shifted] at found ⊢
  exact sound (n + 1) token found ended

theorem Sound.item_of_le {stream : TokenStream} (sound : stream.Sound) {n m : Nat} {token : Token}
    (found : stream.item n = .ok token) (ended : token.kind = .endOfInput) (le : n ≤ m) :
    stream.item m = .ok token := by
  induction le with
  | refl => exact found
  | step _ ih => exact sound _ token ih ended

theorem ofLexer_ok {lexer : Lexer} {stream : TokenStream} (started : ofLexer lexer = .ok stream) :
    ∀ n, stream.item n = lexer.item n := by
  unfold ofLexer at started
  split at started
  · rename_i token rest stepped
    cases started
    intro n
    cases n with
    | zero => rw [Lexer.item, stepped]; rfl
    | succ n => rw [Lexer.item_succ_of_ok stepped]; rfl
  · cases started

theorem sound_ofSource {source : Bytes} {stream : TokenStream}
    (started : ofSource source = .ok stream) : stream.Sound := by
  intro n token found ended
  rw [ofLexer_ok started] at found ⊢
  exact Lexer.item_end_succ _ (Lexer.sound_of_free _ rfl) n token found ended

theorem ofLexer_error {lexer : Lexer} {error : SyntaxError} :
    ofLexer lexer = .error error ↔ lexer.item 0 = .error error := by
  unfold ofLexer
  rw [Lexer.item]
  split
  · rename_i stepped
    simp [stepped]
  · rename_i stepped
    simp [stepped]

theorem item_error_succ (stream : TokenStream) (n : Nat) (error : SyntaxError)
    (failed : stream.item n = .error error) : stream.item (n + 1) = .error error := by
  cases n with
  | zero => cases failed
  | succ n =>
      rw [item] at failed ⊢
      split at failed
      · cases failed
      · rename_i beyond
        have out := List.getElem?_eq_none_iff.mp beyond
        have still : stream.ahead[n + 1]? = none := List.getElem?_eq_none_iff.mpr (by omega)
        rw [still, Nat.succ_sub out]
        exact Lexer.item_error_succ stream.lexer _ error failed

theorem item_error_of_le (stream : TokenStream) {n m : Nat} {error : SyntaxError}
    (failed : stream.item n = .error error) (le : n ≤ m) : stream.item m = .error error := by
  induction le with
  | refl => exact failed
  | step _ ih => exact stream.item_error_succ _ error ih

/-! Moving on. -/

theorem item_of_advance {stream after : TokenStream} (moved : stream.advance = .ok after) (n : Nat) :
    after.item n = stream.item (n + 1) := by
  unfold advance at moved
  split at moved
  · rename_i token ahead queued
    cases moved
    cases n with
    | zero => simp [item, queued]
    | succ n => simp [item, queued]
  · rename_i queued
    rw [ofLexer_ok moved, item, queued]
    rfl

theorem advance_error {stream : TokenStream} {error : SyntaxError} :
    stream.advance = .error error ↔ stream.item 1 = .error error := by
  unfold advance
  rw [item]
  split
  · rename_i queued
    simp [queued]
  · rename_i queued
    rw [ofLexer_error, queued]
    rfl

/-! Looking ahead. -/

theorem same_of_read {stream : TokenStream} {token : Token} {rest : Lexer}
    (stepped : stream.lexer.next = (.ok token, rest)) :
    stream.Same { stream with ahead := stream.ahead ++ [token], lexer := rest } := by
  intro n
  cases n with
  | zero => rfl
  | succ n =>
      simp only [item]
      rcases Nat.lt_trichotomy n stream.ahead.length with inside | rfl | outside
      · simp [List.getElem?_append_left inside, List.getElem?_eq_getElem inside]
      · simp [Lexer.item, stepped]
      · have past : stream.ahead[n]? = none := List.getElem?_eq_none_iff.mpr (by omega)
        have past' : (stream.ahead ++ [token])[n]? = none :=
          List.getElem?_eq_none_iff.mpr (by simp; omega)
        obtain ⟨more, rfl⟩ : ∃ more, n = stream.ahead.length + 1 + more :=
          ⟨n - (stream.ahead.length + 1), by omega⟩
        rw [past, past']
        simp only [List.length_append, List.length_singleton]
        rw [Nat.add_sub_cancel_left,
          show stream.ahead.length + 1 + more - stream.ahead.length = more + 1 by omega,
          Lexer.item_succ_of_ok stepped]

theorem item_of_getLast {stream : TokenStream} {token : Token}
    (last : stream.ahead.getLast? = some token) :
    stream.item stream.ahead.length = .ok token := by
  obtain ⟨before, shape⟩ := List.getLast?_eq_some_iff.mp last
  rw [shape, List.length_append, List.length_singleton, item, shape]
  simp

theorem seesEnd_iff (stream : TokenStream) :
    stream.seesEnd = true ↔
      ∃ token, stream.ahead.getLast? = some token ∧ token.kind = .endOfInput := by
  unfold seesEnd
  split
  · rename_i token last
    simp [last]
  · rename_i last
    simp [last]

theorem lookFurther_ok (count : Nat) {stream further : TokenStream}
    (looked : lookFurther count stream = .ok further) :
    stream.Same further ∧
      (stream.ahead.length + count ≤ further.ahead.length ∨ further.seesEnd = true) := by
  induction count generalizing stream with
  | zero =>
      cases looked
      exact ⟨fun _ => rfl, .inl (Nat.le_refl _)⟩
  | succ count ih =>
      rw [lookFurther] at looked
      split at looked
      · rename_i ends
        cases looked
        exact ⟨fun _ => rfl, .inr ends⟩
      · split at looked
        · rename_i token rest stepped
          obtain ⟨same, reached⟩ := ih looked
          refine ⟨fun n => (same n).trans (same_of_read stepped n), ?_⟩
          refine reached.imp_left fun long => ?_
          simp only [List.length_append, List.length_singleton] at long
          omega
        · cases looked

theorem lookFurther_error (count : Nat) {stream : TokenStream} {error : SyntaxError}
    (looked : lookFurther count stream = .error error) :
    stream.item (stream.ahead.length + count) = .error error := by
  induction count generalizing stream with
  | zero => cases looked
  | succ count ih =>
      rw [lookFurther] at looked
      split at looked
      · cases looked
      · split at looked
        · rename_i token rest stepped
          have failed := ih looked
          rw [same_of_read stepped] at failed
          simp only [List.length_append, List.length_singleton] at failed
          rwa [Nat.add_assoc, Nat.add_comm 1 count] at failed
        · rename_i rest stepped
          cases looked
          have here : stream.item (stream.ahead.length + 1) = .error error := by
            rw [item, List.getElem?_eq_none_iff.mpr (Nat.le_refl _), Nat.sub_self, Lexer.item,
              stepped]
          exact stream.item_error_of_le here (by omega)

theorem peek_ok_or {stream further : TokenStream} {n : Nat} {token : Token}
    (peeked : stream.peek n = .ok (token, further)) :
    stream.Same further ∧
      (stream.item (n + 1) = .ok token ∨
        token.kind = .endOfInput ∧ ∃ m ≤ n + 1, stream.item m = .ok token) := by
  unfold peek at peeked
  cases looked : lookFurther (n + 1 - stream.ahead.length) stream with
  | error error =>
      rw [looked] at peeked
      cases peeked
  | ok seen =>
      rw [looked] at peeked
      cases peeked
      obtain ⟨same, reached⟩ := lookFurther_ok _ looked
      refine ⟨same, ?_⟩
      by_cases inside : n < further.ahead.length
      · rw [← same]
        exact .inl (by simp [item, List.getElem?_eq_getElem inside])
      · have ends : further.seesEnd = true := reached.resolve_left (by omega)
        obtain ⟨last, found, ended⟩ := (seesEnd_iff further).mp ends
        have past : further.ahead[n]? = none := List.getElem?_eq_none_iff.mpr (by omega)
        rw [past, found]
        exact .inr ⟨ended, _, by omega, (same _).symm.trans (item_of_getLast found)⟩

theorem peek_ok {stream further : TokenStream} {n : Nat} {token : Token} (sound : stream.Sound)
    (peeked : stream.peek n = .ok (token, further)) :
    stream.item (n + 1) = .ok token ∧ stream.Same further := by
  obtain ⟨same, found | ⟨ended, m, le, found⟩⟩ := peek_ok_or peeked
  · exact ⟨found, same⟩
  · exact ⟨sound.item_of_le found ended le, same⟩

theorem peek_error {stream : TokenStream} {n : Nat} {error : SyntaxError}
    (peeked : stream.peek n = .error error) : stream.item (n + 1) = .error error := by
  unfold peek at peeked
  cases looked : lookFurther (n + 1 - stream.ahead.length) stream with
  | ok seen =>
      rw [looked] at peeked
      cases peeked
  | error found =>
      rw [looked] at peeked
      cases peeked
      have failed := lookFurther_error _ looked
      by_cases short : stream.ahead.length ≤ n + 1
      · rwa [Nat.add_sub_cancel' short] at failed
      · have nothing : n + 1 - stream.ahead.length = 0 := by omega
        rw [nothing] at looked
        cases looked

end TokenStream

end Koy
