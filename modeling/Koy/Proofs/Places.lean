import Mathlib.Data.List.DropRight
import Koy.Proofs.Relocation

/-! Places in a source text. A place is true if counting from the start of the text gives it. The lexer
stands at a true place, whatever it has met before, and no token is handed out at a place before that
of an earlier one. -/

namespace Koy

theorem Glyph.flatMap_bytes_decode (bytes : Bytes) :
    (decode bytes).flatMap Glyph.bytes = bytes := by
  induction bytes using decode_induction with
  | nil => rfl
  | char c bytes ih => rw [decode_encodeChar_append, List.flatMap_cons, ih, Glyph.bytes]
  | stray byte bytes none ih =>
      rw [decode_stray byte bytes none, List.flatMap_cons, ih, Glyph.bytes, List.singleton_append]

theorem Glyph.flatMap_bytes_chars (chars : List Char) :
    (chars.map Glyph.char).flatMap Glyph.bytes = Bytes.ofChars chars := by
  rw [List.flatMap_map]
  rfl

theorem Bytes.length_ofChars_pos {chars : List Char} (some : chars ≠ []) :
    0 < (Bytes.ofChars chars).length := by
  obtain ⟨c, rest, rfl⟩ := List.exists_cons_of_ne_nil some
  have positive := c.utf8Size_pos
  rw [Bytes.ofChars_cons, List.length_append, String.length_utf8EncodeChar]
  omega

namespace Position

/-- The place behind a text, by counting: its bytes, its line ends, and its characters after the last
line end. Lines and columns count from one. -/
def behind (text : List Char) : Position where
  offset := (Bytes.ofChars text).length
  line := 1 + text.count '\n'
  column := 1 + (text.rtakeWhile (· ≠ '\n')).length

theorem start_afterAll (text : List Char) : start.afterAll text = behind text := by
  induction text using List.reverseRecOn with
  | nil => rfl
  | append_singleton text c ih =>
      rw [afterAll_append, ih, afterAll_cons, afterAll_nil, after]
      by_cases here : c = '\n'
      · simp [behind, here, Nat.add_assoc]
      · simp [behind, here, Nat.add_assoc]

theorem behind_append (text more : List Char) : behind (text ++ more) = (behind text).afterAll more := by
  rw [← start_afterAll, ← start_afterAll, afterAll_append]

theorem offset_behind_append (text more : List Char) :
    (behind (text ++ more)).offset = (behind text).offset + (Bytes.ofChars more).length := by
  rw [behind_append, afterAll_eq]

/-- The source up to the place is valid text, and the place is the one behind that text. -/
def TrueIn (source : Bytes) (position : Position) : Prop :=
  ∃ text : List Char, Bytes.ofChars text <+: source ∧ position = behind text

end Position

/-- The characters of the token stand in the source at the place of the token. -/
def Token.WrittenIn (source : Bytes) (token : Token) : Prop :=
  ∃ span, Lexeme.Spells span token.kind token.lexeme ∧
    Bytes.ofChars span <+: source.drop token.position.offset

namespace Lexer

variable {source : Bytes} {lexer after : Lexer} {token : Token}
  {result : Except SyntaxError Token}

theorem Within.source_eq (within : Within (Glyph.decode source) lexer) :
    ∃ passed, source = Bytes.ofChars passed ++ lexer.rest.flatMap Glyph.bytes ∧
      lexer.position = Position.behind passed := by
  obtain ⟨passed, shape, place⟩ := within
  refine ⟨passed, ?_, place.trans (Position.start_afterAll passed)⟩
  rw [← Glyph.flatMap_bytes_chars, ← List.flatMap_append, ← shape, Glyph.flatMap_bytes_decode]

theorem Within.trueIn (within : Within (Glyph.decode source) lexer) :
    lexer.position.TrueIn source := by
  obtain ⟨passed, shape, place⟩ := within.source_eq
  exact ⟨passed, ⟨_, shape.symm⟩, place⟩

theorem Within.drop_eq (within : Within (Glyph.decode source) lexer) :
    source.drop lexer.position.offset = lexer.rest.flatMap Glyph.bytes := by
  obtain ⟨passed, shape, place⟩ := within.source_eq
  rw [place, shape]
  exact List.drop_left' rfl

theorem Within.offset_of_nil (within : Within (Glyph.decode source) lexer)
    (nothing : lexer.rest = []) : lexer.position.offset = source.length := by
  obtain ⟨passed, shape, place⟩ := within.source_eq
  rw [nothing, List.flatMap_nil, List.append_nil] at shape
  rw [place, shape]
  rfl

theorem offset_moveOn {α : Type} (lexer : Lexer) (scan : Scan α) :
    (lexer.moveOn scan).position.offset =
      lexer.position.offset + (Bytes.ofChars scan.span).length := by
  rw [moveOn, Position.afterAll_eq]

theorem offset_pastTrivia (lexer : Lexer) :
    lexer.position.offset ≤ lexer.pastTrivia.position.offset := by
  rw [pastTrivia, offset_moveOn]
  exact Nat.le_add_right _ _

theorem offset_pastToken (lexer : Lexer) :
    lexer.pastTrivia.position.offset ≤ lexer.pastToken.position.offset := by
  rw [pastToken, offset_moveOn]
  exact Nat.le_add_right _ _

variable {kind : TokenKind} {lexeme : String}

theorem offset_lt_pastToken (read : (Lexeme.scan lexer.pastTrivia.rest).result = .ok (kind, lexeme))
    (proper : kind ≠ .endOfInput) :
    lexer.pastTrivia.position.offset < lexer.pastToken.position.offset := by
  have spells := Lexeme.spells_of_scan _ kind lexeme read proper
  have positive := Bytes.length_ofChars_pos spells.ne_nil
  rw [pastToken, offset_moveOn]
  omega

theorem writtenIn_of_scan (within : Within (Glyph.decode source) lexer)
    (read : (Lexeme.scan lexer.rest).result = .ok (kind, lexeme)) (proper : kind ≠ .endOfInput) :
    Token.WrittenIn source ⟨kind, lexeme, lexer.position⟩ := by
  refine ⟨_, Lexeme.spells_of_scan _ kind lexeme read proper,
    (Lexeme.scan lexer.rest).rest.flatMap Glyph.bytes, ?_⟩
  change _ = source.drop lexer.position.offset
  rw [within.drop_eq, ← Glyph.flatMap_bytes_chars, ← List.flatMap_append]
  exact congrArg _ (Lexeme.scan_splits lexer.rest).symm

/-- Where the next token starts at the earliest. -/
def horizon (lexer : Lexer) : Nat :=
  match lexer.held with
  | some token => token.position.offset
  | none => lexer.position.offset

theorem horizon_of_free (lexer : Lexer) (free : lexer.held = none) :
    lexer.horizon = lexer.position.offset := by
  rw [horizon, free]

structure Placed (source : Bytes) (lexer : Lexer) : Prop where
  within : Within (Glyph.decode source) lexer
  held (token : Token) : lexer.held = some token → token.WrittenIn source ∧
    token.position.TrueIn source ∧ token.position.offset < lexer.position.offset
  last (token : Token) : lexer.last = some token →
    token.position.TrueIn source ∧ token.position.offset ≤ lexer.horizon
  /-- A token after which a semicolon may be supplied is one of the source. -/
  ending (token : Token) : lexer.statementEnd? = some token → token.WrittenIn source

theorem placed_ofSource (source : Bytes) : Placed source (.ofSource source) where
  within := ⟨[], rfl, rfl⟩
  held := nofun
  last := nofun
  ending := nofun

/-- What a call of the lexer hands out: a token of the source, a semicolon supplied for the token before
it, or the end token. -/
inductive Hands (source : Bytes) (lexer after : Lexer) : Token → Prop where
  | written {token : Token} (written : token.WrittenIn source)
      (not_before : lexer.horizon ≤ token.position.offset)
      (passed : token.position.offset < after.horizon) : Hands source lexer after token
  | supplied (before : Token) (ends : lexer.statementEnd? = some before) :
      Hands source lexer after (semicolonAfter before)
  | ended {token : Token} (kind : token.kind = .endOfInput)
      (place : token.position.offset = source.length)
      (not_before : lexer.horizon ≤ token.position.offset)
      (reached : token.position.offset = after.horizon) : Hands source lexer after token

def placeOf : Except SyntaxError Token → Position
  | .ok token => token.position
  | .error error => error.position

theorem last_of_statementEnd? {before : Token} (ends : lexer.statementEnd? = some before) :
    lexer.last = some before :=
  (Option.filter_eq_some_iff.mp ends).1

theorem eq_of_emit_last (lexer : Lexer) {last : Token}
    (kept : (lexer.emit token).last = some last) : token = last := by
  change (if token.kind = .illegal then none else some token) = some last at kept
  split at kept
  · cases kept
  · exact Option.some.inj kept

theorem placed_emit (within : Within (Glyph.decode source) lexer) (free : lexer.held = none)
    (place : token.position.TrueIn source) (before : token.position.offset ≤ lexer.position.offset)
    (written : token.kind.endsStatement = true → token.WrittenIn source) :
    Placed source (lexer.emit token) where
  within := within
  held other waiting := by
    rw [emit_held, free] at waiting
    cases waiting
  last other last := by
    rw [horizon_of_free _ (emit_held lexer token ▸ free), ← eq_of_emit_last lexer last]
    exact ⟨place, before⟩
  ending other ends := by
    obtain ⟨last, ends⟩ := Option.filter_eq_some_iff.mp ends
    rw [← eq_of_emit_last lexer last] at ends ⊢
    exact written ends

theorem Placed.moved {place : Lexer} (placed : Placed source lexer) (free : lexer.held = none)
    (within : Within (Glyph.decode source) place) (still : place.held = none)
    (same : place.last = lexer.last) (further : lexer.position.offset ≤ place.position.offset) :
    Placed source place where
  within := within
  held token waiting := by
    rw [still] at waiting
    cases waiting
  last token last := by
    obtain ⟨true, before⟩ := placed.last token (same ▸ last)
    rw [horizon_of_free _ free] at before
    rw [horizon_of_free _ still]
    exact ⟨true, before.trans further⟩
  ending token ends := placed.ending token (by rwa [statementEnd?, same] at ends)

theorem report_trueIn (fault : LexicalFault) {start stop : Position} (first : start.TrueIn source)
    (last : stop.TrueIn source) : (report fault start stop).position.TrueIn source := by
  unfold report
  split
  · exact last
  · exact first

theorem Placed.waiting (placed : Placed source lexer) (before : Token)
    (ends : lexer.statementEnd? = some before) (free : lexer.held = none)
    (read : (Lexeme.scan lexer.pastTrivia.rest).result = .ok (kind, lexeme))
    (proper : kind ≠ .endOfInput) :
    Placed source { lexer.pastToken.emit (semicolonAfter before) with
      held := some ⟨kind, lexeme, lexer.pastTrivia.position⟩ } where
  within := placed.within.pastToken
  held token waiting := by
    cases waiting
    exact ⟨writtenIn_of_scan placed.within.pastTrivia read proper, placed.within.pastTrivia.trueIn,
      offset_lt_pastToken read proper⟩
  last token last := by
    obtain ⟨true, early⟩ := placed.last before (last_of_statementEnd? ends)
    rw [horizon_of_free _ free] at early
    cases last
    exact ⟨true, early.trans lexer.offset_pastTrivia⟩
  ending := nofun

theorem Step.last_of_ok {last : Token} (step : Step lexer (.ok token) after)
    (kept : after.last = some last) : token = last := by
  cases step with
  | held | lineEnd | blockEnd | token => exact eq_of_emit_last lexer kept

structure Advances (source : Bytes) (lexer after : Lexer) (result : Except SyntaxError Token) :
    Prop where
  placed : Placed source after
  onward : lexer.horizon ≤ after.horizon
  trueIn : (placeOf result).TrueIn source
  hands (token : Token) : result = .ok token → Hands source lexer after token

namespace Placed

theorem step_held (placed : Placed source lexer) (waiting : lexer.held = some token) :
    Advances source lexer { lexer.emit token with held := none } (.ok token) := by
  obtain ⟨written, true, early⟩ := placed.held token waiting
  have here : lexer.horizon = token.position.offset := by rw [horizon, waiting]
  have released : Within (Glyph.decode source) { lexer with held := none } := placed.within
  refine ⟨placed_emit released rfl true early.le fun _ => written, here.trans_le early.le, true, ?_⟩
  rintro _ ⟨⟩
  exact .written written here.le early

theorem step_faultyTrivia (placed : Placed source lexer) (fault : LexicalFault)
    (free : lexer.held = none) :
    Advances source lexer lexer.pastTrivia
      (.error (report fault lexer.position lexer.pastTrivia.position)) := by
  have within := placed.within
  have onward := lexer.offset_pastTrivia
  refine ⟨placed.moved free within.pastTrivia free rfl onward, ?_, ?_, nofun⟩
  · rwa [horizon_of_free _ free, horizon_of_free lexer.pastTrivia free]
  · exact report_trueIn fault within.trueIn within.pastTrivia.trueIn

theorem step_lineEnd (placed : Placed source lexer) {before : Token} (free : lexer.held = none)
    (ends : lexer.statementEnd? = some before) :
    Advances source lexer (lexer.pastTrivia.emit (semicolonAfter before))
      (.ok (semicolonAfter before)) := by
  have onward := lexer.offset_pastTrivia
  obtain ⟨true, early⟩ := placed.last before (last_of_statementEnd? ends)
  rw [horizon_of_free _ free] at early
  refine ⟨?_, ?_, true, ?_⟩
  · exact placed_emit placed.within.pastTrivia free true (early.trans onward) nofun
  · rwa [horizon_of_free _ free, horizon_of_free (lexer.pastTrivia.emit _) free]
  · rintro _ ⟨⟩
    exact .supplied before ends

theorem step_faultyToken (placed : Placed source lexer) (fault : LexicalFault)
    (free : lexer.held = none) :
    Advances source lexer
      (if fault.isIllegal then
        lexer.pastToken.emit { kind := .illegal, position := lexer.pastTrivia.position }
      else lexer.pastToken)
      (.error (report fault lexer.pastTrivia.position lexer.pastToken.position)) := by
  have within := placed.within
  have true := within.pastTrivia.trueIn
  have further := lexer.offset_pastToken
  have onward := lexer.offset_pastTrivia.trans further
  have later : lexer.horizon ≤ lexer.pastToken.position.offset := by
    rwa [horizon_of_free _ free]
  refine ⟨?_, ?_, report_trueIn fault true within.pastToken.trueIn, nofun⟩
  · split
    · exact placed_emit within.pastToken free true further nofun
    · exact placed.moved free within.pastToken free rfl onward
  · split
    · rwa [horizon_of_free (lexer.pastToken.emit _) free]
    · rwa [horizon_of_free lexer.pastToken free]

theorem step_blockEnd (placed : Placed source lexer) {before : Token} (free : lexer.held = none)
    (ends : lexer.statementEnd? = some before)
    (read : (Lexeme.scan lexer.pastTrivia.rest).result = .ok (kind, lexeme))
    (proper : kind ≠ .endOfInput) :
    Advances source lexer { lexer.pastToken.emit (semicolonAfter before) with
      held := some ⟨kind, lexeme, lexer.pastTrivia.position⟩ } (.ok (semicolonAfter before)) := by
  have onward := lexer.offset_pastTrivia
  obtain ⟨true, early⟩ := placed.last before (last_of_statementEnd? ends)
  refine ⟨placed.waiting before ends free read proper, ?_, true, ?_⟩
  · rwa [horizon_of_free _ free]
  · rintro _ ⟨⟩
    exact .supplied before ends

theorem hands_of_scan (placed : Placed source lexer) (free : lexer.held = none)
    (read : (Lexeme.scan lexer.pastTrivia.rest).result = .ok (kind, lexeme)) :
    let token : Token := ⟨kind, lexeme, lexer.pastTrivia.position⟩
    Hands source lexer (lexer.pastToken.emit token) token := by
  intro token
  have within := placed.within
  have free' : (lexer.pastToken.emit token).held = none := free
  have early : lexer.horizon ≤ lexer.pastTrivia.position.offset := by
    rw [horizon_of_free _ free]
    exact lexer.offset_pastTrivia
  by_cases proper : kind = .endOfInput
  · subst proper
    have nothing := Lexeme.eq_nil_of_scan_endOfInput _ _ read
    have place := within.pastTrivia.offset_of_nil nothing
    have place' := within.pastToken.offset_of_nil (by rw [pastToken_rest, nothing]; rfl)
    refine .ended rfl place early ?_
    rw [horizon_of_free _ free']
    exact place.trans place'.symm
  · refine .written (writtenIn_of_scan within.pastTrivia read proper) early ?_
    rw [horizon_of_free _ free']
    exact offset_lt_pastToken read proper

theorem step_token (placed : Placed source lexer) (free : lexer.held = none)
    (read : (Lexeme.scan lexer.pastTrivia.rest).result = .ok (kind, lexeme)) :
    let token : Token := ⟨kind, lexeme, lexer.pastTrivia.position⟩
    Advances source lexer (lexer.pastToken.emit token) (.ok token) := by
  intro token
  have within := placed.within
  have true := within.pastTrivia.trueIn
  have further := lexer.offset_pastToken
  refine ⟨?_, ?_, true, ?_⟩
  · apply placed_emit within.pastToken free true further
    intro ends
    apply writtenIn_of_scan within.pastTrivia read
    rintro rfl
    cases ends
  · have free' : (lexer.pastToken.emit token).held = none := free
    rw [horizon_of_free _ free, horizon_of_free _ free']
    exact lexer.offset_pastTrivia.trans further
  · rintro _ ⟨⟩
    exact placed.hands_of_scan free read

theorem step (placed : Placed source lexer) (step : Step lexer result after) :
    Advances source lexer after result := by
  cases step with
  | held token waiting => exact placed.step_held waiting
  | faultyTrivia fault free failed => exact placed.step_faultyTrivia fault free
  | lineEnd newline before free passed due =>
      exact placed.step_lineEnd free (Option.filter_eq_some_iff.mp due).1
  | faultyToken newline fault free passed quiet failed => exact placed.step_faultyToken fault free
  | blockEnd newline kind lexeme before free passed quiet read due =>
      obtain ⟨ends, closing⟩ := Option.filter_eq_some_iff.mp due
      have closes : kind = .closeBrace := (of_decide_eq_true closing).1
      exact placed.step_blockEnd free ends read (closes ▸ by decide)
  | token newline kind lexeme free passed quiet read plain => exact placed.step_token free read

end Placed

end Lexer

theorem Lexeme.Spells.head?_eq_semicolon_iff {span : List Char} {kind : TokenKind} {lexeme : String}
    (spells : Spells span kind lexeme) : span.head? = some ';' ↔ kind = .semicolon := by
  cases spells with
  | @name c more starts continues =>
      have other : (TokenKind.keyword? (String.ofList (c :: more))).getD .identifier ≠ .semicolon := by
        unfold TokenKind.keyword?
        split <;> decide
      have head : c ≠ ';' := by
        rintro rfl
        exact absurd starts (by decide)
      exact iff_of_false (fun first => head (Option.some.inj first)) other
  | @number c more unnamed digit digits =>
      have head : c ≠ ';' := by
        rintro rfl
        exact absurd digit (by decide)
      simp [head]
  | text => simp
  | sign listed =>
      have each : ∀ kind ∈ signs, kind.name.toList.head? = some ';' ↔ kind = .semicolon := by decide
      exact each _ listed

theorem Lexeme.Spells.ne_endOfInput {span : List Char} {kind : TokenKind} {lexeme : String}
    (spells : Spells span kind lexeme) : kind ≠ .endOfInput := by
  cases spells with
  | name => exact keyword_ne_endOfInput _
  | number | text => decide
  | sign listed =>
      rintro rfl
      exact absurd listed (by decide)

theorem Glyph.firstChar?_decode {span : List Char} {bytes : Bytes} (some : span ≠ [])
    (led : Bytes.ofChars span <+: bytes) : firstChar? (decode bytes) = span.head? := by
  obtain ⟨more, rfl⟩ := led
  obtain ⟨c, rest, rfl⟩ := List.exists_cons_of_ne_nil some
  rw [decode_ofChars_append]
  rfl

theorem Token.WrittenIn.kind_eq_semicolon {source : Bytes} {first second : Token}
    (written : first.WrittenIn source) (written' : second.WrittenIn source)
    (same : first.position.offset = second.position.offset) (semicolon : second.kind = .semicolon) :
    first.kind = .semicolon := by
  obtain ⟨span, spells, led⟩ := written
  obtain ⟨span', spells', led'⟩ := written'
  rw [← spells.head?_eq_semicolon_iff, ← Glyph.firstChar?_decode spells.ne_nil led, same,
    Glyph.firstChar?_decode spells'.ne_nil led', spells'.head?_eq_semicolon_iff]
  exact semicolon

/-- The character that is refused, where a fault is about one that starts no token. -/
def LexicalFault.refused? : LexicalFault → Option Char
  | .unexpected c => some c
  | .loneHash => some '#'
  | _ => none

theorem LexicalFault.isIllegal_eq (fault : LexicalFault) :
    fault.isIllegal = fault.refused?.isSome := by
  cases fault <;> rfl

namespace Lexeme

variable {fault : LexicalFault}

theorem refused?_of_text {content : List Glyph} (failed : (text content).result = .error fault) :
    fault.refused? = none := by
  fun_induction text content generalizing fault with
  | case1 | case2 | case4 | case5 | case7 =>
      cases failed
      rfl
  | case3 => cases failed
  | case6 _ rest ih | case8 _ rest _ _ _ _ _ ih =>
      cases result : (text rest).result with
      | ok content => simp [Scan.map, result, Except.map] at failed
      | error found =>
          simp only [Scan.behind_result, Scan.map, result, Except.map] at failed
          cases failed
          exact ih result

theorem refused?_of_number {first : Char} {following : List Glyph}
    (failed : (number first following).result = .error fault) : fault.refused? = none := by
  unfold number at failed
  dsimp only at failed
  split at failed
  · split at failed
    · cases failed
      rfl
    · cases failed
  · cases failed

theorem refused?_of_sign {first : Char} {second : Option Char}
    (failed : sign first second = .error fault) : fault.refused? = some first := by
  unfold sign at failed
  split at failed <;> cases failed <;> rfl

theorem refused?_of_symbol {first : Char} {following : List Glyph}
    (failed : (symbol first following).result = .error fault) : fault.refused? = some first := by
  unfold symbol at failed
  split at failed
  · cases failed
  · cases failed
  · rename_i found
    cases failed
    exact refused?_of_sign found

theorem firstChar?_of_refused {content : List Glyph} {c : Char}
    (failed : (scan content).result = .error fault) (refused : fault.refused? = some c) :
    Glyph.firstChar? content = some c := by
  cases content with
  | nil => cases failed
  | cons glyph rest =>
      cases glyph with
      | stray byte =>
          cases failed
          cases refused
      | char first =>
          rw [scan] at failed
          split at failed
          · cases failed
          · split at failed
            · rw [refused?_of_number failed] at refused
              cases refused
            · split at failed
              · cases result : (text rest).result with
                | ok content => simp [Scan.map, result, Except.map] at failed
                | error found =>
                    simp only [Scan.behind_result, Scan.map, result, Except.map] at failed
                    cases failed
                    rw [refused?_of_text result] at refused
                    cases refused
              · exact (refused?_of_symbol failed).symm.trans refused

end Lexeme

theorem Trivia.refused?_of_scanFrom {mode : Mode} {newline : Bool} {text : List Glyph}
    {fault : LexicalFault} (failed : (scanFrom mode newline text).result = .error fault) :
    fault.refused? = none := by
  fun_induction scanFrom mode newline text with
  | case1 | case2 | case8 => cases failed
  | case3 | case4 =>
      cases failed
      rfl
  | case5 _ _ ih | case6 _ _ ih | case7 _ _ _ _ _ _ ih | case9 _ _ ih | case10 _ _ _ _ ih
  | case11 _ _ ih | case12 _ _ _ _ ih => exact ih failed

namespace Lexer

theorem Step.refused {source : Bytes} {lexer after : Lexer} {error : SyntaxError}
    {fault : LexicalFault} {c : Char} (step : Step lexer (.error error) after)
    (within : Within (Glyph.decode source) lexer) (cause : error.cause = .lexical fault)
    (refused : fault.refused? = some c) :
    Bytes.ofChars [c] <+: source.drop error.position.offset := by
  cases step with
  | faultyTrivia found free failed =>
      cases cause
      rw [Trivia.refused?_of_scanFrom failed] at refused
      cases refused
  | faultyToken newline found free passed quiet failed =>
      cases cause
      have first := Lexeme.firstChar?_of_refused failed refused
      obtain ⟨rest, here⟩ := Lexeme.eq_cons_of_firstChar? first
      have atStart : fault.atStop = false := by
        cases fault with
        | strayByte | openComment => cases refused
        | _ => rfl
      have place : (report fault lexer.pastTrivia.position lexer.pastToken.position).position =
          lexer.pastTrivia.position := by
        rw [report, atStart]
        rfl
      rw [place, within.pastTrivia.drop_eq, here, List.flatMap_cons]
      exact ⟨_, congrArg (· ++ _) (List.append_nil _)⟩

/-- A fault leaves the last token, unless a character is refused. -/
theorem Step.last_of_error {lexer after : Lexer} {last : Token} {error : SyntaxError}
    (step : Step lexer (.error error) after) (kept : after.last = some last) :
    lexer.last = some last ∧ ∃ fault, error.cause = .lexical fault ∧ fault.isIllegal = false := by
  cases step with
  | faultyTrivia fault free failed =>
      have kind : fault.isIllegal = false := by
        rw [fault.isIllegal_eq, Trivia.refused?_of_scanFrom failed]
        rfl
      exact ⟨kept, fault, rfl, kind⟩
  | faultyToken newline fault free passed quiet failed =>
      split at kept
      · cases kept
      · rename_i kind
        exact ⟨kept, fault, rfl, Bool.eq_false_iff.mpr kind⟩

/-- The lexer of a source text after so many calls, each of which has handed out a token or reported a
fault. -/
def afterCalls (source : Bytes) : Nat → Lexer
  | 0 => .ofSource source
  | n + 1 => (afterCalls source n).next.2

def call (source : Bytes) (n : Nat) : Except SyntaxError Token :=
  (afterCalls source n).next.1

/-- The token is the one that call `m` hands out, and between that call and call `n` the lexer hands out
nothing, an illegal token neither. -/
structure Latest (source : Bytes) (m n : Nat) (token : Token) : Prop where
  before : m < n
  handed : call source m = .ok token
  since (k : Nat) : m < k → k < n → ∃ error, call source k = .error error ∧
    ∃ fault, error.cause = .lexical fault ∧ fault.isIllegal = false

section Calls

variable (source : Bytes) {token : Token}

theorem step_call (n : Nat) :
    Step (afterCalls source n) (call source n) (afterCalls source (n + 1)) :=
  next_step _

theorem placed_afterCalls (n : Nat) : Placed source (afterCalls source n) := by
  induction n with
  | zero => exact placed_ofSource source
  | succ n ih => exact (ih.step (step_call source n)).placed

theorem advances_call (n : Nat) :
    Advances source (afterCalls source n) (afterCalls source (n + 1)) (call source n) :=
  (placed_afterCalls source n).step (step_call source n)

theorem horizon_mono {n m : Nat} (le : n ≤ m) :
    (afterCalls source n).horizon ≤ (afterCalls source m).horizon := by
  induction le with
  | refl => exact Nat.le_refl _
  | @step m _ ih => exact ih.trans (advances_call source m).onward

theorem hands_call {n : Nat} (handed : call source n = .ok token) :
    Hands source (afterCalls source n) (afterCalls source (n + 1)) token :=
  (advances_call source n).hands token handed

theorem latest_of_last {n : Nat} (last : (afterCalls source n).last = some token) :
    ∃ m, Latest source m n token := by
  induction n with
  | zero => cases last
  | succ n ih =>
      have step := step_call source n
      cases result : call source n with
      | ok handed =>
          rw [result] at step
          have same := step.last_of_ok last
          exact ⟨n, n.lt_succ_self, same ▸ result, fun k lower upper => by omega⟩
      | error error =>
          rw [result] at step
          obtain ⟨earlier, faulty⟩ := step.last_of_error last
          obtain ⟨m, latest⟩ := ih earlier
          refine ⟨m, latest.before.trans n.lt_succ_self, latest.handed, fun k lower upper => ?_⟩
          rcases Nat.lt_succ_iff_lt_or_eq.mp upper with less | rfl
          · exact latest.since k lower less
          · exact ⟨error, result, faulty⟩

theorem offset_le_horizon {n : Nat} (handed : call source n = .ok token) :
    token.position.offset ≤ (afterCalls source (n + 1)).horizon := by
  cases hands_call source handed with
  | written _ _ passed => exact passed.le
  | supplied before ends =>
      have early := ((placed_afterCalls source n).last before (last_of_statementEnd? ends)).2
      exact early.trans (horizon_mono source n.le_succ)
  | ended _ _ _ reached => exact reached.le

theorem offset_le_of_lt {i j : Nat} {first second : Token} (order : i < j)
    (handed : call source i = .ok first) (handed' : call source j = .ok second) :
    first.position.offset ≤ second.position.offset := by
  induction j using Nat.strongRecOn generalizing second with
  | _ j ih =>
      have passed := (offset_le_horizon source handed).trans (horizon_mono source order)
      cases hands_call source handed' with
      | written _ not_before _ => exact passed.trans not_before
      | ended _ _ not_before _ => exact passed.trans not_before
      | supplied before ends =>
          -- the semicolon stands where the token before it does, and that token came no earlier
          obtain ⟨m, latest⟩ := latest_of_last source (last_of_statementEnd? ends)
          change first.position.offset ≤ before.position.offset
          rcases lt_trichotomy i m with less | rfl | greater
          · exact ih m latest.before less latest.handed
          · rw [Except.ok.inj (handed.symm.trans latest.handed)]
          · obtain ⟨error, failed, -⟩ := latest.since i greater order
            cases handed.symm.trans failed

theorem horizon_of_writtenIn {n : Nat} (handed : call source n = .ok token)
    (written : token.WrittenIn source) :
    (afterCalls source n).horizon ≤ token.position.offset ∧
      token.position.offset < (afterCalls source (n + 1)).horizon := by
  cases hands_call source handed with
  | written _ not_before passed => exact ⟨not_before, passed⟩
  | supplied before ends =>
      have original := (placed_afterCalls source n).ending before ends
      have semicolon := original.kind_eq_semicolon written rfl rfl
      have ending := (Option.filter_eq_some_iff.mp ends).2
      rw [semicolon] at ending
      cases ending
  | ended kind _ _ _ =>
      obtain ⟨span, spells, -⟩ := written
      exact absurd kind spells.ne_endOfInput

theorem offset_lt_of_lt {i j : Nat} {first second : Token} (order : i < j)
    (handed : call source i = .ok first) (handed' : call source j = .ok second)
    (written : first.WrittenIn source) (written' : second.WrittenIn source) :
    first.position.offset < second.position.offset :=
  calc first.position.offset
      < (afterCalls source (i + 1)).horizon := (horizon_of_writtenIn source handed written).2
    _ ≤ (afterCalls source j).horizon := horizon_mono source order
    _ ≤ second.position.offset := (horizon_of_writtenIn source handed' written').1

end Calls

end Lexer

end Koy
