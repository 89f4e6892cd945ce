import Koy.Proofs.Decimal
import Koy.Proofs.TokenSequence
import Koy.Proofs.Words

/-! From text to words, one token at a time. What the lexer makes of a piece of text depends only on
whether a statement may end before it, on the open brackets, and on the character after it. -/

namespace Koy

namespace Lexer

/-- The lexer is before a text. A statement may end here if `pending`, and `opened` are the open
brackets. -/
structure Before (lexer : Lexer) (text : List Char) (pending : Bool) (opened : List TokenKind) :
    Prop where
  free : lexer.held = none
  rest : lexer.rest = text.map .char
  pending : lexer.statementEnd?.isSome = pending
  opened : lexer.opened = opened

inductive Yields : Lexer → List Word → Lexer → Prop where
  | nil (lexer : Lexer) : Yields lexer [] lexer
  | cons {lexer middle after : Lexer} {token : Token} {words : List Word}
      (first : lexer.next = (.ok token, middle)) (rest : Yields middle words after) :
      Yields lexer (token.word :: words) after

theorem Yields.append {first middle last : Lexer} {words more : List Word}
    (yields : Yields first words middle) (next : Yields middle more last) :
    Yields first (words ++ more) last := by
  induction yields with
  | nil => exact next
  | cons stepped _ ih => exact .cons stepped (ih next)

theorem Yields.single {lexer after : Lexer} {token : Token} {word : Word}
    (stepped : lexer.next = (.ok token, after)) (spells : token.word = word) :
    Yields lexer [word] after :=
  spells ▸ .cons stepped (.nil after)

theorem Yields.item {lexer after : Lexer} {words : List Word} (yields : Yields lexer words after)
    (n : Nat) :
    (∃ token, n < words.length ∧ lexer.item n = .ok token ∧ some token.word = words[n]?) ∨
      (words.length ≤ n ∧ lexer.item n = after.item (n - words.length)) := by
  induction yields generalizing n with
  | nil => exact .inr ⟨Nat.zero_le n, rfl⟩
  | @cons lexer middle after token words stepped _ ih =>
      cases n with
      | zero => exact .inl ⟨token, Nat.succ_pos _, congrArg Prod.fst stepped, rfl⟩
      | succ n =>
          rw [item_succ_of_ok stepped, List.length_cons, List.getElem?_cons_succ]
          rcases ih n with ⟨found, inside, here, spelled⟩ | ⟨beyond, here⟩
          · exact .inl ⟨found, Nat.succ_lt_succ inside, here, spelled⟩
          · exact .inr ⟨Nat.succ_le_succ beyond, by rw [here, Nat.succ_sub_succ]⟩

end Lexer

structure TokenStream.Spells (stream : TokenStream) (words : List Word) : Prop where
  sound : stream.Sound
  word (n : Nat) : ∃ token, stream.item n = .ok token ∧
    token.word = words[n]?.getD (.sign .endOfInput)

theorem Lexer.Yields.word {lexer after : Lexer} {words : List Word} {token : Token}
    (yields : lexer.Yields words after) (sound : after.Sound) (ends : after.item 0 = .ok token)
    (spelled : token.word = .sign .endOfInput) (n : Nat) :
    ∃ found, lexer.item n = .ok found ∧ found.word = words[n]?.getD (.sign .endOfInput) := by
  have always (n : Nat) : after.item n = .ok token := by
    induction n with
    | zero => exact ends
    | succ n ih => exact after.item_end_succ sound n token ih (congrArg Prod.fst spelled)
  rcases yields.item n with ⟨found, _, here, spelled'⟩ | ⟨beyond, here⟩
  · exact ⟨found, here, by rw [← spelled']; rfl⟩
  · refine ⟨token, by rw [here, always], ?_⟩
    rw [List.getElem?_eq_none beyond]
    exact spelled

theorem Lexer.Yields.spells {lexer after : Lexer} {words : List Word} {token : Token}
    (yields : lexer.Yields words after) (sound : lexer.Sound) (sound' : after.Sound)
    (ends : after.item 0 = .ok token) (spelled : token.word = .sign .endOfInput) :
    ∃ stream, TokenStream.ofLexer lexer = .ok stream ∧ stream.Spells words := by
  have each := yields.word sound' ends spelled
  cases started : TokenStream.ofLexer lexer with
  | error error =>
      obtain ⟨found, here, _⟩ := each 0
      rw [TokenStream.ofLexer_error.mp started] at here
      cases here
  | ok stream =>
      have same := TokenStream.ofLexer_ok started
      refine ⟨stream, rfl, fun n found here ended => ?_, fun n => ?_⟩
      · rw [same] at here ⊢
        exact lexer.item_end_succ sound n found here ended
      · rw [same]
        exact each n

theorem Lexer.Before.item_end {lexer : Lexer} {opened : List TokenKind}
    (before : lexer.Before [] false opened) :
    ∃ token, lexer.item 0 = .ok token ∧ token.word = .sign .endOfInput := by
  have empty : lexer.rest = [] := before.rest
  have passed : (Trivia.scan lexer.rest).result = .ok false := by
    rw [empty]
    rfl
  have quiet : lexer.semicolonDue false = none := by
    apply lexer.semicolonDue_of_statementEnd?
    exact Option.not_isSome_iff_eq_none.mp (by rw [before.pending]; exact Bool.false_ne_true)
  have ends := lexer.next_at_end before.free false passed
    (by rw [lexer.pastTrivia_of_nil empty, empty]) quiet
  exact ⟨_, congrArg Prod.fst ends, rfl⟩

theorem Trivia.scanFrom_solid (newline : Bool) (c : Char) (more : List Char)
    (solid : Text.isBlank c = false)
    (plain : c = '/' → more.head? ≠ some '/' ∧ more.head? ≠ some '*') :
    scanFrom .plain newline ((c :: more).map .char) = ⟨.ok newline, [], (c :: more).map .char⟩ := by
  rw [List.map_cons, scanFrom, if_neg (by simp [solid])]
  · intro rest shape here
    cases more with
    | nil => cases shape
    | cons d more =>
        cases shape
        exact (plain here).1 rfl
  · intro rest shape here
    cases more with
    | nil => cases shape
    | cons d more =>
        cases shape
        exact (plain here).2 rfl

theorem Trivia.scan_solid (c : Char) (more : List Char) (solid : Text.isBlank c = false)
    (plain : c = '/' → more.head? ≠ some '/' ∧ more.head? ≠ some '*') :
    scan ((c :: more).map .char) = ⟨.ok false, [], (c :: more).map .char⟩ :=
  scanFrom_solid false c more solid plain

namespace Lexer

variable {lexer : Lexer} {text rest : List Char} {pending : Bool} {opened : List TokenKind}
  {kind : TokenKind} {lexeme : String}

theorem pastTrivia_of_solid (lexer : Lexer)
    (solid : Trivia.scan lexer.rest = ⟨.ok false, [], lexer.rest⟩) : lexer.pastTrivia = lexer := by
  rw [pastTrivia, solid]
  rfl

theorem Before.next_eq_readToken (before : lexer.Before text pending opened)
    (solid : Trivia.scan (text.map .char) = ⟨.ok false, [], text.map .char⟩) (present : text ≠ []) :
    lexer.next = lexer.readToken := by
  have passed : (Trivia.scan lexer.rest).result = .ok false := by
    rw [before.rest, solid]
  have quiet : lexer.semicolonDue false = none := by
    rw [semicolonDue, before.rest, solid, Option.filter_eq_none_iff]
    intro token _ due
    simp [present] at due
  have stayed : lexer.pastTrivia = lexer := by
    apply pastTrivia_of_solid
    rw [before.rest, solid]
  rw [next_eq lexer before.free false passed, quiet, stayed]

theorem emit_pending (lexer : Lexer) (token : Token) (legal : token.kind ≠ .illegal) :
    (lexer.emit token).statementEnd?.isSome = token.kind.endsStatement := by
  rw [statementEnd?, emit, if_neg legal]
  cases ends : token.kind.endsStatement with
  | false => simp [Option.filter, ends]
  | true => simp [Option.filter, ends]

/-- A token that is written is handed out as it is, but for a brace that closes a block right after
a statement. -/
theorem Before.next_token (before : lexer.Before (text ++ rest) pending opened)
    (solid : Trivia.scan ((text ++ rest).map .char) = ⟨.ok false, [], (text ++ rest).map .char⟩)
    (present : text ≠ [])
    (read : Lexeme.scan ((text ++ rest).map .char) = ⟨.ok (kind, lexeme), text, rest.map .char⟩)
    (legal : kind ≠ .illegal)
    (plain : kind = .closeBrace → pending = false ∨ opened.head? ≠ some .openBrace) :
    ∃ after, lexer.Yields [(kind, lexeme)] after ∧
      after.Before rest kind.endsStatement (bracketsAfter opened kind) := by
  let token : Token := { kind, lexeme, position := lexer.position }
  let moved := lexer.moveOn (Lexeme.scan lexer.rest)
  have whole : text ++ rest ≠ [] := by simp [present]
  have kept : moved.blockEndDue kind = none := by
    rw [blockEndDue, Option.filter_eq_none_iff]
    intro last ending closing
    obtain ⟨closes, opens⟩ := of_decide_eq_true closing
    have opens' : opened.head? = some .openBrace := by
      rw [← before.opened]
      exact opens
    have pending' : pending = true := by
      have ending' : lexer.statementEnd? = some last := ending
      rw [← before.pending, ending']
      rfl
    rcases plain closes with quiet | other
    · rw [pending'] at quiet
      cases quiet
    · exact other opens'
  have stepped : lexer.next = (.ok token, moved.emit token) := by
    rw [before.next_eq_readToken solid whole]
    simp only [readToken, deliver_eq]
    rw [before.rest, read]
    dsimp only
    rw [← read, ← before.rest, kept]
  refine ⟨moved.emit token, .single stepped rfl, before.free, ?_, ?_, ?_⟩
  · change (Lexeme.scan lexer.rest).rest = _
    rw [before.rest, read]
  · exact emit_pending moved token legal
  · change bracketsAfter lexer.opened kind = _
    rw [before.opened]

theorem Before.next_blockEnd (before : lexer.Before ('\x7d' :: rest) true (.openBrace :: opened)) :
    ∃ after, lexer.Yields [.sign .semicolon, .sign .closeBrace] after ∧
      after.Before rest true opened := by
  have solid := Trivia.scan_solid '\x7d' rest rfl (by simp)
  have read : Lexeme.scan (('\x7d' :: rest).map .char) =
    ⟨.ok (.closeBrace, ""), ['\x7d'], rest.map .char⟩ := rfl
  obtain ⟨last, ending⟩ := Option.isSome_iff_exists.mp before.pending
  let brace : Token := { kind := .closeBrace, position := lexer.position }
  let moved := lexer.moveOn (Lexeme.scan lexer.rest)
  let supplied := semicolonAfter last
  let waiting : Lexer := { moved.emit supplied with held := some brace }
  have due : moved.blockEndDue .closeBrace = some last := by
    have opens : lexer.opened.head? = some .openBrace := by
      rw [before.opened]
      rfl
    have ending' : moved.statementEnd? = some last := ending
    have opens' : moved.opened.head? = some .openBrace := opens
    rw [blockEndDue, ending']
    simp [Option.filter, opens']
  have first : lexer.next = (.ok supplied, waiting) := by
    rw [before.next_eq_readToken solid (by simp)]
    simp only [readToken, deliver_eq]
    rw [before.rest, read]
    dsimp only
    rw [← read, ← before.rest, due]
  have second : waiting.next = (.ok brace, { waiting.emit brace with held := none }) := rfl
  refine ⟨{ waiting.emit brace with held := none }, .cons first (.cons second (.nil _)), rfl, ?_, rfl,
    ?_⟩
  · change (Lexeme.scan lexer.rest).rest = _
    rw [before.rest, read]
  · change lexer.opened.tail = _
    rw [before.opened]
    rfl

theorem Before.space (before : lexer.Before (' ' :: text) pending opened) :
    ∃ moved : Lexer, moved.Before text pending opened ∧ ∀ token after,
      moved.next = (.ok token, after) → lexer.next = (.ok token, after) := by
  let moved : Lexer := { lexer with rest := text.map .char, position := lexer.position.after ' ' }
  refine ⟨moved, ⟨before.free, rfl, before.pending, before.opened⟩, fun token after stepped => ?_⟩
  have free : moved.held = none := before.free
  have passed : Trivia.scan lexer.rest = (Trivia.scan moved.rest).behind [' '] := by
    rw [before.rest]
    rfl
  cases result : (Trivia.scan moved.rest).result with
  | error fault =>
      simp only [next, free, result] at stepped
      cases stepped
  | ok newline =>
      have past : lexer.pastTrivia = moved.pastTrivia := by
        rw [pastTrivia, passed]
        rfl
      have due : lexer.semicolonDue newline = moved.semicolonDue newline := by
        rw [semicolonDue, passed]
        rfl
      rw [next_eq moved free newline result] at stepped
      rw [next_eq lexer before.free newline (by rw [passed]; exact result), past, due]
      exact stepped

theorem Before.next_lineEnd (before : lexer.Before ('\n' :: text) true [])
    (solid : Trivia.scanFrom .plain true (text.map .char) = ⟨.ok true, [], text.map .char⟩) :
    ∃ after, lexer.Yields [.sign .semicolon] after ∧ after.Before text false [] := by
  obtain ⟨last, ending⟩ := Option.isSome_iff_exists.mp before.pending
  have scanned : Trivia.scan lexer.rest = ⟨.ok true, ['\n'], text.map .char⟩ := by
    rw [before.rest]
    change (Trivia.scanFrom .plain true (text.map .char)).behind ['\n'] = _
    rw [solid]
    rfl
  have due : lexer.semicolonDue true = some last := by
    rw [semicolonDue, ending, linesCount, before.opened]
    rfl
  have stepped : lexer.next =
      (.ok (semicolonAfter last), lexer.pastTrivia.emit (semicolonAfter last)) := by
    rw [next_eq lexer before.free true (by rw [scanned]), due]
  refine ⟨_, .single stepped rfl, before.free, ?_, rfl, ?_⟩
  · rw [emit_rest, pastTrivia_rest, scanned]
  · exact before.opened

theorem Before.next_inputEnd (before : lexer.Before [] true []) :
    ∃ after, lexer.Yields [.sign .semicolon] after ∧ after.Before [] false [] := by
  obtain ⟨last, ending⟩ := Option.isSome_iff_exists.mp before.pending
  have scanned : Trivia.scan lexer.rest = ⟨.ok false, [], []⟩ := by
    rw [before.rest]
    rfl
  have due : lexer.semicolonDue false = some last := by
    rw [semicolonDue, ending, linesCount, before.opened, scanned]
    rfl
  have stepped : lexer.next =
      (.ok (semicolonAfter last), lexer.pastTrivia.emit (semicolonAfter last)) := by
    rw [next_eq lexer before.free false (by rw [scanned]), due]
  refine ⟨_, .single stepped rfl, before.free, ?_, rfl, ?_⟩
  · rw [emit_rest, pastTrivia_rest, scanned]
    rfl
  · exact before.opened

end Lexer

/-- What the lexer keeps in mind between tokens: whether a statement may end, and the open
brackets. -/
abbrev Mood := Bool × List TokenKind

/-- In one mood the lexer reads a text as the given words and comes into another, whatever comes
after the text, provided that `follow` admits it. -/
def Lexes (text : List Char) (words : List Word) (mood mood' : Mood)
    (follow : List Char → Prop) : Prop :=
  ∀ (lexer : Lexer) (rest : List Char), follow rest → lexer.Before (text ++ rest) mood.1 mood.2 →
    ∃ after, lexer.Yields words after ∧ after.Before rest mood'.1 mood'.2

namespace Lexes

variable {text text' : List Char} {words words' : List Word} {mood mood' mood'' : Mood}
  {follow follow' : List Char → Prop}

theorem append (first : Lexes text words mood mood' follow)
    (second : Lexes text' words' mood' mood'' follow')
    (meets : ∀ rest, follow' rest → follow (text' ++ rest)) :
    Lexes (text ++ text') (words ++ words') mood mood'' follow' := by
  intro lexer rest admitted before
  rw [List.append_assoc] at before
  obtain ⟨middle, yields, before'⟩ := first lexer (text' ++ rest) (meets rest admitted) before
  obtain ⟨after, yields', before''⟩ := second middle rest admitted before'
  exact ⟨after, yields.append yields', before''⟩

theorem space (lexes : Lexes text words mood mood' follow) (present : words ≠ []) :
    Lexes (' ' :: text) words mood mood' follow := by
  intro lexer rest admitted before
  obtain ⟨moved, before', same⟩ := Lexer.Before.space before
  obtain ⟨after, yields, reached⟩ := lexes moved rest admitted before'
  refine ⟨after, ?_, reached⟩
  cases yields with
  | nil => exact absurd rfl present
  | cons stepped more => exact .cons (same _ _ stepped) more

theorem weaken (lexes : Lexes text words mood mood' follow)
    (stronger : ∀ rest, follow' rest → follow rest) : Lexes text words mood mood' follow' :=
  fun lexer rest admitted before => lexes lexer rest (stronger rest admitted) before

end Lexes

def Anything : List Char → Prop := fun _ => True

/-- The next character, if any, does not belong to a name or a number. -/
def Apart (rest : List Char) : Prop :=
  ∀ c, rest.head? = some c → Lexeme.continuesName c = false ∧ c ≠ '.'

theorem apart_nil : Apart [] := nofun

theorem apart_cons {c : Char} (rest : List Char) (other : Lexeme.continuesName c = false)
    (dot : c ≠ '.') : Apart (c :: rest) := by
  rintro d ⟨⟩
  exact ⟨other, dot⟩

/-! Names, numbers and texts. -/

def blankCodes : List Nat :=
  [0x09, 0x0A, 0x0B, 0x0C, 0x0D, 0x20, 0x85, 0xA0, 0x1680, 0x2000, 0x2001, 0x2002, 0x2003, 0x2004,
   0x2005, 0x2006, 0x2007, 0x2008, 0x2009, 0x200A, 0x2028, 0x2029, 0x202F, 0x205F, 0x3000]

theorem mem_blankCodes (c : Char) (blank : Text.isBlank c = true) : c.toNat ∈ blankCodes := by
  unfold Text.isBlank at blank
  dsimp only at blank
  simp only [blankCodes, List.mem_cons, List.not_mem_nil, or_false]
  split at blank
  · simp only [Bool.or_eq_true, beq_iff_eq, Bool.and_eq_true, decide_eq_true_eq] at blank
    omega
  · simp only [Bool.or_eq_true, beq_iff_eq, Bool.and_eq_true, decide_eq_true_eq] at blank
    omega

theorem isBlank_of_continuesName (c : Char) (named : Lexeme.continuesName c = true) :
    Text.isBlank c = false := by
  have none_named : ∀ code ∈ blankCodes, Lexeme.continuesName (Char.ofNat code) = false := by
    decide +kernel
  cases blank : Text.isBlank c with
  | false => rfl
  | true =>
      have apart := none_named _ (mem_blankCodes c blank)
      rw [Char.ofNat_toNat, named] at apart
      cases apart

theorem Lexeme.continuesName_of_startsName (c : Char) (starts : startsName c = true) :
    continuesName c = true := by
  rw [continuesName, starts]
  rfl

theorem continuesName_slash : Lexeme.continuesName '/' = false := by decide

theorem Lexes.name (spelling : String) (kind : TokenKind) (named : Lexeme.isName spelling = true)
    (is : (TokenKind.keyword? spelling).getD .identifier = kind) (mood : Mood) :
    Lexes spelling.toList [(kind, spelling)] mood (kind.endsStatement, mood.2) Apart := by
  intro lexer rest apart before
  unfold Lexeme.isName at named
  cases parts : spelling.toList with
  | nil => simp [parts] at named
  | cons first more =>
      simp only [parts, Bool.and_eq_true] at named
      obtain ⟨starts, goes⟩ := named
      have whole : String.ofList (first :: more) = spelling := by
        rw [← parts, String.ofList_toList]
      rw [parts] at before
      have letter := Lexeme.continuesName_of_startsName first starts
      have solid := Trivia.scan_solid first (more ++ rest) (isBlank_of_continuesName first letter)
        fun slash => absurd letter (by rw [slash, continuesName_slash]; exact Bool.false_ne_true)
      have ran := Lexeme.run_all Lexeme.continuesName more rest goes fun c next => (apart c next).1
      have read : Lexeme.scan ((first :: more ++ rest).map .char) =
          ⟨.ok (kind, spelling), first :: more, rest.map .char⟩ := by
        rw [List.cons_append, List.map_cons, Lexeme.scan, if_pos starts, Lexeme.name, ran]
        dsimp only
        rw [whole, is]
      have kinds :
          kind.opens = false ∧ kind.closes = false ∧ kind ≠ .illegal ∧ kind ≠ .closeBrace := by
        rw [← is]
        unfold TokenKind.keyword?
        split <;> decide
      obtain ⟨opens, closes, legal, other⟩ := kinds
      have kept : Lexer.bracketsAfter mood.2 kind = mood.2 := by
        simp [Lexer.bracketsAfter, opens, closes]
      rw [← kept]
      exact before.next_token solid (by simp) read legal fun closing => absurd closing other

theorem digit_of_isDigit (c : Char) (digit : c.isDigit = true) :
    Text.isDecimalDigit c = true ∧ Lexeme.startsName c = false ∧ c ≠ '/' := by
  have range : 48 ≤ c.toNat ∧ c.toNat ≤ 57 := by
    simpa [Char.isDigit, UInt32.le_iff_toNat_le] using digit
  have each : ∀ code ∈ [48, 49, 50, 51, 52, 53, 54, 55, 56, 57],
      Text.isDecimalDigit (Char.ofNat code) = true ∧
        Lexeme.startsName (Char.ofNat code) = false ∧ Char.ofNat code ≠ '/' := by decide
  have member : c.toNat ∈ [48, 49, 50, 51, 52, 53, 54, 55, 56, 57] := by
    simp only [List.mem_cons, List.not_mem_nil, or_false]
    omega
  have here := each _ member
  rwa [Char.ofNat_toNat] at here

theorem Lexes.digits (literal : String) (present : literal.toList ≠ [])
    (digits : ∀ c ∈ literal.toList, c.isDigit = true) (mood : Mood) :
    Lexes literal.toList [(.number, literal)] mood (true, mood.2) Apart := by
  intro lexer rest apart before
  obtain ⟨first, more, parts⟩ := List.exists_cons_of_ne_nil present
  have whole : literal = String.ofList (first :: more) := by
    rw [← parts, String.ofList_toList]
  rw [parts] at before digits
  rw [whole]
  obtain ⟨decimal, unnamed, slash⟩ := digit_of_isDigit first (digits first (by simp))
  have goes : more.all Text.isDecimalDigit = true := by
    rw [List.all_eq_true]
    exact fun c member => (digit_of_isDigit c (digits c (by simp [member]))).1
  have named : Lexeme.continuesName first = true := by
    rw [Lexeme.continuesName, decimal, Bool.or_true]
  have ends : ∀ c, rest.head? = some c → Text.isDecimalDigit c = false ∧
      (c == '.' || Lexeme.startsName c) = false := by
    intro c next
    obtain ⟨other, dot⟩ := apart c next
    rw [Lexeme.continuesName, Bool.or_eq_false_iff] at other
    exact ⟨other.2, by simp [dot, other.1]⟩
  have ran := Lexeme.run_all Text.isDecimalDigit more rest goes fun c next => (ends c next).1
  have solid := Trivia.scan_solid first (more ++ rest) (isBlank_of_continuesName first named)
    fun here => absurd here slash
  have read : Lexeme.scan ((first :: more ++ rest).map .char) =
      ⟨.ok (.number, String.ofList (first :: more)), first :: more, rest.map .char⟩ := by
    rw [List.cons_append, List.map_cons, Lexeme.scan, if_neg (by simp [unnamed]), if_pos decimal,
      Lexeme.number, ran]
    cases rest with
    | nil => rfl
    | cons c rest =>
        have well := (ends c rfl).2
        simp only [List.map_cons, well]
        rfl
  exact before.next_token solid (by simp) read (by decide) (by simp)

theorem Lexes.number (n : Nat) (mood : Mood) :
    Lexes (toString n).toList [(.number, toString n)] mood (true, mood.2) Apart := by
  obtain ⟨-, present, digits⟩ := Decimal.toList_toString n
  exact .digits (toString n) present digits mood

/-! Text literals. -/

theorem quoted_char (c : Char) (printable : printableChar c = true) (rest : List Glyph) :
    Lexeme.text ((Text.Quoted.char '"' c).toList.map .char ++ rest) =
      ((Lexeme.text rest).map (c :: ·)).behind (Text.Quoted.char '"' c).toList := by
  by_cases escaped : c = '"' ∨ c = '\\'
  · rw [Text.Quoted.char, if_pos escaped]
    rcases escaped with rfl | rfl <;> rfl
  · rw [Text.Quoted.char, if_neg escaped]
    by_cases shown : Text.isPrintable c = true
    · have other : c ≠ '\n' := by
        rintro rfl
        revert shown
        decide
      rw [if_pos shown, String.toList_singleton]
      rw [List.map_cons, List.map_nil, List.singleton_append, Lexeme.text, if_neg other]
      · exact fun quote => escaped (.inl quote)
      · exact fun _ back => escaped (.inr back)
      · exact fun _ _ _ back => escaped (.inr back)
      · exact fun _ _ _ back => escaped (.inr back)
    · have named : c = '\n' ∨ c = '\t' := by
        simpa [printableChar, shown] using printable
      rw [if_neg shown]
      rcases named with rfl | rfl <;> rfl

theorem quoted_text (chars : List Char) (printable : chars.all printableChar = true)
    (rest : List Char) :
    Lexeme.text ((chars.flatMap fun c => (Text.Quoted.char '"' c).toList).map .char ++
        .char '"' :: rest.map .char) =
      ⟨.ok chars, chars.flatMap (fun c => (Text.Quoted.char '"' c).toList) ++ ['"'],
        rest.map .char⟩ := by
  induction chars with
  | nil => rfl
  | cons c chars ih =>
      rw [List.all_cons, Bool.and_eq_true] at printable
      rw [List.flatMap_cons, List.map_append, List.append_assoc, quoted_char c printable.1,
        ih printable.2, List.append_assoc]
      rfl

theorem Glyph.eq_map_of_chars? (glyphs : List Glyph) (chars : List Char)
    (found : chars? glyphs = some chars) : glyphs = chars.map .char := by
  induction glyphs generalizing chars with
  | nil =>
      cases found
      rfl
  | cons glyph rest ih =>
      cases glyph with
      | stray byte => cases found
      | char c =>
          rw [chars?, Option.map_eq_some_iff] at found
          obtain ⟨more, found, rfl⟩ := found
          rw [List.map_cons, ih more found]

theorem toList_quote (value : Bytes) (chars : List Char)
    (found : Glyph.chars? (Glyph.decode value) = some chars) :
    (Text.quote value).toList =
      '"' :: chars.flatMap (fun c => (Text.Quoted.char '"' c).toList) ++ ['"'] := by
  have content := Glyph.eq_map_of_chars? _ _ found
  rw [Text.quote, Text.Quoted.glyphs, content]
  simp [String.toList_join, Text.Quoted.glyph, List.flatMap_def, Function.comp_def]

theorem Lexes.text (value : Bytes) (printable : printableText value = true) (mood : Mood) :
    Lexes (Text.quote value).toList [(.text, (Bytes.toString? value).getD "")] mood (true, mood.2)
      Anything := by
  intro lexer rest _ before
  unfold printableText at printable
  cases found : Glyph.chars? (Glyph.decode value) with
  | none => simp [found] at printable
  | some chars =>
      rw [found] at printable
      have content : (Bytes.toString? value).getD "" = String.ofList chars := by
        rw [Bytes.toString?, found]
        rfl
      rw [toList_quote value chars found] at before
      rw [content]
      have solid := Trivia.scan_solid '"'
        (chars.flatMap (fun c => (Text.Quoted.char '"' c).toList) ++ ['"'] ++ rest) rfl (by simp)
      have read : Lexeme.scan (('"' :: chars.flatMap (fun c => (Text.Quoted.char '"' c).toList) ++
          ['"'] ++ rest).map .char) = ⟨.ok (.text, String.ofList chars),
            '"' :: chars.flatMap (fun c => (Text.Quoted.char '"' c).toList) ++ ['"'],
            rest.map .char⟩ := by
        have inner := quoted_text chars printable rest
        simp only [List.cons_append, List.map_cons, List.map_append, List.append_assoc,
          List.nil_append]
        rw [Lexeme.scan, if_neg (by decide), if_neg (by decide), if_pos rfl, inner]
        rfl
      exact before.next_token solid (by simp) read (by decide) (by simp)

/-! Signs. -/

theorem firstChar?_map (rest : List Char) : Glyph.firstChar? (rest.map .char) = rest.head? := by
  cases rest with
  | nil => rfl
  | cons c rest => rfl

def Lexeme.isMark (c : Char) : Bool :=
  !Text.isBlank c && !startsName c && !Text.isDecimalDigit c && c != '"'

theorem Lexeme.scan_mark (c : Char) (rest : List Glyph) (mark : isMark c = true) :
    scan (.char c :: rest) = symbol c rest := by
  simp only [isMark, Bool.and_eq_true, Bool.not_eq_true', bne_iff_ne] at mark
  rw [scan, if_neg (by simp [mark.1.1.2]), if_neg (by simp [mark.1.2]), if_neg mark.2]

theorem Lexes.sign (c : Char) (kind : TokenKind) (mood : Mood) (follow : List Char → Prop)
    (mark : Lexeme.isMark c = true)
    (reads : ∀ rest, follow rest → Lexeme.sign c rest.head? = .ok (kind, false))
    (plain : c = '/' → ∀ rest, follow rest → rest.head? ≠ some '/' ∧ rest.head? ≠ some '*')
    (legal : kind ≠ .illegal)
    (block : kind = .closeBrace → mood.1 = false ∨ mood.2.head? ≠ some .openBrace) :
    Lexes [c] [.sign kind] mood (kind.endsStatement, Lexer.bracketsAfter mood.2 kind) follow := by
  intro lexer rest admitted before
  have blank : Text.isBlank c = false := by
    simp only [Lexeme.isMark, Bool.and_eq_true, Bool.not_eq_true'] at mark
    exact mark.1.1.1
  have solid := Trivia.scan_solid c rest blank fun slash => plain slash rest admitted
  have read : Lexeme.scan (([c] ++ rest).map .char) = ⟨.ok (kind, ""), [c], rest.map .char⟩ := by
    rw [List.singleton_append, List.map_cons, Lexeme.scan_mark c _ mark]
    simp only [Lexeme.symbol, firstChar?_map, reads rest admitted]
  exact before.next_token solid (by simp) read legal block

theorem Lexes.wideSign (c d : Char) (kind : TokenKind) (mood : Mood)
    (mark : Lexeme.isMark c = true) (reads : Lexeme.sign c (some d) = .ok (kind, true))
    (plain : c ≠ '/') (legal : kind ≠ .illegal) (block : kind ≠ .closeBrace) :
    Lexes [c, d] [.sign kind] mood (kind.endsStatement, Lexer.bracketsAfter mood.2 kind)
      Anything := by
  intro lexer rest _ before
  have blank : Text.isBlank c = false := by
    simp only [Lexeme.isMark, Bool.and_eq_true, Bool.not_eq_true'] at mark
    exact mark.1.1.1
  have solid := Trivia.scan_solid c (d :: rest) blank fun slash => absurd slash plain
  have read : Lexeme.scan (([c, d] ++ rest).map .char) =
      ⟨.ok (kind, ""), [c, d], rest.map .char⟩ := by
    have seen : Glyph.firstChar? (([d] ++ rest).map .char) = some d := rfl
    rw [List.cons_append, List.map_cons, Lexeme.scan_mark c _ mark]
    unfold Lexeme.symbol
    rw [seen, reads]
    rfl
  exact before.next_token solid (by simp) read legal fun closing => absurd closing block

end Koy
