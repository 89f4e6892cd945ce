import Koy.Proofs.Glyphs
import Koy.Proofs.WordLexing

/-! The text of a program is read as its words. -/

namespace Koy

open Word

namespace Lexes

variable (mood : Mood) (p : Bool) (opened : List TokenKind)

/-! The signs that are read alike whatever comes after them. -/

theorem openParen : Lexes ['('] [.sign .openParen] mood (false, .openParen :: mood.2) Anything :=
  .sign '(' .openParen mood Anything (by decide) (fun _ _ => rfl) (by simp) (by decide) (by simp)

theorem openBracket :
    Lexes ['['] [.sign .openBracket] mood (false, .openBracket :: mood.2) Anything :=
  .sign '[' .openBracket mood Anything (by decide) (fun _ _ => rfl) (by simp) (by decide) (by simp)

theorem openBrace : Lexes ['\x7b'] [.sign .openBrace] mood (false, .openBrace :: mood.2) Anything :=
  .sign '\x7b' .openBrace mood Anything (by decide) (fun _ _ => rfl) (by simp) (by decide) (by simp)

theorem openSet : Lexes ['%', '\x7b'] [.sign .openSet] mood (false, .openSet :: mood.2) Anything :=
  .wideSign '%' '\x7b' .openSet mood (by decide) rfl (by decide) (by decide) (by decide)

theorem openMap : Lexes ['#', '\x7b'] [.sign .openMap] mood (false, .openMap :: mood.2) Anything :=
  .wideSign '#' '\x7b' .openMap mood (by decide) rfl (by decide) (by decide) (by decide)

theorem closeParen (kind : TokenKind) :
    Lexes [')'] [.sign .closeParen] (p, kind :: opened) (true, opened) Anything :=
  .sign ')' .closeParen (p, kind :: opened) Anything (by decide) (fun _ _ => rfl) (by simp)
    (by decide) (by simp)

theorem closeBracket (kind : TokenKind) :
    Lexes [']'] [.sign .closeBracket] (p, kind :: opened) (true, opened) Anything :=
  .sign ']' .closeBracket (p, kind :: opened) Anything (by decide) (fun _ _ => rfl) (by simp)
    (by decide) (by simp)

theorem closeBrace (kind : TokenKind) (other : kind ≠ .openBrace) :
    Lexes ['\x7d'] [.sign .closeBrace] (p, kind :: opened) (true, opened) Anything :=
  .sign '\x7d' .closeBrace (p, kind :: opened) Anything (by decide) (fun _ _ => rfl) (by simp) (by decide)
    fun _ => .inr fun same => other (Option.some.inj same)

theorem closeEmpty :
    Lexes ['\x7d'] [.sign .closeBrace] (false, .openBrace :: opened) (true, opened) Anything :=
  .sign '\x7d' .closeBrace (false, .openBrace :: opened) Anything (by decide) (fun _ _ => rfl) (by simp)
    (by decide) fun _ => .inl rfl

theorem closeBlock :
    Lexes ['\x7d'] [.sign .semicolon, .sign .closeBrace] (true, .openBrace :: opened) (true, opened)
      Anything :=
  fun _ _ _ before => before.next_blockEnd

theorem comma : Lexes [','] [.sign .comma] mood (false, mood.2) Anything :=
  .sign ',' .comma mood Anything (by decide) (fun _ _ => rfl) (by simp) (by decide) (by simp)

theorem semicolon : Lexes [';'] [.sign .semicolon] mood (false, mood.2) Anything :=
  .sign ';' .semicolon mood Anything (by decide) (fun _ _ => rfl) (by simp) (by decide) (by simp)

theorem colon : Lexes [':'] [.sign .colon] mood (false, mood.2) Anything :=
  .sign ':' .colon mood Anything (by decide) (fun _ _ => rfl) (by simp) (by decide) (by simp)

theorem assign :
    Lexes ['='] [.sign .assign] mood (false, mood.2) fun rest => rest.head? ≠ some '=' := by
  refine .sign '=' .assign mood _ (by decide) (fun rest other => ?_) (by simp) (by decide) (by simp)
  cases rest with
  | nil => rfl
  | cons c rest =>
      have differs : c ≠ '=' := fun same => other (by rw [same]; rfl)
      simp [Lexeme.sign, differs]

theorem update (op : UpdateOp) :
    Lexes op.symbol.toList [.sign op.token] mood (true, mood.2) Anything := by
  cases op with
  | increment =>
      exact .wideSign '+' '+' .increment mood (by decide) rfl (by decide) (by decide) (by decide)
  | decrement =>
      exact .wideSign '-' '-' .decrement mood (by decide) rfl (by decide) (by decide) (by decide)

theorem minus :
    Lexes ['-'] [.sign .minus] mood (false, mood.2) fun rest => rest.head? ≠ some '-' := by
  refine .sign '-' .minus mood _ (by decide) (fun rest other => ?_) (by simp) (by decide) (by simp)
  cases rest with
  | nil => rfl
  | cons c rest =>
      have differs : c ≠ '-' := fun same => other (by rw [same]; rfl)
      simp [Lexeme.sign, differs]

theorem operator (op : BinaryOp) (known : op.known = true) :
    Lexes op.symbol.toList [.sign op.token] mood (false, mood.2) fun rest =>
      rest.head? = some ' ' := by
  have narrow (c : Char) (kind : TokenKind) (mark : Lexeme.isMark c = true)
      (reads : Lexeme.sign c (some ' ') = .ok (kind, false)) (legal : kind ≠ .illegal)
      (plain : kind ≠ .closeBrace) :
      Lexes [c] [.sign kind] mood (kind.endsStatement, Lexer.bracketsAfter mood.2 kind) fun rest =>
        rest.head? = some ' ' := by
    refine .sign c kind mood _ mark (fun rest spaced => ?_) (fun _ rest spaced => ?_) legal
      fun closing => absurd closing plain
    · rw [spaced, reads]
    · rw [spaced]
      decide
  have wide (c d : Char) (kind : TokenKind) (mark : Lexeme.isMark c = true)
      (reads : Lexeme.sign c (some d) = .ok (kind, true)) (solid : c ≠ '/') (legal : kind ≠ .illegal)
      (plain : kind ≠ .closeBrace) :
      Lexes [c, d] [.sign kind] mood (kind.endsStatement, Lexer.bracketsAfter mood.2 kind)
        fun rest => rest.head? = some ' ' :=
    (Lexes.wideSign c d kind mood mark reads solid legal plain).weaken fun _ _ => trivial
  cases op with
  | add => exact narrow '+' .plus (by decide) rfl (by decide) (by decide)
  | subtract => exact narrow '-' .minus (by decide) rfl (by decide) (by decide)
  | multiply => exact narrow '*' .times (by decide) rfl (by decide) (by decide)
  | divide => exact narrow '/' .slash (by decide) rfl (by decide) (by decide)
  | remainder => exact narrow '%' .percent (by decide) rfl (by decide) (by decide)
  | less => exact narrow '<' .less (by decide) rfl (by decide) (by decide)
  | lessOrEqual => exact wide '<' '=' .lessEqual (by decide) rfl (by decide) (by decide) (by decide)
  | greater => exact narrow '>' .greater (by decide) rfl (by decide) (by decide)
  | greaterOrEqual => exact wide '>' '=' .greaterEqual (by decide) rfl (by decide) (by decide) (by decide)
  | equal => exact wide '=' '=' .equal (by decide) rfl (by decide) (by decide) (by decide)
  | notEqual => exact wide '!' '=' .notEqual (by decide) rfl (by decide) (by decide) (by decide)
  | and => exact wide '&' '&' .andAnd (by decide) rfl (by decide) (by decide) (by decide)
  | or => exact wide '|' '|' .orOr (by decide) rfl (by decide) (by decide) (by decide)
  | unknown code => cases known

end Lexes

/-! Putting pieces together. -/

namespace Lexes

variable {text text' : List Char} {words words' : List Word} {mood mood' mood'' : Mood}
  {follow : List Char → Prop}

theorem nil (mood : Mood) : Lexes [] [] mood mood Apart :=
  fun lexer _ _ before => ⟨lexer, .nil lexer, before⟩

/-- After a piece that is read alike whatever comes after it. -/
theorem andThen (first : Lexes text words mood mood' Anything)
    (second : Lexes text' words' mood' mood'' follow) :
    Lexes (text ++ text') (words ++ words') mood mood'' follow :=
  first.append second fun _ _ => trivial

/-- After a piece that has to be kept apart, by a character that does so. -/
theorem upTo {c : Char} (first : Lexes text words mood mood' Apart)
    (second : Lexes (c :: text') words' mood' mood'' follow)
    (apart : Lexeme.continuesName c = false ∧ c ≠ '.') :
    Lexes (text ++ c :: text') (words ++ words') mood mood'' follow :=
  first.append second fun _ _ => apart_cons _ apart.1 apart.2

theorem words_ne_nil {opened : List TokenKind}
    (lexes : Lexes text words (false, opened) (true, opened) Apart) :
    words ≠ [] := by
  rintro rfl
  let lexer : Lexer := { rest := (text ++ []).map .char, opened }
  obtain ⟨after, yields, before⟩ := lexes lexer [] apart_nil ⟨rfl, rfl, rfl, rfl⟩
  cases yields
  cases before.pending

end Lexes

/-- Texts that are each read as the words beside them while the given brackets are open. -/
inductive Pieces (opened : List TokenKind) : List String → List (List Word) → Prop where
  | nil : Pieces opened [] []
  | cons {text : String} {words : List Word} {texts : List String} {others : List (List Word)}
      (first : ∀ pending, Lexes text.toList words (pending, opened) (true, opened) Apart)
      (rest : Pieces opened texts others) : Pieces opened (text :: texts) (words :: others)

namespace Pieces

variable {opened : List TokenKind} {texts : List String} {others : List (List Word)}

theorem separated_ne_nil (words : List Word) (others : List (List Word)) (present : words ≠ []) :
    Word.separated (words :: others) ≠ [] := by
  cases others with
  | nil => exact present
  | cons next others => exact List.append_ne_nil_of_left_ne_nil present _

theorem separated (pieces : Pieces opened texts others) (pending : Bool) :
    ∃ ending, Lexes (String.intercalate ", " texts).toList (Word.separated others)
      (pending, opened) (ending, opened) Apart := by
  induction pieces generalizing pending with
  | nil => exact ⟨pending, .nil _⟩
  | cons first rest ih =>
      cases rest with
      | nil =>
          rw [String.intercalate_singleton]
          exact ⟨true, first pending⟩
      | cons second more =>
          obtain ⟨ending, lexes⟩ := ih false
          have spaced := lexes.space (separated_ne_nil _ _ (second false).words_ne_nil)
          refine ⟨ending, ?_⟩
          rw [String.intercalate_cons_cons, String.toList_append, String.toList_append,
            List.append_assoc]
          exact (first pending).upTo ((Lexes.comma _).andThen spaced) (by decide)

theorem closed (pieces : Pieces (.openBrace :: opened) texts others) (present : texts ≠ []) :
    Lexes (String.intercalate "; " texts ++ " \x7d").toList
      (others.flatMap (· ++ [sign .semicolon]) ++ [sign .closeBrace])
      (false, .openBrace :: opened) (true, opened) Anything := by
  induction pieces with
  | nil => exact absurd rfl present
  | cons first rest ih =>
      cases rest with
      | nil =>
          have closing := (Lexes.closeBlock opened).space (List.cons_ne_nil _ _)
          rw [String.intercalate_singleton, String.toList_append, List.flatMap_singleton,
            List.append_assoc]
          exact (first false).upTo closing (by decide)
      | cons second more =>
          have lexes := (ih (List.cons_ne_nil _ _)).space (by simp)
          rw [String.intercalate_cons_cons, String.append_assoc, String.append_assoc,
            String.toList_append, String.toList_append, List.flatMap_cons, List.append_assoc,
            List.append_assoc]
          exact (first false).upTo ((Lexes.semicolon _).andThen lexes) (by decide)

theorem block (pieces : Pieces (.openBrace :: opened) texts others) (pending : Bool) :
    Lexes (Expr.renderBlock texts).toList (Word.block others) (pending, opened) (true, opened)
      Anything := by
  have opening := Lexes.openBrace (pending, opened)
  cases pieces with
  | nil => exact opening.andThen (.closeEmpty opened)
  | cons first rest =>
      have lexes := (closed (.cons first rest) (List.cons_ne_nil _ _)).space (by simp)
      have whole := opening.andThen lexes
      rw [Expr.renderBlock, if_neg (by simp), String.append_assoc, String.toList_append]
      exact whole

end Pieces

/-! Names and parameter lists. -/

theorem Lexes.identifier (spelling : String) (printable : printableName spelling = true)
    (mood : Mood) : Lexes spelling.toList [Word.name spelling] mood (true, mood.2) Apart := by
  rw [printableName, Bool.and_eq_true, Option.isNone_iff_eq_none] at printable
  exact .name spelling .identifier printable.1 (by rw [printable.2]; rfl) mood

theorem Pieces.names (spellings : List String) (printable : spellings.all printableName = true)
    (opened : List TokenKind) :
    Pieces opened spellings (spellings.map fun param => [Word.name param]) := by
  induction spellings with
  | nil => exact .nil
  | cons spelling rest ih =>
      rw [List.all_cons, Bool.and_eq_true] at printable
      exact .cons (fun pending => .identifier spelling printable.1 (pending, opened))
        (ih printable.2)

theorem Lexes.params (spellings : List String) (printable : printableNames spellings = true)
    (mood : Mood) :
    Lexes (Expr.renderParams spellings).toList (Word.params spellings) mood (true, mood.2)
      Anything := by
  rw [printableNames, Bool.and_eq_true] at printable
  obtain ⟨ending, lexes⟩ :=
    (Pieces.names spellings printable.1 (.openParen :: mood.2)).separated false
  have whole := (Lexes.openParen mood).andThen
    (lexes.upTo (.closeParen ending mood.2 .openParen) (by decide))
  rw [Expr.renderParams, String.append_assoc, String.toList_append, String.toList_append]
  exact whole

theorem apart_params (spellings : List String) (rest : List Char) :
    Apart ((Expr.renderParams spellings).toList ++ rest) := by
  rw [Expr.renderParams, String.append_assoc, String.toList_append, List.append_assoc]
  exact apart_cons _ (by decide) (by decide)

/-! Expressions. -/

theorem digits_head (n : Nat) (c : Char) (other : c.isDigit = false) (rest : List Char) :
    ((toString n).toList ++ rest).head? ≠ some c := by
  obtain ⟨-, present, all⟩ := Decimal.toList_toString n
  obtain ⟨first, more, parts⟩ := List.exists_cons_of_ne_nil present
  rw [parts] at all ⊢
  rintro ⟨⟩
  have digit := all c (by simp)
  rw [other] at digit
  cases digit

theorem Lexes.int (value : Int64) (mood : Mood) :
    Lexes (Decimal.ofInt64 value).toList (Word.int value) mood (true, mood.2) Apart := by
  rw [Decimal.toList_ofInt64, Word.int]
  by_cases negative : value.toInt < 0
  · rw [if_pos negative, if_pos negative]
    exact (Lexes.minus mood).append (.number _ (false, mood.2)) fun rest _ =>
      digits_head _ '-' rfl rest
  · rw [if_neg negative, if_neg negative]
    exact .number _ mood

theorem identifier_head (spelling : String) (printable : printableName spelling = true) (c : Char)
    (other : Lexeme.startsName c = false) (rest : List Char) :
    (spelling.toList ++ rest).head? ≠ some c := by
  rw [printableName, Bool.and_eq_true] at printable
  have named := printable.1
  unfold Lexeme.isName at named
  cases parts : spelling.toList with
  | nil => simp [parts] at named
  | cons first more =>
      simp only [parts, Bool.and_eq_true] at named
      rintro ⟨⟩
      rw [other] at named
      cases named.1

theorem Expr.render_head (expr : Expr) (printable : expr.printable = true) (rest : List Char) :
    (expr.render.toList ++ rest).head? ≠ some '=' := by
  have named (spelling : String) (printable : printableName spelling = true) (rest : List Char) :=
    identifier_head spelling printable '=' (by decide) rest
  cases expr with
  | missing => cases printable
  | int value _ =>
      rw [render, Decimal.toList_ofInt64]
      split
      · simp
      · exact digits_head _ '=' rfl rest
  | bool value _ => cases value <;> simp [render]
  | text value _ => simp [render, Text.quote, Text.Quoted.glyphs]
  | sequence items _ => simp [render]
  | set items _ => simp [render]
  | mapping entries _ => simp [render]
  | function params id body bodyPosition position => simp [render]
  | identifier spelling _ => exact named spelling printable rest
  | update op before operand _ =>
      simp only [Expr.printable, Bool.and_eq_true] at printable
      cases operand with
      | identifier spelling _ =>
          cases before with
          | true => cases op <;> simp [render, UpdateOp.symbol]
          | false =>
              simp only [render, Bool.false_eq_true, if_false, String.toList_append,
                List.append_assoc]
              exact named spelling printable.2 _
      | _ => cases printable.1
  | binary op lhs rhs _ => simp [render]
  | declare spelling mutable value _ => cases mutable <;> simp [render, declarationWords]
  | assign spelling value _ =>
      rw [Expr.printable, Bool.and_eq_true] at printable
      simp only [render, String.toList_append, List.append_assoc]
      exact named spelling printable.1 _
  | println argument _ => simp [render]
  | branch condition consequent alternative _ => simp [render]
  | loop condition body _ => simp [render]
  | block elements _ =>
      rw [render, renderBlock]
      split <;> simp
  | call callee arguments _ =>
      simp only [Expr.printable, Bool.and_eq_true] at printable
      simp only [render, String.toList_append, List.append_assoc]
      exact named callee printable.1.1 _
  | labeledCall callee arguments _ =>
      simp only [Expr.printable, Bool.and_eq_true] at printable
      simp only [render, String.toList_append, List.append_assoc]
      exact named callee printable.1.1.1 _

def Marks (mark : String) (kind : TokenKind) : Prop :=
  ∀ (text : List Char) (words : List Word) (mood : Mood),
    (∀ rest, (text ++ rest).head? ≠ some '=') → (∀ mood', Lexes text words mood' (true, mood'.2) Apart) →
    ∃ c more, mark.toList ++ text = c :: more ∧ (Lexeme.continuesName c = false ∧ c ≠ '.') ∧
      Lexes (c :: more) (sign kind :: words) mood (true, mood.2) Apart

theorem marks_colon : Marks ": " .colon := by
  intro text words mood _ lexes
  refine ⟨':', ' ' :: text, rfl, by decide, ?_⟩
  exact (Lexes.colon mood).andThen ((lexes (false, mood.2)).space (lexes (false, [])).words_ne_nil)

theorem marks_assign : Marks "=" .assign := by
  intro text words mood solid lexes
  refine ⟨'=', text, rfl, by decide, ?_⟩
  exact (Lexes.assign mood).append (lexes (false, mood.2)) fun rest _ => solid rest

theorem Lexes.conditional {word lead condition body : String} {kind : TokenKind}
    {conditionWords bodyWords : List Word} {mood : Mood}
    (head : Lexes word.toList [.keyword kind] mood (false, mood.2) Apart)
    (starts : lead.toList = word.toList ++ [' ', '('])
    (first : ∀ mood, Lexes condition.toList conditionWords mood (true, mood.2) Apart)
    (second : ∀ mood, Lexes body.toList bodyWords mood (true, mood.2) Apart) :
    Lexes (lead ++ condition ++ ") " ++ body).toList
      (.keyword kind :: .sign .openParen :: conditionWords ++ .sign .closeParen :: bodyWords) mood
      (true, mood.2) Apart := by
  have spaced := (second (true, mood.2)).space (second (false, [])).words_ne_nil
  have closing := (Lexes.closeParen true mood.2 .openParen).andThen spaced
  have opening := (Lexes.openParen (false, mood.2)).andThen ((first _).upTo closing (by decide))
  have whole := head.upTo (opening.space (List.cons_ne_nil _ _)) (by decide)
  rw [String.append_assoc, String.append_assoc, String.toList_append, String.toList_append,
    String.toList_append, starts, List.append_assoc]
  exact whole

theorem Lexes.parenthesized {inner : List Char} {words : List Word} {mood : Mood}
    {ending : Bool} (lexes : Lexes inner words (false, .openParen :: mood.2)
      (ending, .openParen :: mood.2) Apart) :
    Lexes ('(' :: (inner ++ [')'])) (.sign .openParen :: (words ++ [.sign .closeParen])) mood
      (true, mood.2) Anything :=
  (Lexes.openParen mood).andThen (lexes.upTo (.closeParen ending mood.2 .openParen) (by decide))

theorem apart_update (op : UpdateOp) (rest : List Char) : Apart (op.symbol.toList ++ rest) := by
  cases op with
  | increment => exact apart_cons _ (by decide) (by decide)
  | decrement => exact apart_cons _ (by decide) (by decide)

namespace Expr

theorem lexes_binding (spelling : String) (printable : printableName spelling = true)
    {text : List Char} {words : List Word} {mood : Mood}
    (lexes : Lexes text words (false, mood.2) (true, mood.2) Apart) :
    Lexes (spelling.toList ++ (" = ".toList ++ text)) (name spelling :: sign .assign :: words) mood
      (true, mood.2) Apart := by
  have mark := (Lexes.assign (true, mood.2)).append (lexes.space lexes.words_ne_nil) fun _ _ => by simp
  exact (Lexes.identifier spelling printable mood).upTo (mark.space (List.cons_ne_nil _ _)) (by decide)

theorem lexes_declaration (mutable : Bool) {text : List Char} {words : List Word} {mood : Mood}
    (lexes : Lexes text words (false, mood.2) (true, mood.2) Apart) :
    Lexes ((declarationWords mutable).toList ++ text) (Word.declaration mutable ++ words) mood
      (true, mood.2) Apart := by
  have spaced := lexes.space lexes.words_ne_nil
  cases mutable with
  | false => exact (Lexes.name "let" .letWord (by decide) rfl mood).upTo spaced (by decide)
  | true =>
      have second := (Lexes.name "let" .letWord (by decide) rfl (false, mood.2)).upTo spaced (by decide)
      exact (Lexes.name "mutable" .mutableWord (by decide) rfl mood).upTo
        (second.space (List.cons_ne_nil _ _)) (by decide)

theorem lexes_bool (value : Bool) (position : Position) (mood : Mood) :
    Lexes (render (.bool value position)).toList (words (.bool value position)) mood (true, mood.2)
      Apart := by
  cases value with
  | true => exact .name "true" .trueWord (by decide) rfl mood
  | false => exact .name "false" .falseWord (by decide) rfl mood

theorem lexes_sequence {items : List Expr} {position : Position} {mood : Mood}
    (pieces : Pieces (.openBracket :: mood.2) (renderAll items) (wordsAll items)) :
    Lexes (render (.sequence items position)).toList (words (.sequence items position)) mood
      (true, mood.2) Apart := by
  obtain ⟨ending, lexes⟩ := pieces.separated false
  have whole := (Lexes.openBracket mood).andThen
    (lexes.upTo (.closeBracket ending mood.2 .openBracket) (by decide))
  simp only [render, String.append_assoc, String.toList_append]
  exact whole.weaken fun _ _ => trivial

theorem lexes_set {items : List Expr} {position : Position} {mood : Mood}
    (pieces : Pieces (.openSet :: mood.2) (renderAll items) (wordsAll items)) :
    Lexes (render (.set items position)).toList (words (.set items position)) mood (true, mood.2)
      Apart := by
  obtain ⟨ending, lexes⟩ := pieces.separated false
  have whole := (Lexes.openSet mood).andThen
    (lexes.upTo (.closeBrace ending mood.2 .openSet (by decide)) (by decide))
  simp only [render, String.append_assoc, String.toList_append]
  exact whole.weaken fun _ _ => trivial

theorem lexes_mapping {entries : List (String × Expr)} {position : Position} {mood : Mood}
    (pieces : Pieces (.openMap :: mood.2) (renderEntries ": " entries)
      (wordsEntries .colon entries)) :
    Lexes (render (.mapping entries position)).toList (words (.mapping entries position)) mood
      (true, mood.2) Apart := by
  obtain ⟨ending, lexes⟩ := pieces.separated false
  have whole := (Lexes.openMap mood).andThen
    (lexes.upTo (.closeBrace ending mood.2 .openMap (by decide)) (by decide))
  simp only [render, String.append_assoc, String.toList_append]
  exact whole.weaken fun _ _ => trivial

theorem lexes_function {params : List String} {id : BodyId} {body : List Expr}
    {place position : Position} {mood : Mood} (distinct : printableNames params = true)
    (pieces : Pieces (.openBrace :: mood.2) (renderAll body) (wordsAll body)) :
    Lexes (render (.function params id body place position)).toList
      (words (.function params id body place position)) mood (true, mood.2) Apart := by
  have word := Lexes.name "fn" .fnWord (by decide) rfl mood
  have tail := (Lexes.params params distinct (false, mood.2)).andThen
    ((pieces.block true).space (List.cons_ne_nil _ _))
  have whole := word.append tail fun rest _ => (List.append_assoc _ _ rest) ▸ apart_params params _
  simp only [render, String.append_assoc, String.toList_append]
  exact whole.weaken fun _ _ => trivial

theorem lexes_update {op : UpdateOp} {before : Bool} {operand : Expr} {position : Position}
    {mood : Mood}
    (lexes : ∀ mood, Lexes operand.render.toList operand.words mood (true, mood.2) Apart) :
    Lexes (render (.update op before operand position)).toList
      (words (.update op before operand position)) mood (true, mood.2) Apart := by
  cases before with
  | true =>
      simp only [render, words, if_true, String.toList_append]
      exact (Lexes.update mood op).andThen (lexes (true, mood.2))
  | false =>
      simp only [render, words, Bool.false_eq_true, if_false, String.toList_append]
      exact ((lexes mood).append (.update (true, mood.2) op)
        fun rest _ => apart_update op rest).weaken fun _ _ => trivial

theorem lexes_binary {op : BinaryOp} {lhs rhs : Expr} {position : Position} {mood : Mood}
    (known : op.known = true)
    (first : ∀ mood, Lexes lhs.render.toList lhs.words mood (true, mood.2) Apart)
    (second : ∀ mood, Lexes rhs.render.toList rhs.words mood (true, mood.2) Apart) :
    Lexes (render (.binary op lhs rhs position)).toList (words (.binary op lhs rhs position)) mood
      (true, mood.2) Apart := by
  have sign := (Lexes.operator (true, .openParen :: mood.2) op known).append
    ((second _).space (second (false, [])).words_ne_nil) fun _ _ => rfl
  have inner := (first (false, .openParen :: mood.2)).upTo (sign.space (List.cons_ne_nil _ _))
    (by decide)
  have whole := Lexes.parenthesized inner
  simp only [render, words, String.append_assoc, String.toList_append, List.append_assoc,
    List.cons_append] at whole ⊢
  exact whole.weaken fun _ _ => trivial

theorem lexes_declare {spelling : String} {mutable : Bool} {value : Expr} {position : Position}
    {mood : Mood} (named : printableName spelling = true)
    (lexes : ∀ mood, Lexes value.render.toList value.words mood (true, mood.2) Apart) :
    Lexes (render (.declare spelling mutable value position)).toList
      (words (.declare spelling mutable value position)) mood (true, mood.2) Apart := by
  have bound (mood : Mood) := lexes_binding spelling named (lexes (false, mood.2))
  simp only [render, words, String.append_assoc, String.toList_append]
  exact lexes_declaration mutable (bound (false, mood.2))

theorem lexes_assign {spelling : String} {value : Expr} {position : Position} {mood : Mood}
    (named : printableName spelling = true)
    (lexes : ∀ mood, Lexes value.render.toList value.words mood (true, mood.2) Apart) :
    Lexes (render (.assign spelling value position)).toList (words (.assign spelling value position))
      mood (true, mood.2) Apart := by
  simp only [render, words, String.append_assoc, String.toList_append]
  exact lexes_binding spelling named (lexes (false, mood.2))

theorem lexes_println {argument : Expr} {position : Position} {mood : Mood}
    (lexes : ∀ mood, Lexes argument.render.toList argument.words mood (true, mood.2) Apart) :
    Lexes (render (.println argument position)).toList (words (.println argument position)) mood
      (true, mood.2) Apart := by
  have whole := (Lexes.name "println" .printlnWord (by decide) rfl mood).upTo
    (Lexes.parenthesized (lexes (false, .openParen :: mood.2))) (by decide)
  simp only [render, words, String.append_assoc, String.toList_append]
  exact whole.weaken fun _ _ => trivial

theorem lexes_call {callee : String} {arguments : List Expr} {position : Position} {mood : Mood}
    (named : printableName callee = true)
    (pieces : Pieces (.openParen :: mood.2) (renderAll arguments) (wordsAll arguments)) :
    Lexes (render (.call callee arguments position)).toList (words (.call callee arguments position))
      mood (true, mood.2) Apart := by
  obtain ⟨ending, inner⟩ := pieces.separated false
  have whole := (Lexes.identifier callee named mood).upTo (Lexes.parenthesized inner) (by decide)
  simp only [render, words, String.append_assoc, String.toList_append]
  exact whole.weaken fun _ _ => trivial

theorem lexes_labeledCall {callee : String} {arguments : List (String × Expr)} {position : Position}
    {mood : Mood} (named : printableName callee = true)
    (pieces : Pieces (.openBracket :: .openParen :: mood.2) (renderEntries "=" arguments)
      (wordsEntries .assign arguments)) :
    Lexes (render (.labeledCall callee arguments position)).toList
      (words (.labeledCall callee arguments position)) mood (true, mood.2) Apart := by
  obtain ⟨ending, inner⟩ := pieces.separated false
  have labels := (Lexes.openBracket (false, .openParen :: mood.2)).andThen
    (inner.upTo (.closeBracket ending (.openParen :: mood.2) .openBracket) (by decide))
  have whole := (Lexes.identifier callee named mood).upTo
    (Lexes.parenthesized (labels.weaken fun _ _ => trivial)) (by decide)
  simp only [List.append_assoc] at whole
  simp only [render, words, String.append_assoc, String.toList_append]
  exact whole.weaken fun _ _ => trivial

mutual

/-- The text of an expression is read as its words. -/
theorem lexes_render (expr : Expr) (printable : expr.printable = true) (mood : Mood) :
    Lexes expr.render.toList expr.words mood (true, mood.2) Apart := by
  cases expr with
  | missing => cases printable
  | int value _ => exact .int value mood
  | bool value position => exact lexes_bool value position mood
  | text value _ => exact (Lexes.text value printable mood).weaken fun _ _ => trivial
  | sequence items _ => exact lexes_sequence (pieces_renderAll items printable _)
  | set items _ => exact lexes_set (pieces_renderAll items printable _)
  | mapping entries _ =>
      exact lexes_mapping (pieces_renderEntries entries printable ": " .colon marks_colon _)
  | function params id body bodyPosition position =>
      simp only [Expr.printable, Bool.and_eq_true] at printable
      exact lexes_function printable.1 (pieces_renderAll body printable.2 _)
  | identifier spelling _ => exact .identifier spelling printable mood
  | update op before operand _ =>
      simp only [Expr.printable, Bool.and_eq_true] at printable
      exact lexes_update (lexes_render operand printable.2)
  | binary op lhs rhs _ =>
      simp only [Expr.printable, Bool.and_eq_true] at printable
      obtain ⟨⟨⟨⟨known, _⟩, _⟩, left⟩, right⟩ := printable
      exact lexes_binary known (lexes_render lhs left) (lexes_render rhs right)
  | declare spelling mutable value _ =>
      simp only [Expr.printable, Bool.and_eq_true] at printable
      exact lexes_declare printable.1 (lexes_render value printable.2)
  | assign spelling value _ =>
      simp only [Expr.printable, Bool.and_eq_true] at printable
      exact lexes_assign printable.1 (lexes_render value printable.2)
  | println argument _ => exact lexes_println (lexes_render argument printable)
  | branch condition consequent alternative _ =>
      simp only [Expr.printable, Bool.and_eq_true] at printable
      obtain ⟨⟨⟨first, second⟩, third⟩, _⟩ := printable
      have starts : "if (".toList = "if".toList ++ [' ', '('] := rfl
      have lead := Lexes.conditional (.name "if" .ifWord (by decide) rfl mood) starts
        (lexes_render condition first) (lexes_render consequent second)
      have whole := lexes_alternative alternative third lead
      rw [render, String.toList_append]
      exact whole
  | loop condition body _ =>
      simp only [Expr.printable, Bool.and_eq_true] at printable
      exact .conditional (.name "while" .whileWord (by decide) rfl mood) rfl
        (lexes_render condition printable.1) (lexes_render body printable.2)
  | block elements _ =>
      have whole := (pieces_renderAll elements printable (.openBrace :: mood.2)).block mood.1
      exact whole.weaken fun _ _ => trivial
  | call callee arguments _ =>
      simp only [Expr.printable, Bool.and_eq_true] at printable
      exact lexes_call printable.1.1 (pieces_renderAll arguments printable.1.2 _)
  | labeledCall callee arguments _ =>
      simp only [Expr.printable, Bool.and_eq_true] at printable
      exact lexes_labeledCall printable.1.1.1
        (pieces_renderEntries arguments printable.2 "=" .assign marks_assign _)

theorem lexes_alternative (alternative : Option Expr)
    (printable : printableAlternative alternative = true) {text : List Char} {words : List Word}
    {mood : Mood} (lead : Lexes text words mood (true, mood.2) Apart) :
    Lexes (text ++ (renderAlternative alternative).toList) (words ++ wordsAlternative alternative)
      mood (true, mood.2) Apart := by
  cases alternative with
  | none =>
      rw [renderAlternative, wordsAlternative, List.append_nil]
      exact (List.append_nil text).symm ▸ lead
  | some alternative =>
      have second := lexes_render alternative printable (false, mood.2)
      have word := (Lexes.name "else" .elseWord (by decide) rfl (true, mood.2)).upTo
        (second.space second.words_ne_nil) (by decide)
      rw [renderAlternative, String.toList_append]
      exact lead.upTo (word.space (List.cons_ne_nil _ _)) (by decide)

theorem pieces_renderAll (items : List Expr) (printable : printableAll items = true)
    (opened : List TokenKind) : Pieces opened (renderAll items) (wordsAll items) := by
  cases items with
  | nil => exact .nil
  | cons item rest =>
      rw [printableAll, Bool.and_eq_true] at printable
      exact .cons (fun pending => lexes_render item printable.1 (pending, opened))
        (pieces_renderAll rest printable.2 opened)

theorem pieces_renderEntries (entries : List (String × Expr))
    (printable : printableEntries entries = true) (mark : String) (kind : TokenKind)
    (marks : Marks mark kind) (opened : List TokenKind) :
    Pieces opened (renderEntries mark entries) (wordsEntries kind entries) := by
  cases entries with
  | nil => exact .nil
  | cons entry rest =>
      obtain ⟨spelling, value⟩ := entry
      simp only [printableEntries, Bool.and_eq_true] at printable
      refine .cons (fun pending => ?_) (pieces_renderEntries rest printable.2 mark kind marks opened)
      obtain ⟨c, more, shape, apart, lexes⟩ := marks value.render.toList value.words (true, opened)
        (value.render_head printable.1.2) (lexes_render value printable.1.2)
      rw [String.append_assoc, String.toList_append, String.toList_append, shape]
      exact (Lexes.identifier spelling printable.1.1 (pending, opened)).upTo lexes apart

end

end Expr

/-! Programs. -/

theorem Definition.lexes_render (definition : Definition) (printable : definition.printable = true)
    (mood : Mood) : Lexes definition.render.toList definition.words mood (true, mood.2) Apart := by
  cases definition with
  | missing => cases printable
  | value defined => exact defined.declaration.lexes_render printable mood
  | function defined =>
      simp only [Definition.printable, Bool.and_eq_true] at printable
      obtain ⟨⟨named, distinct⟩, body⟩ := printable
      have block := (Expr.pieces_renderAll defined.body.elements body (.openBrace :: mood.2)).block true
      have tail := (Lexes.params defined.params distinct (true, mood.2)).andThen
        (block.space (List.cons_ne_nil _ _))
      have signature := (Lexes.identifier defined.name named (false, mood.2)).append tail
        fun rest _ => (List.append_assoc _ _ rest) ▸ apart_params defined.params _
      have whole := (Lexes.name "fn" .fnWord (by decide) rfl mood).upTo
        (signature.space (List.cons_ne_nil _ _)) (by decide)
      simp only [Definition.render, FunctionDef.render, String.append_assoc, String.toList_append]
      exact whole.weaken fun _ _ => trivial

theorem Definition.render_solid (definition : Definition) (printable : definition.printable = true)
    (rest : List Char) :
    Trivia.scanFrom .plain true ((definition.render.toList ++ rest).map .char) =
      ⟨.ok true, [], (definition.render.toList ++ rest).map .char⟩ := by
  have starts : ∃ c more, definition.render.toList ++ rest = c :: more ∧
      Text.isBlank c = false ∧ c ≠ '/' := by
    cases definition with
    | missing => cases printable
    | value defined =>
        simp only [render, ValueDef.render, ValueDef.declaration, Expr.render, String.append_assoc,
          String.toList_append, List.append_assoc]
        cases defined.mutable with
        | false => exact ⟨'l', _, rfl, by decide, by decide⟩
        | true => exact ⟨'m', _, rfl, by decide, by decide⟩
    | function defined =>
        simp only [render, FunctionDef.render, String.append_assoc, String.toList_append,
          List.append_assoc]
        exact ⟨'f', _, rfl, by decide, by decide⟩
  obtain ⟨c, more, shape, solid, plain⟩ := starts
  rw [shape]
  exact Trivia.scanFrom_solid true c more solid fun slash => absurd slash plain

theorem Program.render_cons_cons (definition next : Definition) (more : List Definition) :
    (Program.render ⟨definition :: next :: more⟩).toList =
      definition.render.toList ++ '\n' :: (Program.render ⟨next :: more⟩).toList := by
  simp only [Program.render, List.map_cons, String.intercalate_cons_cons, String.toList_append,
    List.append_assoc]
  rfl

theorem Program.render_cons (definition : Definition) (rest : List Definition) :
    ∃ tail, (Program.render ⟨definition :: rest⟩).toList = definition.render.toList ++ tail := by
  cases rest with
  | nil => exact ⟨[], by simp [Program.render]⟩
  | cons next more => exact ⟨_, render_cons_cons definition next more⟩

theorem Program.yields_render (definitions : List Definition)
    (printable : definitions.all Definition.printable = true) (lexer : Lexer)
    (before : lexer.Before (Program.render ⟨definitions⟩).toList false []) :
    ∃ after, lexer.Yields (Program.words ⟨definitions⟩) after ∧ after.Before [] false [] := by
  induction definitions generalizing lexer with
  | nil => exact ⟨lexer, .nil lexer, before⟩
  | cons definition rest ih =>
      rw [List.all_cons, Bool.and_eq_true] at printable
      have lexes := definition.lexes_render printable.1 (false, [])
      cases rest with
      | nil =>
          have alone : lexer.Before (definition.render.toList ++ []) false [] := by
            rw [List.append_nil]
            exact before
          obtain ⟨middle, yields, reached⟩ := lexes lexer [] apart_nil alone
          obtain ⟨after, yields', reached'⟩ := reached.next_inputEnd
          refine ⟨after, ?_, reached'⟩
          simp only [words, List.flatMap_cons, List.flatMap_nil, List.append_nil]
          exact yields.append yields'
      | cons next more =>
          have parted : lexer.Before (definition.render.toList ++
              '\n' :: (Program.render ⟨next :: more⟩).toList) false [] := by
            rw [← render_cons_cons]
            exact before
          obtain ⟨middle, yields, reached⟩ := lexes lexer _ (apart_cons _ (by decide) (by decide)) parted
          have solid : Trivia.scanFrom .plain true ((Program.render ⟨next :: more⟩).toList.map .char) =
              ⟨.ok true, [], (Program.render ⟨next :: more⟩).toList.map .char⟩ := by
            have first : next.printable = true := by
              have all := printable.2
              rw [List.all_cons, Bool.and_eq_true] at all
              exact all.1
            obtain ⟨tail, shape⟩ := render_cons next more
            rw [shape]
            exact next.render_solid first tail
          obtain ⟨started, yields', reached'⟩ := reached.next_lineEnd solid
          obtain ⟨after, yields'', reached''⟩ := ih printable.2 started reached'
          refine ⟨after, ?_, reached''⟩
          have whole := (yields.append yields').append yields''
          rw [words, List.flatMap_cons]
          exact whole

theorem Program.spells_render (program : Program) (printable : program.printable = true) :
    ∃ stream, TokenStream.ofSource (Bytes.ofString program.render) = .ok stream ∧
      stream.Spells program.words := by
  let lexer := Lexer.ofSource (Bytes.ofString program.render)
  have before : lexer.Before program.render.toList false [] :=
    ⟨rfl, Glyph.decode_ofChars _, rfl, rfl⟩
  obtain ⟨after, yields, reached⟩ := yields_render program.definitions printable lexer before
  obtain ⟨token, ends, spelled⟩ := reached.item_end
  exact yields.spells (lexer.sound_of_free rfl) (after.sound_of_free reached.free) ends spelled

end Koy
