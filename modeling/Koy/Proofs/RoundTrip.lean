import Koy.Proofs.Budget
import Koy.Proofs.PrintedWords
import Koy.Proofs.WordReading

/-! Printing and reading. The text of a program is read back as the program, but for the places of
its parts. -/

namespace Koy

open Parse Grammar Word

namespace Definition

theorem words_start (definition : Definition) (printable : definition.printable = true) :
    ∃ kind more, definition.words = keyword kind :: more ∧
      (kind = .fnWord ∨ kind = .letWord ∨ kind = .mutableWord) := by
  cases definition with
  | missing => cases printable
  | function defined => exact ⟨.fnWord, _, rfl, .inl rfl⟩
  | value defined =>
      rw [words, ValueDef.declaration, Expr.words]
      cases defined.mutable with
      | false => exact ⟨.letWord, _, rfl, .inr (.inl rfl)⟩
      | true => exact ⟨.mutableWord, _, rfl, .inr (.inr rfl)⟩

theorem reads_words (definition : Definition) (printable : definition.printable = true)
    (budget : Nat) (small : definition.words.length ≤ budget) (rest : List Word)
    (next : (Word.nth rest 0).1 ≠ .elseWord) :
    Reads (Grammar.definition budget) (definition.words ++ sign .semicolon :: rest)
      (sign .semicolon :: rest) (·.bare = definition.bare) := by
  have inner := expression_readsBack budget
  cases definition with
  | missing => cases printable
  | function defined =>
      simp only [Definition.printable, Bool.and_eq_true, Expr.printableAll_iff] at printable
      obtain ⟨⟨named, distinct⟩, body⟩ := printable
      simp only [words, Expr.wordsAll_eq, List.cons_append, List.length_cons] at small ⊢
      refine .kind_bind (.map _ (.expect_bind fun start _ => .expect_bind fun token spelled => ?_)
        fun read same => same)
      refine .bind (signature_reads inner defined.params defined.body.elements distinct body budget
        (by omega) (by omega) _) ?_
      rintro ⟨names, block⟩ ⟨same, -, same'⟩
      have spelling : token.lexeme = defined.name := congrArg Prod.snd spelled
      have listed : names = defined.params := same
      refine .pure ?_
      simp only [bare, spelling, listed, same']
  | value defined =>
      obtain ⟨spelling, value, mutable, position⟩ := defined
      have shape : (Definition.value ⟨spelling, value, mutable, position⟩).words ++
          sign .semicolon :: rest = Word.declaration mutable ++
            name spelling :: sign .assign :: (value.words ++ sign .semicolon :: rest) := by
        simp [words, ValueDef.declaration, Expr.words]
      simp only [Definition.printable, ValueDef.declaration, Expr.printable, Bool.and_eq_true]
        at printable
      simp only [words, ValueDef.declaration, Expr.words, List.length_append, List.length_cons]
        at small
      have reads := declaration_reads inner spelling mutable value printable.2 (by omega)
        (sign .semicolon :: rest) ⟨rfl, fun _ => ⟨by simp, fun _ => next⟩⟩
      have holds : ∀ read : ValueDef, (read.name = spelling ∧ read.mutable = mutable ∧
          read.value.bare = value.bare) → (Definition.value read).bare =
            (Definition.value ⟨spelling, value, mutable, position⟩).bare := by
        rintro read ⟨rfl, rfl, same⟩
        simp only [bare, same]
      rw [shape]
      cases mutable with
      | true => exact .kind_bind (.map _ reads holds)
      | false => exact .kind_bind (.map _ reads holds)

end Definition

theorem Program.words_head (definitions : List Definition)
    (printable : ∀ definition ∈ definitions, definition.printable = true) :
    (Word.nth (Program.words ⟨definitions⟩) 0).1 ≠ .elseWord ∧
      (Word.nth (Program.words ⟨definitions⟩) 0).1 ≠ .semicolon := by
  cases definitions with
  | nil => exact ⟨by decide, by decide⟩
  | cons definition rest =>
      obtain ⟨kind, more, shape, choice⟩ := definition.words_start (printable definition (by simp))
      rw [words, List.flatMap_cons, shape]
      rcases choice with rfl | rfl | rfl <;> simp

theorem Program.reads_words (definitions : List Definition)
    (printable : ∀ definition ∈ definitions, definition.printable = true) (size budget : Nat)
    (small : (Program.words ⟨definitions⟩).length ≤ size)
    (enough : (Program.words ⟨definitions⟩).length < budget) :
    Reads (elements (Grammar.definition size) budget) (Program.words ⟨definitions⟩) []
      (·.map Definition.bare = definitions.map Definition.bare) := by
  induction definitions generalizing budget with
  | nil =>
      cases budget with
      | zero => cases enough
      | succ budget =>
          refine .bind (skipSemicolons_reads_none budget [] (by decide)) fun _ _ => ?_
          exact .kind_bind (.ite_pos rfl (.pure rfl))
  | cons definition rest ih =>
      have later : ∀ definition ∈ rest, definition.printable = true := fun definition member =>
        printable definition (List.mem_cons_of_mem _ member)
      obtain ⟨kind, more, shape', choice⟩ := definition.words_start (printable definition (by simp))
      have shape : Program.words ⟨definition :: rest⟩ =
          definition.words ++ sign .semicolon :: Program.words ⟨rest⟩ := by
        simp [words]
      rw [shape, List.length_append, List.length_cons] at small enough
      rw [shape]
      cases budget with
      | zero => cases enough
      | succ budget =>
          have proper : (Word.nth (definition.words ++ sign .semicolon :: Program.words ⟨rest⟩) 0).1 ≠
              .semicolon ∧ (Word.nth (definition.words ++ sign .semicolon :: Program.words ⟨rest⟩) 0).1 ≠
              .endOfInput := by
            rw [shape']
            rcases choice with rfl | rfl | rfl <;> simp
          refine .bind (skipSemicolons_reads_none budget _ proper.1) fun _ _ => ?_
          refine .kind_bind (.ite_neg proper.2 (.bind (definition.reads_words
            (printable definition (by simp)) size (by omega) _ (words_head rest later).1)
              fun read same => ?_))
          refine .bind (.kind_bind (Reads.advance _ _)) fun _ _ => ?_
          refine .map _ (ih later budget (by omega) (by omega)) fun others same' => ?_
          rw [List.map_cons, List.map_cons, same, same']

/-- Printing a program and reading the text gives the program back, but for the places of its parts
and the identities of its function bodies. -/
theorem Program.parse_render (program : Program) (printable : program.printable = true) :
    ∃ read, Program.parse (Bytes.ofString program.render) = .ok read ∧ read.bare = program.bare := by
  obtain ⟨stream, started, spells⟩ := program.spells_render printable
  let source := Bytes.ofString program.render
  let budget := budgetOf source + program.words.length + 1
  have parsed := (runOn_steady reader_steady source budget (by omega)).1
  have each := List.all_eq_true.mp printable
  obtain ⟨definitions, rest, read, -, same⟩ := reads_words program.definitions each budget budget
    (by change program.words.length ≤ _; omega) (by change program.words.length < _; omega) stream
    spells
  refine ⟨{ definitions }, ?_, ?_⟩
  · change runOn reader source = _
    rw [parsed, started]
    change ((elements (Grammar.definition budget) budget >>= _) stream >>= _) = _
    rw [bind_of_ok read]
    rfl
  · rw [bare, bare, same]

def Program.sample : Program where
  definitions :=
    [.function {
       name := "step", params := ["n", "to"],
       body := { elements :=
         [.branch (.binary .less (.identifier "n" {}) (.int 3 {}) {})
            (.block [.println (.text (Bytes.ofString "a\"b\n") {}) {}] {})
            (some (.labeledCall "step" [("n", .update .decrement false (.identifier "n" {}) {})] {})) {},
          .set [.bool true {}, .sequence [] {}] {}] } },
     .value { name := "low", value := .int (-7) {}, mutable := true }]

theorem Program.parse_render_sample :
    Program.sample.printable = true ∧
      ∃ read, Program.parse (Bytes.ofString Program.sample.render) = .ok read ∧
        read.bare = Program.sample.bare :=
  ⟨by decide +kernel, Program.parse_render Program.sample (by decide +kernel)⟩

/-! Single expressions. -/

theorem TokenStream.exists_spells {text : String} {words : List Word}
    (lexes : Lexes text.toList words (false, []) (true, []) Apart) :
    ∃ stream, TokenStream.ofSource (Bytes.ofString text) = .ok stream ∧
      stream.Spells (words ++ [sign .semicolon]) := by
  let lexer := Lexer.ofSource (Bytes.ofString text)
  have before : lexer.Before (text.toList ++ []) false [] := by
    rw [List.append_nil]
    exact ⟨rfl, Glyph.decode_ofChars _, rfl, rfl⟩
  obtain ⟨middle, yields, reached⟩ := lexes lexer [] apart_nil before
  obtain ⟨after, yields', reached'⟩ := reached.next_inputEnd
  obtain ⟨token, ends, spelled⟩ := reached'.item_end
  exact (yields.append yields').spells (lexer.sound_of_free rfl) (after.sound_of_free reached'.free)
    ends spelled

theorem Expr.parse_of_stream {source : Bytes} {stream : TokenStream}
    (started : TokenStream.ofSource source = .ok stream) (budget : Nat)
    (larger : budgetOf source ≤ budget) :
    Expr.parse source = (wholeExpression budget stream).map Prod.fst := by
  change runOn wholeExpression source = _
  rw [(runOn_steady wholeExpression_steady source budget larger).1, started]
  change (wholeExpression budget stream >>= _) = _
  cases wholeExpression budget stream <;> rfl

/-- What the words of an expression are read as with every budget that is large enough, that is read
from the text of these words. -/
theorem Expr.exists_parse {text : String} {words : List Word} {means : Expr → Prop}
    (lexes : Lexes text.toList words (false, []) (true, []) Apart)
    (proper : (Word.nth (words ++ [sign .semicolon]) 0).1 ≠ .semicolon) (size : Nat)
    (reads : ∀ budget, size ≤ budget →
      Reads (expression (budget + 2)) (words ++ [sign .semicolon]) [sign .semicolon] means) :
    ∃ read, Expr.parse (Bytes.ofString text) = .ok read ∧ means read := by
  obtain ⟨stream, started, spells⟩ := TokenStream.exists_spells lexes
  let budget := budgetOf (Bytes.ofString text) + size
  have whole : Reads (wholeExpression (budget + 2)) (words ++ [sign .semicolon]) [] means := by
    apply Reads.bind (skipSemicolons_reads_none (budget + 1) _ proper)
    intro _ _
    apply Reads.bind (reads budget (Nat.le_add_left _ _))
    intro read holds
    apply Reads.bind (skipSemicolons_reads_one budget [] (by decide))
    intro _ _
    exact .kind_bind (.ite_pos rfl (.pure holds))
  obtain ⟨read, rest, done, -, holds⟩ := whole stream spells
  refine ⟨read, ?_, holds⟩
  rw [parse_of_stream started (budget + 2) (by omega), done]
  rfl

theorem Expr.exists_parse_render (expr : Expr) (printable : expr.printable = true) :
    ∃ read, Expr.parse (Bytes.ofString expr.render) = .ok read ∧ read.bare = expr.bare := by
  have before : expr.Before [sign .semicolon] := ⟨rfl, fun _ => ⟨by decide, fun _ => by decide⟩⟩
  apply exists_parse (expr.lexes_render printable (false, []))
    (expr.words_head printable _ rfl) expr.words.length
  intro budget large
  exact (expression_readsBack (budget + 2)).whole expr printable (by omega) _ before

end Koy
