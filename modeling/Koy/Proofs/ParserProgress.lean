import Koy.Proofs.Budget
import Koy.Proofs.Pace

/-! Reading terminates. What a reader yields is made of tokens that it has dropped from its stream, no
repetition goes on without dropping a token in each round, and the lexer is not asked again once it has
handed out the end token. So the budget that the length of a source text gives is never used up. -/

namespace Koy

open Parse Grammar StreamCall

namespace TokenStream

variable {stream middle after : TokenStream} {calls : List StreamCall}

/-- The tokens of the stream without the first `count` of them, all of which come before its end. -/
structure Drops (stream : TokenStream) (count : Nat) (after : TokenStream) : Prop where
  item (n : Nat) : after.item n = stream.item (count + n)
  proper (i : Nat) : i < count → ∃ token, stream.item i = .ok token ∧ token.kind ≠ .endOfInput

theorem drops_of_performAll (made : stream.performAll calls = .ok after)
    (before : stream.BeforeEnd calls) : stream.Drops (steps calls) after := by
  refine ⟨item_of_performAll made, fun i inside => ?_⟩
  induction calls generalizing stream i with
  | nil => exact absurd inside (Nat.not_lt_zero i)
  | cons call calls ih =>
      obtain ⟨here, later⟩ := before
      obtain ⟨middle, first, rest⟩ := performAll_cons_ok.mp made
      have passed := ih rest (later middle first)
      cases call with
      | peek n =>
          rw [← same_of_perform_peek first i]
          exact passed i inside
      | advance =>
          cases i with
          | zero => exact ⟨stream.current, rfl, here⟩
          | succ i =>
              rw [← item_of_advance first]
              rw [steps_advance] at inside
              exact passed i (Nat.lt_of_succ_lt_succ inside)

theorem not_tooDeep_of_performAll {error : SyntaxError}
    (failed : stream.performAll calls = .error error) : error.cause ≠ .tooDeep := by
  induction calls generalizing stream with
  | nil => cases failed
  | cons call calls ih =>
      rw [performAll] at failed
      cases made : stream.perform call with
      | ok middle =>
          rw [made] at failed
          exact ih failed
      | error found =>
          rw [made] at failed
          cases failed
          cases call with
          | advance => exact TokenStream.not_tooDeep_of_item (advance_error.mp made)
          | peek n =>
              rw [perform] at made
              cases peeked : stream.peek n with
              | ok seen =>
                  rw [peeked] at made
                  cases made
              | error error =>
                  rw [peeked] at made
                  cases made
                  exact TokenStream.not_tooDeep_of_item (peek_error peeked)

end TokenStream

/-- Whatever the reader yields, it has dropped a token for it. -/
def Takes {α : Type} (reader : Parse α) : Prop :=
  ∀ stream value after, reader stream = .ok (value, after) →
    ∃ count > 0, stream.Drops count after

/-- Before the reader is out of its budget it has made calls that drop so many tokens. -/
def TakesEachRound {α : Type} (rounds : Nat) (reader : Parse α) : Prop :=
  ∀ stream error, reader stream = .error error → error.cause = .tooDeep →
    ∃ calls after, Makes reader stream calls ∧ stream.performAll calls = .ok after ∧
      ∃ count ≥ rounds, stream.Drops count after

/-- Where the end token has been handed out, the reader asks no lexer for a token: with any other in the
place of its own it does the same, and leaves that as it was. -/
def AsksNoMore {α : Type} (reader : Parse α) : Prop :=
  ∀ stream lexer, stream.Ended →
    reader (stream.exchange lexer) = (reader stream).map (Prod.map id (·.exchange lexer))

section

variable {α : Type} {bound : Nat} {reader : Parse α} {post : α → Nat → Prop}

theorem Paced.exists_run (paced : ∀ items, Paced items bound 0 reader post) (stream : TokenStream) :
    ∃ calls, Run bound 0 reader post stream calls :=
  paced stream.item stream fun i => by rw [Nat.zero_add]

theorem takes_of_paced (paced : ∀ items, Paced items bound 0 reader fun _ m => 0 < m) :
    Takes reader := by
  intro stream value after read
  obtain ⟨calls, run⟩ := Paced.exists_run paced stream
  have made := run.makes.leavesAs.ok value after read
  have taken := run.takes value after read
  rw [Nat.zero_add] at taken
  exact ⟨steps calls, taken, TokenStream.drops_of_performAll made run.before⟩

theorem takesEachRound_of_paced (paced : ∀ items, Paced items bound 0 reader post) :
    TakesEachRound bound reader := by
  intro stream error failed spent
  obtain ⟨calls, run⟩ := Paced.exists_run paced stream
  have far := run.spends error failed spent
  rw [Nat.zero_add] at far
  -- The budget is no affair of the stream: all of the calls have been made.
  rcases run.makes.leavesAs.error error failed with refused | ⟨after, made⟩
  · exact absurd spent (TokenStream.not_tooDeep_of_performAll refused)
  · refine ⟨calls, after, run.makes, made, steps calls, far, ?_⟩
    exact TokenStream.drops_of_performAll made run.before

theorem asksNoMore_of_paced (paced : ∀ items, Paced items bound 0 reader post) :
    AsksNoMore reader := by
  intro stream lexer closed
  obtain ⟨calls, run⟩ := Paced.exists_run paced stream
  exact run.makes.exchange run.before closed lexer

end

namespace Grammar

/-- The readers of expressions, of operands, of blocks and of definitions. Nested expressions go down
to a depth, and repetitions have a budget. -/
inductive Phrase (depth budget : Nat) : {α : Type} → Parse α → Prop where
  | expression : Phrase depth budget (expression depth)
  | assignment : Phrase depth budget (assignment (expression depth))
  | declaration : Phrase depth budget (declaration (expression depth))
  | joined (tighter : List Level) (listed : ∀ level ∈ tighter, level ∈ levels) :
      Phrase depth budget (joined (expression depth) budget tighter)
  | unary : Phrase depth budget (unary (expression depth) budget)
  | updated : Phrase depth budget (primary (expression depth) budget >>= updates budget)
  | primary : Phrase depth budget (primary (expression depth) budget)
  | call : Phrase depth budget (call (expression depth) budget)
  | parenthesized : Phrase depth budget (parenthesized (expression depth))
  | sequence : Phrase depth budget (bracketed (expression depth) .openBracket .closeBracket budget)
  | set : Phrase depth budget (bracketed (expression depth) .openSet .closeBrace budget)
  | mapping : Phrase depth budget (mapping (expression depth) budget)
  | block : Phrase depth budget (braced (expression depth) budget)
  | branch : Phrase depth budget (branch (expression depth))
  | loop : Phrase depth budget (loop (expression depth))
  | signature : Phrase depth budget (signature (expression depth) budget)
  | functionDef : Phrase depth budget (functionDef budget)
  | definition : Phrase depth budget (definition budget)
  | entry : Phrase depth budget (entry budget)

/-- The repetitions of the grammar, by the number of rounds that they may make. The expressions in
them go down to a depth. -/
inductive Repetition (depth : Nat) : {ι α : Type} → (Nat → ι → Parse α) → Prop where
  | definitions : Repetition depth fun rounds (_ : Unit) => elements (definition depth) rounds
  | entries : Repetition depth fun rounds (_ : Unit) => elements (entry depth) rounds
  | semicolons : Repetition depth fun rounds (_ : Unit) => skipSemicolons rounds
  | blockElements :
      Repetition depth fun rounds (_ : Unit) => blockElements (expression depth) rounds
  | items (close : TokenKind) :
      Repetition depth fun rounds (_ : Unit) => items (expression depth) close rounds
  | mappingEntries :
      Repetition depth fun rounds (_ : Unit) => mappingEntries (expression depth) rounds
  | arguments : Repetition depth fun rounds (_ : Unit) => arguments (expression depth) rounds
  | labeledArguments : Repetition depth (labeledArguments (expression depth))
  | paramNames : Repetition depth paramNames
  | chain (level : Level) (tighter : List Level)
      (listed : ∀ member ∈ level :: tighter, member ∈ levels) :
      Repetition depth (chain (joined (expression depth) (depth + 1) tighter) level)
  | updates : Repetition depth updates

inductive EntryPoint :
    {α : Type} → (Bytes → Except SyntaxError α) → (Nat → Parse α) → Prop where
  | program : EntryPoint Program.parse Program.reader
  | expression : EntryPoint Expr.parse wholeExpression
  | interactive : EntryPoint Entry.parseAll Entry.reader

/-- The answers of the lexer while the stream of a source text is opened and calls are made on it. -/
def answersTo (source : Bytes) (calls : List StreamCall) : List (Except SyntaxError Token) :=
  match TokenStream.ofSource source with
  | .ok start => .ok start.current :: start.allAnswers calls
  | .error error => [.error error]

theorem last_of_answersTo {source : Bytes} {calls : List StreamCall} {i : Nat} {token : Token}
    (drawn : answersTo source calls <+: Lexer.readAll source 0)
    (answer : (answersTo source calls)[i]? = some (.ok token)) (ended : token.kind = .endOfInput) :
    i + 1 = (answersTo source calls).length := by
  obtain ⟨tokens, last, passes, final⟩ := Lexer.exists_passes (Lexer.ofSource source)
  have inside := (List.getElem?_eq_some_iff.mp answer).1
  have short := drawn.length_le
  have held := List.prefix_iff_getElem?.mp drawn i inside
  rw [Lexer.readAll_of_passes passes final] at short held
  rw [List.length_append, List.length_map, List.length_singleton] at short
  have late : ¬ i < tokens.length := by
    intro early
    rw [← List.getElem?_eq_getElem inside, answer, List.getElem?_append_left (by rwa [List.length_map]),
      List.getElem?_map, List.getElem?_eq_getElem early] at held
    cases held
    exact passes.proper _ (List.getElem_mem early) ended
  omega

theorem Phrase.paced {depth budget : Nat} {α : Type} {reader : Parse α}
    (phrase : Phrase depth budget reader) (items : Items) :
    Paced items 0 0 reader fun _ m => 0 < m := by
  let logic := (Paced.unary items 0).logic
  have trivial : Productions items id _ := Productions.trivial
  have inner := expression_holds logic trivial (Nat.le_refl depth)
  have free (n : Nat) : 0 ≤ n := Nat.zero_le n
  have same := Nat.le_refl budget
  have taken {part : α → α → Nat → Prop}
      (holds : logic.Holds 0 reader reader fun a b m => 0 < m ∧ part a b m) :
      Paced items 0 0 reader fun _ m => 0 < m :=
    (Paced.unary items 0).weaken holds fun _ _ ⟨_, lt, _⟩ => lt
  cases phrase with
  | expression => exact taken (inner 0 (free _))
  | assignment => exact taken (assignment_holds logic inner trivial (free _))
  | declaration => exact taken (declaration_holds logic inner (free _))
  | joined tighter listed => exact taken (joined_holds logic inner trivial listed same 0 (free _))
  | unary => exact taken (unary_holds logic inner trivial same 0 (free _))
  | updated =>
      refine taken (?_ : logic.Holds 0 _ _ fun _ _ m => 0 < m ∧ True)
      refine logic.bind (primary_holds logic inner trivial (free _) (free _) same) ?_
      intro a b n _ given
      refine logic.weaken (updates_holds logic trivial 0 given.2 (free _) same) fun _ _ m le met => ?_
      exact ⟨Nat.lt_of_lt_of_le given.1 le, met⟩
  | primary => exact taken (primary_holds logic inner trivial (free _) (free _) same)
  | call => exact taken (call_holds logic inner trivial (free _) (free _) same)
  | parenthesized => exact taken (parenthesized_holds logic inner (free _))
  | sequence =>
      exact taken (bracketed_holds logic inner _ _ (by decide) (by decide) (free _) (free _) same)
  | set =>
      exact taken (bracketed_holds logic inner _ _ (by decide) (by decide) (free _) (free _) same)
  | mapping => exact taken (mapping_holds logic inner trivial (free _) (free _) same)
  | block => exact taken (braced_holds logic inner (free _) (free _) same)
  | branch => exact taken (branch_holds logic inner trivial (free _))
  | loop => exact taken (loop_holds logic inner trivial (free _))
  | signature => exact taken (signature_holds logic inner (free _) (free _) same)
  | functionDef => exact taken (functionDef_holds logic trivial same 0 (free _))
  | definition => exact taken (definition_holds logic trivial same 0 (free _))
  | entry => exact taken (entry_holds logic trivial same 0 (free _))

theorem Repetition.paced {depth : Nat} {ι α : Type} {repeated : Nat → ι → Parse α}
    (repetition : Repetition depth repeated) (rounds : Nat) (state : ι) (items : Items) :
    Paced items (min depth rounds) 0 (repeated rounds state) fun _ _ => True := by
  let logic := (Paced.unary items (min depth rounds)).logic
  have trivial : Productions items id _ := Productions.trivial
  have inner := expression_holds logic trivial (Nat.le_refl depth)
  have deep : min depth rounds ≤ 0 + depth := by omega
  have wide : min depth rounds ≤ 0 + rounds := by omega
  have same := Nat.le_refl rounds
  have any {post : α → α → Nat → Prop}
      (holds : logic.Holds 0 (repeated rounds state) (repeated rounds state) post) :
      Paced items (min depth rounds) 0 (repeated rounds state) fun _ _ => True :=
    (Paced.unary items _).weaken holds fun _ _ _ => True.intro
  cases repetition with
  | definitions =>
      have each := definition_holds logic trivial (Nat.le_refl depth)
      exact any (elements_holds logic each deep wide same)
  | entries =>
      have each := entry_holds logic trivial (Nat.le_refl depth)
      exact any (elements_holds logic each deep wide same)
  | semicolons => exact any (skipSemicolons_holds logic wide same)
  | blockElements => exact any (blockElements_holds logic inner deep wide same)
  | items close => exact any (items_holds logic inner close deep wide same)
  | mappingEntries => exact any (mappingEntries_holds logic inner deep wide same)
  | arguments => exact any (arguments_holds logic inner deep wide same)
  | labeledArguments => exact any (labeledArguments_holds logic inner state deep wide same)
  | paramNames => exact any (paramNames_holds logic state wide same)
  | chain level tighter listed =>
      obtain ⟨here, others⟩ := List.forall_mem_cons.mp listed
      have operand := joined_holds logic inner trivial others (Nat.le_refl (depth + 1))
      exact any (chain_holds logic trivial operand here 0 True.intro (by omega) wide same)
  | updates => exact any (updates_holds logic trivial 0 True.intro wide same)

namespace EntryPoint

variable {α : Type} {parse : Bytes → Except SyntaxError α} {reader : Nat → Parse α}

theorem parse_eq (entryPoint : EntryPoint parse reader) : parse = runOn reader := by
  cases entryPoint <;> rfl

theorem steady (entryPoint : EntryPoint parse reader) {budget budget' : Nat} {stream : TokenStream}
    (larger : budget ≤ budget') (within : stream.Within budget) :
    Steady stream (reader budget) (reader budget') := by
  cases entryPoint with
  | program => exact Program.reader_steady larger within
  | expression => exact wholeExpression_steady larger within
  | interactive => exact Entry.reader_steady larger within

theorem paced (entryPoint : EntryPoint parse reader) (budget : Nat) (items : Items) :
    Paced items 0 0 (reader budget) fun _ _ => True := by
  let logic := (Paced.unary items 0).logic
  have trivial : Productions items id _ := Productions.trivial
  have same := Nat.le_refl budget
  have any {post : α → α → Nat → Prop}
      (holds : logic.Holds 0 (reader budget) (reader budget) post) :
      Paced items 0 0 (reader budget) fun _ _ => True :=
    (Paced.unary items 0).weaken holds fun _ _ _ => True.intro
  cases entryPoint with
  | program => exact any (Program.reader_holds logic trivial (Nat.zero_le _) same)
  | expression => exact any (wholeExpression_holds logic trivial (Nat.zero_le _) same)
  | interactive => exact any (Entry.reader_holds logic trivial (Nat.zero_le _) same same)

theorem exists_calls (entryPoint : EntryPoint parse reader) (source : Bytes) (budget : Nat) :
    ∃ calls,
      (∀ start, TokenStream.ofSource source = .ok start → Makes (reader budget) start calls) ∧
      answersTo source calls <+: Lexer.readAll source 0 := by
  cases started : TokenStream.ofSource source with
  | error error =>
      have stepped : (Lexer.ofSource source).next.1 = .error error :=
        TokenStream.ofLexer_error.mp started
      have drawn : Lexer.Draws (Lexer.ofSource source) [.error error] (.error error) :=
        .failed (Prod.ext stepped rfl)
      refine ⟨[], fun _ opened => (nomatch opened), ?_⟩
      rw [answersTo, started]
      exact drawn.isPrefix
  | ok start =>
      obtain ⟨calls, run⟩ := Paced.exists_run (entryPoint.paced budget) start
      refine ⟨calls, fun _ same => by cases same; exact run.makes, ?_⟩
      rw [answersTo, started]
      exact TokenStream.answers_isPrefix started run.before

end EntryPoint

/-- Reading terminates. Whatever a reader of expressions, of operands, of blocks or of definitions
yields, it has dropped a token for it. A repetition drops a token in each round: where it would begin
another than the rounds that it may make, or comes to an expression that is nested too deep, it has
dropped at least so many tokens. Neither asks for a token once the end token has been handed out.
Reading a source text is never refused for want of budget, and with any larger budget comes to the
same; and what it asks of the lexer is answered with the first of the tokens that the source holds up
to its end token or a fault, after which it asks for nothing. -/
theorem reading_terminates :
    (∀ (depth budget : Nat) (α : Type) (reader : Parse α), Phrase depth budget reader →
      Takes reader ∧ AsksNoMore reader) ∧
    (∀ (depth : Nat) (ι α : Type) (repeated : Nat → ι → Parse α), Repetition depth repeated →
      ∀ rounds state, TakesEachRound (min depth rounds) (repeated rounds state) ∧
        AsksNoMore (repeated rounds state)) ∧
    ∀ (α : Type) (parse : Bytes → Except SyntaxError α) (reader : Nat → Parse α),
      EntryPoint parse reader → ∀ source,
        (∀ error, parse source = .error error → error.cause ≠ .tooDeep) ∧
        (∀ budget, budgetOf source ≤ budget → parse source = runOn (fun _ => reader budget) source) ∧
        (∃ calls,
          (∀ start, TokenStream.ofSource source = .ok start →
            Makes (reader (budgetOf source)) start calls) ∧
          answersTo source calls <+: Lexer.readAll source 0 ∧
          ∀ i token, (answersTo source calls)[i]? = some (.ok token) → token.kind = .endOfInput →
            i + 1 = (answersTo source calls).length) ∧
        AsksNoMore (reader (budgetOf source)) := by
  refine ⟨?phrases, ?repetitions, ?entryPoints⟩
  case phrases =>
    intro depth budget α reader phrase
    exact ⟨takes_of_paced phrase.paced, asksNoMore_of_paced phrase.paced⟩
  case repetitions =>
    intro depth ι α repeated repetition rounds state
    have paced := repetition.paced rounds state
    exact ⟨takesEachRound_of_paced paced, asksNoMore_of_paced paced⟩
  case entryPoints =>
    intro α parse reader entryPoint source
    obtain ⟨calls, makes, drawn⟩ := entryPoint.exists_calls source (budgetOf source)
    refine ⟨?_, fun budget larger => ?_, ⟨calls, makes, drawn, ?_⟩,
      asksNoMore_of_paced (entryPoint.paced _)⟩
    · rw [entryPoint.parse_eq]
      exact (runOn_steady entryPoint.steady source _ (Nat.le_refl _)).2
    · rw [entryPoint.parse_eq]
      exact (runOn_steady entryPoint.steady source budget larger).1
    · exact fun i token => last_of_answersTo drawn

theorem reading_terminates_sample :
    let source := Bytes.ofString "1, 2, 3"
    ∃ start, TokenStream.ofSource source = .ok start ∧
      (∃ value after, expression 9 start = .ok (value, after) ∧
        ∃ count > 0, start.Drops count after) ∧
      (∃ error, arguments (expression 9) 2 start = .error error ∧ error.cause = .tooDeep ∧
        ∃ after, ∃ count ≥ 2, start.Drops count after) ∧
      ∃ error, Expr.parse source = .error error ∧ error.cause ≠ .tooDeep := by
  intro source
  have seen : (TokenStream.ofSource source).toOption.map (fun start =>
      ((expression 9 start).toOption.isSome,
        match arguments (expression 9) 2 start with
        | .error error => decide (error.cause = .tooDeep)
        | .ok _ => false)) = some (true, true) := by
    decide +kernel
  have refused : (Expr.parse source).toOption = none := by decide +kernel
  obtain ⟨phrases, repetitions, entryPoints⟩ := reading_terminates
  cases started : TokenStream.ofSource source with
  | error error =>
      rw [started] at seen
      cases seen
  | ok start =>
      rw [started] at seen
      obtain ⟨succeeds, spends⟩ := Prod.mk.inj (Option.some.inj seen)
      refine ⟨start, rfl, ?expression, ?arguments, ?whole⟩
      case expression =>
        cases read : expression 9 start with
        | error error =>
            rw [read] at succeeds
            cases succeeds
        | ok pair =>
            obtain ⟨takes, -⟩ := phrases 9 9 Expr (expression 9) .expression
            exact ⟨pair.1, pair.2, rfl, takes start pair.1 pair.2 read⟩
      case arguments =>
        cases read : arguments (expression 9) 2 start with
        | ok pair =>
            rw [read] at spends
            cases spends
        | error error =>
            rw [read] at spends
            have spent : error.cause = .tooDeep := of_decide_eq_true spends
            obtain ⟨rounds, -⟩ := repetitions 9 Unit (List Expr) _ .arguments 2 ()
            obtain ⟨calls, after, -, -, dropped⟩ := rounds start error read spent
            exact ⟨error, rfl, spent, after, dropped⟩
      case whole =>
        obtain ⟨roomy, -⟩ := entryPoints Expr Expr.parse wholeExpression .expression source
        cases read : Expr.parse source with
        | ok value =>
            rw [read] at refused
            cases refused
        | error error => exact ⟨error, rfl, roomy error read⟩

end Grammar

end Koy
