import Koy.Proofs.Parallel

/-! The budget of a reader is never used up. A source text has fewer tokens than its budget, every
repetition and every nested expression takes a token, and so a larger budget changes nothing. -/

namespace Koy

open Parse Grammar

/-- The input ends, or a fault stands, among the next `n` tokens of a stream. -/
structure TokenStream.Within (stream : TokenStream) (n : Nat) : Prop where
  sound : stream.Sound
  ends : ∃ i < n, ∀ token, stream.item i = .ok token → token.kind = .endOfInput

theorem TokenStream.Within.mono {stream : TokenStream} {n m : Nat} (within : stream.Within n)
    (le : n ≤ m) : stream.Within m := by
  obtain ⟨i, lt, stops⟩ := within.ends
  exact ⟨within.sound, i, Nat.lt_of_lt_of_le lt le, stops⟩

theorem ofSource_within {source : Bytes} {stream : TokenStream}
    (started : TokenStream.ofSource source = .ok stream) : stream.Within (budgetOf source) := by
  refine ⟨TokenStream.sound_ofSource started, ?_⟩
  obtain ⟨i, le, stops⟩ := (Lexer.ofSource source).exists_end
  have short := Lexer.weight_ofSource_le source
  refine ⟨i, ?_, ?_⟩
  · rw [budgetOf]
    omega
  · rw [TokenStream.ofLexer_ok started]
    exact stops

theorem exists_stream (source : Bytes) (n : Nat) (token : Token)
    (found : (Lexer.ofSource source).item n = .ok token) :
    ∃ stream, TokenStream.ofSource source = .ok stream ∧ stream.Sound ∧
      ∀ n, stream.item n = (Lexer.ofSource source).item n := by
  cases started : TokenStream.ofSource source with
  | error error =>
      rw [Lexer.item_of_error (TokenStream.ofLexer_error.mp started)] at found
      cases found
  | ok stream =>
      exact ⟨stream, rfl, (ofSource_within started).sound, TokenStream.ofLexer_ok started⟩

/-! Two budgets. -/

/-- Every logic of readers that has its bound within the budget shows that the second reader yields what
the first does, moved. -/
def Parse.Relocates {α : Type} (move : Position → Position) (budget : Nat) (change : α → α)
    (reader other : Parse α) : Prop :=
  ∀ (items : Items) (bound : Nat) (logic : Logic items (Token.relocate move) bound),
    bound ≤ budget → logic.Holds 0 reader other fun a b _ => b = change a

section

variable {move : Position → Position} {budget budget' room : Nat}

theorem Program.reader_relocates (larger : budget ≤ budget') :
    Relocates move budget (Program.relocate move) (reader budget) (reader budget') := by
  intro items bound logic wide
  have holds := reader_holds logic MovedTree.productions wide larger
  refine logic.weaken holds fun a b m _ given => ?_
  exact congrArg Program.mk (given.1.eq_map fun _ _ _ _ part => (MovedTree.topLevel part).1)

theorem Entry.elements_relocates (larger : budget ≤ budget') (longer : budget ≤ room) :
    Relocates move budget (List.map (Entry.relocate move)) (reader budget)
      (elements (entry budget') room) := by
  intro items bound logic wide
  have holds := reader_holds logic MovedTree.productions wide larger longer
  exact logic.weaken holds fun as bs m _ given =>
    given.1.eq_map fun _ _ _ _ part => (MovedTree.entered part).1

theorem Grammar.wholeExpression_relocates (larger : budget ≤ budget') :
    Relocates move budget (Expr.relocate move) (wholeExpression budget) (wholeExpression budget') := by
  intro items bound logic wide
  refine logic.weaken (wholeExpression_holds logic MovedTree.productions wide larger) ?_
  rintro a b _ _ ⟨n, m, same, -⟩
  exact same

end

theorem Parse.Relocates.on {α : Type} {shift : Shift} {budget : Nat} {change : α → α}
    {reader other : Parse α} (relocates : Relocates shift.move budget change reader other)
    {stream : TokenStream} (within : stream.Within budget) :
    other (stream.relocate shift.move) =
        relocateResult shift.move (Prod.map change (TokenStream.relocate shift.move)) (reader stream) ∧
      ∀ error, reader stream = .error error → error.cause ≠ .tooDeep := by
  obtain ⟨stop, small, ended⟩ := within.ends
  have parallel : Parallel shift stream.item stop 0 reader other fun a b _ => b = change a :=
    relocates _ _ (Parallel.logic shift ended) small
  have together := parallel (Nat.zero_le stop) stream within.sound.standsAt
  generalize reader stream = result at together ⊢
  generalize other (stream.relocate shift.move) = result' at together ⊢
  cases together with
  | refused error roomy =>
      refine ⟨rfl, fun found refused => ?_⟩
      cases refused
      exact roomy
  | reached le before stands same =>
      rw [same]
      exact ⟨rfl, fun found refused => nomatch refused⟩

structure Steady {α : Type} (stream : TokenStream) (reader other : Parse α) : Prop where
  agrees : reader stream = other stream
  roomy : ∀ error, reader stream = .error error → error.cause ≠ .tooDeep

theorem Parse.Relocates.steady {α : Type} {budget : Nat} {change : α → α} {reader other : Parse α}
    (relocates : Relocates id budget change reader other) (still : ∀ value, change value = value)
    {stream : TokenStream} (within : stream.Within budget) : Steady stream reader other := by
  have unmoved : (⟨0, 0⟩ : Shift).move = id := rfl
  rw [← unmoved] at relocates
  obtain ⟨same, roomy⟩ := relocates.on within
  refine ⟨?_, roomy⟩
  rw [unmoved, TokenStream.relocate_id] at same
  rw [same]
  cases reader stream with
  | error error => rw [relocateResult, SyntaxError.relocate_id]
  | ok pair => rw [relocateResult, Prod.map, still, TokenStream.relocate_id]

section

variable {budget budget' : Nat} {stream : TokenStream} (larger : budget ≤ budget')
  (within : stream.Within budget)

include larger within

theorem Program.reader_steady : Steady stream (reader budget) (reader budget') :=
  (reader_relocates larger).steady Program.relocate_id within

theorem Entry.elements_steady {room : Nat} (longer : budget ≤ room) :
    Steady stream (reader budget) (elements (entry budget') room) := by
  refine (elements_relocates larger longer).steady (fun entries => ?_) within
  rw [funext Entry.relocate_id]
  exact List.map_id entries

theorem Entry.reader_steady : Steady stream (reader budget) (reader budget') :=
  elements_steady larger within larger

theorem Grammar.wholeExpression_steady :
    Steady stream (wholeExpression budget) (wholeExpression budget') :=
  (wholeExpression_relocates larger).steady Expr.relocate_id within

end

/-- Reading a source text with the budget computed for it never fails for want of budget, and any
larger budget gives the same result. -/
theorem runOn_steady {α : Type} {reader : Nat → Parse α}
    (steady : ∀ {budget budget' stream}, budget ≤ budget' → stream.Within budget →
      Steady stream (reader budget) (reader budget'))
    (source : Bytes) (budget : Nat) (larger : budgetOf source ≤ budget) :
    runOn reader source = (do
        let stream ← TokenStream.ofSource source
        let (result, _) ← (reader budget).run stream
        return result) ∧
      ∀ error, runOn reader source = .error error → error.cause ≠ .tooDeep := by
  constructor
  · unfold runOn
    cases started : TokenStream.ofSource source with
    | error error => rfl
    | ok stream =>
        have same := steady larger (ofSource_within started)
        change (reader (budgetOf source) stream >>= fun pair => _) = (reader budget stream >>= _)
        rw [← same.agrees]
  · intro error refused
    rcases refused_of_runOn refused with failed | ⟨stream, started, refused⟩
    · obtain ⟨fault, lexical⟩ := Lexer.lexical_of_item _ _ error failed
      rw [lexical]
      simp
    · have same := steady larger (ofSource_within started)
      exact same.roomy error refused

end Koy
