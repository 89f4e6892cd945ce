import Koy.Proofs.Arriving
import Koy.Proofs.Budget
import Koy.Proofs.Places

/-! Positions are true. Every place that the lexer hands out or reports, and every place at which a
reader refuses a text, is the place behind some beginning of the source: its offset, its line and its
column are what counting from the start of the text gives. -/

namespace Koy

variable {source : Bytes}

theorem Lexer.item_trueIn {lexer : Lexer} (placed : Placed source lexer) (n : Nat) :
    (placeOf (lexer.item n)).TrueIn source := by
  induction n generalizing lexer with
  | zero => exact (placed.step (next_step lexer)).trueIn
  | succ n ih =>
      rw [item]
      split
      · rename_i token after stepped
        exact ih (placed.step (step_of_next lexer _ _ stepped)).placed
      · rename_i error after stepped
        exact (placed.step (step_of_next lexer _ _ stepped)).trueIn

theorem Lexer.item_position_trueIn {n : Nat} {token : Token}
    (found : (ofSource source).item n = .ok token) : token.position.TrueIn source := by
  have place := item_trueIn (placed_ofSource source) n
  rwa [found] at place

theorem Lexer.fault_trueIn (n : Nat) (error : SyntaxError)
    (failed : (ofSource source).item n = .error error) : error.position.TrueIn source := by
  have place := item_trueIn (placed_ofSource source) n
  rwa [failed] at place

/-- The report of the error, whatever name the source has, gives the line and the column of a true
place. -/
structure SyntaxError.LocatedIn (source : Bytes) (error : SyntaxError) : Prop where
  place : error.position.TrueIn source
  report (name : String) : error.message name =
    name ++ ":" ++ Position.text error.position.line error.position.column ++ ": " ++
      error.cause.message

theorem SyntaxError.locatedIn {error : SyntaxError} (place : error.position.TrueIn source) :
    error.LocatedIn source :=
  ⟨place, fun _ => rfl⟩

open Grammar Parse

theorem Grammar.locatedIn_of_runOn {α : Type} {reader : Nat → Parse α} {error : SyntaxError}
    (holds : ∀ {items} (logic : Logic items id 0) (budget : Nat),
      logic.Holds 0 (reader budget) (reader budget) fun _ _ _ => True)
    (refused : runOn reader source = .error error) : error.LocatedIn source := by
  apply SyntaxError.locatedIn
  rcases refused_of_runOn refused with failed | ⟨stream, opened, refused⟩
  · exact Lexer.fault_trueIn 0 error failed
  · have arrives : Arrives (Lexer.ofSource source).item (·.position.TrueIn source) 0
        (reader (budgetOf source)) _ :=
      holds (Arrives.unary Lexer.fault_trueIn fun _ _ _ found => Lexer.item_position_trueIn found).logic
        (budgetOf source)
    exact arrives.refuses stream error (TokenStream.ofSource_standsAt opened) refused

theorem Program.locatedIn_of_parse {error : SyntaxError} (refused : Program.parse source = .error error) :
    error.LocatedIn source := by
  apply locatedIn_of_runOn (fun logic budget => ?_) refused
  have holds := reader_holds logic Productions.trivial (Nat.zero_le budget) (Nat.le_refl budget)
  exact logic.weaken holds fun _ _ _ _ _ => True.intro

theorem Expr.locatedIn_of_parse {error : SyntaxError} (refused : Expr.parse source = .error error) :
    error.LocatedIn source := by
  apply locatedIn_of_runOn (fun logic budget => ?_) refused
  have holds := wholeExpression_holds logic Productions.trivial (Nat.zero_le budget)
    (Nat.le_refl budget)
  exact logic.weaken holds fun _ _ _ _ _ => True.intro

theorem Entry.locatedIn_of_parseAll {error : SyntaxError}
    (refused : Entry.parseAll source = .error error) : error.LocatedIn source := by
  apply locatedIn_of_runOn (fun logic budget => ?_) refused
  have larger := Nat.le_refl budget
  have holds := reader_holds logic Productions.trivial (Nat.zero_le budget) larger larger
  exact logic.weaken holds fun _ _ _ _ _ => True.intro

/-- Positions are true. However often the lexer is called, on after its faults too, it stands at a true
place, and so does each token and each fault that a call gives. A token is written at its place, or it
is a semicolon at the place of the token handed out before it, or it ends the input; a character that
is refused stands at the place of the fault. Tokens come in the order of their places, and no two
that are written share one. A reader that refuses the source names a true place. -/
theorem Lexer.positions_true (source : Bytes) :
    (∀ n, (afterCalls source n).position.TrueIn source) ∧
    (∀ n token, call source n = .ok token → token.position.TrueIn source ∧
      (token.WrittenIn source ∨
        (∃ m before, Latest source m n before ∧ token = semicolonAfter before) ∨
        token.kind = .endOfInput ∧ token.position.offset = source.length)) ∧
    (∀ n error, call source n = .error error → error.LocatedIn source ∧
      ∀ fault, error.cause = .lexical fault → fault.isIllegal = true →
        ∃ c, fault.refused? = some c ∧ Bytes.ofChars [c] <+: source.drop error.position.offset) ∧
    (∀ i j first second, i < j → call source i = .ok first → call source j = .ok second →
      first.position.offset ≤ second.position.offset ∧
        (first.WrittenIn source → second.WrittenIn source →
          first.position.offset < second.position.offset)) ∧
    ∀ error, Program.parse source = .error error ∨ Expr.parse source = .error error ∨
      Entry.parseAll source = .error error → error.LocatedIn source := by
  have placed := placed_afterCalls source
  have place {n : Nat} {result : Except SyntaxError Token} (given : call source n = result) :
      (placeOf result).TrueIn source :=
    given ▸ (advances_call source n).trueIn
  refine ⟨fun n => (placed n).within.trueIn, ?tokens, ?faults, ?order, ?readers⟩
  case tokens =>
    intro n token handed
    refine ⟨place handed, ?_⟩
    cases hands_call source handed with
    | written written => exact .inl written
    | ended kind reached => exact .inr (.inr ⟨kind, reached⟩)
    | supplied before ends =>
        obtain ⟨m, latest⟩ := latest_of_last source (last_of_statementEnd? ends)
        exact .inr (.inl ⟨m, before, latest, rfl⟩)
  case faults =>
    intro n error failed
    refine ⟨SyntaxError.locatedIn (place failed), ?_⟩
    intro fault cause illegal
    rw [fault.isIllegal_eq] at illegal
    obtain ⟨c, refused⟩ := Option.isSome_iff_exists.mp illegal
    have step : Step (afterCalls source n) (.error error) (afterCalls source (n + 1)) :=
      failed ▸ step_call source n
    exact ⟨c, refused, step.refused (placed n).within cause refused⟩
  case order =>
    intro i j first second order handed handed'
    exact ⟨offset_le_of_lt source order handed handed',
      offset_lt_of_lt source order handed handed'⟩
  case readers =>
    intro error refused
    rcases refused with refused | refused | refused
    · exact Program.locatedIn_of_parse refused
    · exact Expr.locatedIn_of_parse refused
    · exact Entry.locatedIn_of_parseAll refused

theorem Lexer.positions_true_sample :
    let source := Bytes.ofString "é\n x # y"
    let x : Token := ⟨.identifier, "x", ⟨4, 2, 2⟩⟩
    let y : Token := ⟨.identifier, "y", ⟨8, 2, 6⟩⟩
    let refusal : SyntaxError := ⟨⟨6, 2, 4⟩, .lexical .loneHash⟩
    (call source 2 = .ok x ∧ call source 3 = .error refusal ∧ call source 4 = .ok y) ∧
      x.position.TrueIn source ∧ refusal.LocatedIn source ∧
      x.position.offset < y.position.offset := by
  intro source x y refusal
  have first : call source 2 = .ok x := by decide +kernel
  have failed : call source 3 = .error refusal := by decide +kernel
  have second : call source 4 = .ok y := by decide +kernel
  have written : x.WrittenIn source := ⟨['x'], .name (by decide) rfl, by decide +kernel⟩
  have written' : y.WrittenIn source := ⟨['y'], .name (by decide) rfl, by decide +kernel⟩
  obtain ⟨-, tokens, faults, order, -⟩ := positions_true source
  exact ⟨⟨first, failed, second⟩, (tokens 2 x first).1, (faults 3 refusal failed).1,
    (order 2 4 x y (by decide) first second).2 written written'⟩

end Koy
