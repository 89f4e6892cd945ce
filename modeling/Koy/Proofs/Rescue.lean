import Koy.Proofs.Finality
import Koy.Proofs.Resuming

/-! Which final refusals are not final. A text that ends a line and is refused for good can still
become well-formed if the line `else` after it makes the reader ask for more, and only then. -/

namespace Koy

open Parse Grammar

variable {k : Nat} {stream : TokenStream} {safe : List Word → Prop} {ending : Option Bool}

theorem skipSemicolons_verdict (budget : Nat) (halted : Halted k stream) :
    Verdict (fun extra => skipSemicolons (extra + budget)) safe none k stream := by
  induction budget generalizing k stream with
  | zero => exact .tooDeep rfl
  | succ budget ih =>
      refine .kind_bind (.ite (fun here => ?_) fun _ => .pure () halted)
      exact .advance_bind halted (here ▸ by decide) fun j after halted' => ih halted'

theorem paramNames_verdict (budget : Nat) (seen : List String) (halted : Halted k stream) :
    Verdict (fun extra => paramNames (extra + budget) seen) safe none k stream := by
  induction budget generalizing seen k stream with
  | zero => exact .tooDeep rfl
  | succ budget ih =>
      refine .expect_bind .identifier (by decide) halted fun j param after halted' => ?_
      refine .ite (fun _ => .refuse_bind _ _ rfl) fun _ => ?_
      refine .kind_bind (.ite (fun here => ?_) fun _ => .pure _ halted')
      exact .advance_bind halted' (here ▸ by decide) fun i last halted'' => ih _ halted''

theorem params_verdict (budget : Nat) (halted : Halted k stream) :
    Verdict (fun extra => params (extra + budget)) safe none k stream := by
  have close (names : List String) {j : Nat} {after : TokenStream} (halted : Halted j after) :
      Verdict (fun _ => do discard <| expect .closeParen; return names) safe none j after :=
    .mark_bind .closeParen (by decide) halted fun _ _ halted => .pure names halted
  refine .mark_bind .openParen (by decide) halted fun j after halted => .kind_bind (.ite ?_ ?_)
  · exact fun _ => close [] halted
  · intro _
    have names : Verdict (fun extra => paramNames (extra + budget) []) safe none j after :=
      paramNames_verdict budget [] halted
    exact .bind_passing names fun i names last halted => close names halted

def Word.Ends (rest : List Word) : Prop :=
  (Word.nth rest 0).1.separates = true ∧ Word.NoElse rest

def Word.Starts (kind : TokenKind) (rest : List Word) : Prop :=
  ∃ more, rest = .sign kind :: more

theorem Word.Starts.ends {kind : TokenKind} {rest : List Word} (starts : Word.Starts kind rest)
    (separates : kind.separates = true) (proper : kind ≠ .elseWord) (other : kind ≠ .semicolon) :
    Word.Ends rest := by
  obtain ⟨more, rfl⟩ := starts
  exact ⟨separates, proper, fun same => absurd same other⟩

/-- A reader of expressions that can be satisfied after the word `else`; the literal `0` is one that
it reads. -/
structure Resumable (expr : Nat → Parse Expr) : Prop where
  verdict {k : Nat} {stream : TokenStream} (halted : Halted k stream) :
    Verdict expr Word.Ends (some true) k stream
  fresh (extra : Nat) (rest : List Word) (ends : Word.Ends rest) :
    Reads (expr (extra + 2)) ((.number, "0") :: rest) rest fun _ => True

theorem closes_mark {α β : Type} {within : List Word → Prop} {pending : Bool} (wanted : TokenKind)
    (spoken : Speaks pending [.sign wanted] true)
    (inside : ∀ rest, within (.sign wanted :: rest)) (result : α → β) :
    Closes (fun _ value => do discard <| expect wanted; return result value) within safe pending
      [.sign wanted] true where
  spoken := spoken
  within rest _ := inside rest
  reads _ _ _ _ := .mark_bind (.pure trivial)

section

variable {expr : Nat → Parse Expr} (inner : Resumable expr)

include inner

omit inner in
theorem blockElements_closed (expr : Parse Expr) (budget : Nat) (more : List Word) :
    Reads (blockElements expr (budget + 2)) (.sign .semicolon :: .sign .closeBrace :: more)
      (.sign .closeBrace :: more) fun _ => True := by
  refine .bind (skipSemicolons_reads_one budget _ (by simp)) fun _ _ => ?_
  exact .kind_bind (.ite_pos (.inl rfl) (.pure trivial))

theorem blockElements_verdict (budget : Nat) (halted : Halted k stream) :
    Verdict (fun extra => blockElements (expr extra) (extra + budget)) (Word.Starts .closeBrace)
      (some false) k stream := by
  induction budget generalizing k stream with
  | zero => exact .tooDeep rfl
  | succ budget ih =>
      have skipped : Verdict (fun extra => skipSemicolons (extra + (budget + 1))) Word.Ends none k
          stream := skipSemicolons_verdict (budget + 1) halted
      refine .bind_passing skipped fun j _ after halted => .kind_bind (.ite ?_ fun _ => ?_)
      · exact fun _ => .pure [] halted
      refine .bind (inner.verdict halted) (fun i element last halted => ?_) fun pending is => ?_
      · refine .kind_bind (.ite (fun _ => ?_) fun _ => .map _ (ih halted))
        exact .refuseHere_bind _ (fun _ _ => rfl) halted
      · cases is
        refine ⟨[.sign .semicolon], false, rfl, .semicolon true, ?_, ?_⟩
        · rintro _ ⟨more, rfl⟩
          exact ⟨rfl, by simp, fun _ => by simp⟩
        · rintro _ ⟨more, rfl⟩ element extra
          have closed := blockElements_closed (expr (extra + 2)) (extra + budget) more
          rw [Nat.add_right_comm] at closed
          exact .kind_bind (.ite_neg (fun met => met.1 rfl) (.map _ closed fun _ _ => trivial))

theorem braced_verdict (budget : Nat) (halted : Halted k stream) :
    Verdict (fun extra => braced (expr extra) (extra + budget)) safe (some true) k stream := by
  refine .expect_bind .openBrace (by decide) halted fun j brace after halted => ?_
  refine .bind (blockElements_verdict inner budget halted) (fun i elements last halted => ?_)
    fun pending is => ?_
  · exact .mark_bind .closeBrace (by decide) halted fun _ _ halted => .pure _ halted
  · cases is
    exact ⟨_, true, rfl, closes_mark .closeBrace .closeBrace (fun rest => ⟨rest, rfl⟩) _⟩

theorem signature_verdict (budget : Nat) (halted : Halted k stream) :
    Verdict (fun extra => signature (expr extra) (extra + budget)) safe (some true) k stream := by
  have names : Verdict (fun extra => params (extra + budget)) safe none k stream :=
    params_verdict budget halted
  exact .bind_passing names fun j names after halted => .map _ (braced_verdict inner budget halted)

theorem declaration_verdict (halted : Halted k stream) :
    Verdict (fun extra => declaration (expr extra)) Word.Ends (some true) k stream := by
  have named (mutable : Bool) (position : Position) {j : Nat} {after : TokenStream}
      (halted : Halted j after) : Verdict (fun extra => do
        discard <| expect .letWord
        let name ← expect .identifier
        discard <| expect .assign
        let value ← expr extra
        return ({ name := name.lexeme, value, mutable, position } : ValueDef))
        Word.Ends (some true) j after := by
    refine .mark_bind .letWord (by decide) halted fun _ _ halted => ?_
    refine .expect_bind .identifier (by decide) halted fun _ _ _ halted => ?_
    exact .mark_bind .assign (by decide) halted fun _ _ halted => .map _ (inner.verdict halted)
  refine .token_bind (.ite (fun here => ?_) fun _ => named _ _ halted)
  exact .advance_bind halted (here ▸ by decide) fun _ _ halted => named _ _ halted

theorem assignment_verdict (halted : Halted k stream) :
    Verdict (fun extra => assignment (expr extra)) Word.Ends (some true) k stream := by
  refine .expect_bind .identifier (by decide) halted fun _ _ _ halted => ?_
  exact .mark_bind .assign (by decide) halted fun _ _ halted => .map _ (inner.verdict halted)

theorem parenthesized_verdict (halted : Halted k stream) :
    Verdict (fun extra => parenthesized (expr extra)) safe (some true) k stream := by
  refine .mark_bind .openParen (by decide) halted fun _ _ halted => ?_
  refine .bind (inner.verdict halted) (fun _ value _ halted => ?_) fun pending is => ?_
  · exact .mark_bind .closeParen (by decide) halted fun _ _ halted => .pure value halted
  · refine ⟨_, true, rfl, closes_mark .closeParen (.closeParen pending) (fun rest => ?_) _⟩
    exact Word.Starts.ends ⟨rest, rfl⟩ rfl (by decide) (by decide)

theorem items_verdict (close : TokenKind) (budget : Nat) (halted : Halted k stream) :
    Verdict (fun extra => items (expr extra) close (extra + budget)) (Word.Starts close) (some false) k
      stream := by
  induction budget generalizing k stream with
  | zero => exact .tooDeep rfl
  | succ budget ih =>
      refine .kind_bind (.ite (fun _ => .pure [] halted) fun _ => ?_)
      refine .bind (inner.verdict halted) (fun _ item _ halted => ?_) fun pending is => ?_
      · refine .kind_bind (.ite (fun here => ?_) fun _ => .pure _ halted)
        exact .advance_bind halted (here ▸ by decide) fun _ _ halted => .map _ (ih halted)
      · refine ⟨[.sign .comma], false, rfl, .comma pending, fun rest _ => ?_, ?_⟩
        · exact ⟨rfl, by simp, by simp⟩
        rintro _ ⟨more, rfl⟩ item extra
        have closed : Reads (items (expr (extra + 2)) close (extra + budget + 2)) (.sign close :: more)
            (.sign close :: more) fun _ => True := .kind_bind (.ite_pos rfl (.pure trivial))
        rw [Nat.add_right_comm] at closed
        exact .kind_bind (.ite_pos rfl (.advance_bind (.map _ closed fun _ _ => trivial)))

theorem bracketed_verdict (opening close : TokenKind) (opens : opening ≠ .elseWord)
    (closes : close ≠ .elseWord) (spoken : Speaks false [.sign close] true) (budget : Nat)
    (halted : Halted k stream) :
    Verdict (fun extra => bracketed (expr extra) opening close (extra + budget)) safe (some true) k
      stream := by
  refine .mark_bind opening opens halted fun _ _ halted => ?_
  refine .bind (items_verdict inner close budget halted) (fun _ content _ halted => ?_)
    fun pending is => ?_
  · exact .mark_bind close closes halted fun _ _ halted => .pure content halted
  · cases is
    exact ⟨_, true, rfl, closes_mark close spoken (fun rest => ⟨rest, rfl⟩) _⟩

theorem mappingEntries_verdict (budget : Nat) (halted : Halted k stream) :
    Verdict (fun extra => mappingEntries (expr extra) (extra + budget)) (Word.Starts .closeBrace)
      (some false) k stream := by
  induction budget generalizing k stream with
  | zero => exact .tooDeep rfl
  | succ budget ih =>
      refine .token_bind (.ite (fun _ => .pure [] halted) fun _ => .ite ?_ fun key => ?_)
      · exact fun _ => .refuseHere_bind _ (fun _ _ => rfl) halted
      have other : stream.current.kind ≠ .elseWord := by
        intro here
        rw [here] at key
        exact key ⟨by decide, by decide⟩
      refine .advance_bind halted other fun _ _ halted => ?_
      refine .mark_bind .colon (by decide) halted fun _ _ halted => ?_
      refine .bind (inner.verdict halted) (fun _ value _ halted => ?_) fun pending is => ?_
      · refine .kind_bind (.ite (fun here => ?_) fun _ => .pure _ halted)
        exact .advance_bind halted (here ▸ by decide) fun _ _ halted => .map _ (ih halted)
      · refine ⟨[.sign .comma], false, rfl, .comma pending, fun rest _ => ?_, ?_⟩
        · exact ⟨rfl, by simp, by simp⟩
        rintro _ ⟨more, rfl⟩ value extra
        have closed : Reads (mappingEntries (expr (extra + 2)) (extra + budget + 2))
            (.sign .closeBrace :: more) (.sign .closeBrace :: more) fun _ => True :=
          .token_bind fun token spelled => .ite_pos (congrArg Prod.fst spelled) (.pure trivial)
        rw [Nat.add_right_comm] at closed
        exact .kind_bind (.ite_pos rfl (.advance_bind (.map _ closed fun _ _ => trivial)))

theorem mapping_verdict (budget : Nat) (halted : Halted k stream) :
    Verdict (fun extra => mapping (expr extra) (extra + budget)) safe (some true) k stream := by
  refine .expect_bind .openMap (by decide) halted fun _ _ _ halted => ?_
  refine .bind (mappingEntries_verdict inner budget halted) (fun _ entries _ halted => ?_)
    fun pending is => ?_
  · exact .mark_bind .closeBrace (by decide) halted fun _ _ halted => .pure _ halted
  · cases is
    exact ⟨_, true, rfl, closes_mark .closeBrace .closeBrace (fun rest => ⟨rest, rfl⟩) _⟩

theorem arguments_verdict (budget : Nat) (halted : Halted k stream) :
    Verdict (fun extra => arguments (expr extra) (extra + budget)) (Word.Starts .closeParen) (some true)
      k stream := by
  induction budget generalizing k stream with
  | zero => exact .tooDeep rfl
  | succ budget ih =>
      refine .bind (inner.verdict halted) (fun _ argument _ halted => ?_) fun pending is => ?_
      · refine .kind_bind (.ite (fun here => ?_) fun _ => .pure _ halted)
        exact .advance_bind halted (here ▸ by decide) fun _ _ halted => .map _ (ih halted)
      · refine ⟨[], pending, is, .nil pending, fun rest starts => ?_, ?_⟩
        · exact starts.ends rfl (by decide) (by decide)
        rintro _ ⟨more, rfl⟩ argument extra
        exact .kind_bind (.ite_neg (by simp) (.pure trivial))

theorem labeledArguments_verdict (budget : Nat) (seen : List String) (halted : Halted k stream) :
    Verdict (fun extra => labeledArguments (expr extra) (extra + budget) seen)
      (Word.Starts .closeBracket) (some true) k stream := by
  induction budget generalizing seen k stream with
  | zero => exact .tooDeep rfl
  | succ budget ih =>
      refine .kind_bind (.ite (fun _ => .pure [] halted) fun _ => ?_)
      refine .expect_bind .identifier (by decide) halted fun _ label _ halted => ?_
      refine .ite (fun _ => .refuse_bind _ _ rfl) fun _ => ?_
      refine .mark_bind .assign (by decide) halted fun _ _ halted => ?_
      refine .bind (inner.verdict halted) (fun _ value _ halted => ?_) fun pending is => ?_
      · refine .kind_bind (.ite (fun here => ?_) fun _ => .pure _ halted)
        exact .advance_bind halted (here ▸ by decide) fun _ _ halted => .map _ (ih _ halted)
      · refine ⟨[], pending, is, .nil pending, fun rest starts => ?_, ?_⟩
        · exact starts.ends rfl (by decide) (by decide)
        rintro _ ⟨more, rfl⟩ value extra
        exact .kind_bind (.ite_neg (by simp) (.pure trivial))

omit inner in
theorem atLabels_verdict (halted : Halted k stream) :
    Verdict (fun _ => atLabels) safe none k stream := by
  refine .kind_bind (.ite (fun bracket => ?_) fun _ => .pure false halted)
  obtain ⟨fewer, rfl⟩ := halted.exists_succ (bracket ▸ by decide)
  refine .aheadIs_bind 0 .identifier halted (by omega) fun seen after same named halted => ?_
  refine .ite (fun met => ?_) fun _ => .pure false halted
  have near : 1 + 1 ≤ fewer + 1 := by
    cases fewer with
    | zero =>
        obtain ⟨token, found, is_name⟩ := named met
        obtain ⟨word, found', is_else⟩ := halted.word
        rw [same, found] at found'
        cases found'
        rw [is_name] at is_else
        cases is_else
    | succ fewer => omega
  exact .aheadIs 1 .assign halted near

theorem call_verdict (budget : Nat) (halted : Halted k stream) :
    Verdict (fun extra => call (expr extra) (extra + budget)) safe (some true) k stream := by
  refine .expect_bind .identifier (by decide) halted fun _ callee _ halted => ?_
  refine .mark_bind .openParen (by decide) halted fun j after halted => ?_
  have labels : Verdict (fun _ => atLabels) safe none j after := atLabels_verdict halted
  refine .bind_passing labels fun _ seen _ halted => .ite (fun _ => ?_) fun _ => ?_
  · refine .mark_bind .openBracket (by decide) halted fun _ _ halted => ?_
    refine .bind (labeledArguments_verdict inner budget [] halted) (fun _ labeled _ halted => ?_)
      fun pending is => ?_
    · refine .mark_bind .closeBracket (by decide) halted fun _ _ halted => ?_
      exact .mark_bind .closeParen (by decide) halted fun _ _ halted => .pure _ halted
    · refine ⟨[.sign .closeBracket, .sign .closeParen], true, rfl, ?_, fun rest _ => ⟨_, rfl⟩, ?_⟩
      · exact (Speaks.closeBracket pending).append (.closeParen true)
      · exact fun rest _ labeled extra => .mark_bind (.mark_bind (.pure trivial))
  · have close (positional : List Expr) {j : Nat} {after : TokenStream} (halted : Halted j after) :
        Verdict (fun _ => do
          discard <| expect .closeParen
          return Expr.call callee.lexeme positional callee.position) safe (some true) j after :=
      .mark_bind .closeParen (by decide) halted fun _ _ halted => .pure _ halted
    refine .kind_bind (.ite (fun _ => ?_) fun _ => ?_)
    · exact close [] halted
    · refine .bind (arguments_verdict inner budget halted) (fun _ positional _ halted => ?_)
        fun pending is => ?_
      · exact close positional halted
      · exact ⟨_, true, rfl, closes_mark .closeParen (.closeParen pending) (fun rest => ⟨rest, rfl⟩) _⟩

/-- The else part of a conditional. Where the word `else` is the last one, an expression is all that
is wanted. -/
theorem alternative_verdict (halted : Halted k stream) :
    Verdict (fun extra => alternative (expr extra)) Word.Ends (some true) k stream := by
  have reached {j : Nat} {after : TokenStream} (halted : Halted j after) : Verdict (fun extra => do
      if (← kind) = .elseWord then
        advance
        return some (← expr extra)
      else return none) Word.Ends (some true) j after := by
    cases j with
    | succ j =>
        refine .kind_bind (.ite (fun _ => ?_) fun _ => .pure none halted)
        have moved : Verdict (fun _ => advance) Word.Ends none (j + 1) after := .advance halted
        exact .bind_passing moved fun _ _ _ halted => .map _ (inner.verdict halted)
    | zero =>
        refine .finishes true rfl [(.number, "0")] (.zero false) fun extra longer rest ends resumed => ?_
        obtain ⟨token, found, is_else⟩ := halted.word
        cases found
        have here : longer.current.kind = .elseWord := resumed.current ▸ is_else
        obtain ⟨word, there, -⟩ := resumed.word 0
        rcases advance_cases longer with ⟨error, failed, -⟩ | ⟨last, shifted, moved⟩
        · rw [there] at failed
          cases failed
        obtain ⟨value, final, read, spells, -⟩ :=
          inner.fresh extra rest ends last (resumed.spells shifted)
        refine ⟨some value, final, ?_, spells⟩
        rw [Parse.kind_bind, if_pos here, bind_of_ok moved, bind_of_ok read]
        rfl
  refine .kind_bind (.ite (fun semicolon => ?_) fun _ => reached halted)
  have other : stream.current.kind ≠ .elseWord := semicolon ▸ by decide
  obtain ⟨fewer, rfl⟩ := halted.exists_succ other
  refine .aheadIs_bind 0 .elseWord halted (by omega) fun seen after same _ halted => ?_
  refine .ite (fun _ => ?_) fun _ => reached halted
  have moved : Verdict (fun _ => advance) Word.Ends none (fewer + 1) after := .advance halted
  exact .bind_passing moved fun _ _ _ halted => reached halted

theorem branch_verdict (halted : Halted k stream) :
    Verdict (fun extra => branch (expr extra)) Word.Ends (some true) k stream := by
  refine .expect_bind .ifWord (by decide) halted fun j start after halted => ?_
  have first : Verdict (fun extra => parenthesized (expr extra)) (fun _ => True) (some true) j after :=
    parenthesized_verdict inner halted
  refine .bind first (fun _ condition _ halted => ?_) fun pending is => ?_
  · refine .bind (inner.verdict halted) (fun _ consequent _ halted => ?_) fun pending is => ?_
    · exact .map _ (alternative_verdict inner halted)
    · refine ⟨[], pending, is, .nil pending, fun rest ends => ends, fun rest ends consequent extra => ?_⟩
      exact .map _ (alternative_reads_none _ rest ends.2) fun _ _ => trivial
  · refine ⟨[(.number, "0")], true, rfl, .zero pending, fun _ _ => trivial, ?_⟩
    intro rest ends condition extra
    refine .bind (inner.fresh extra rest ends) fun consequent _ => ?_
    exact .map _ (alternative_reads_none _ rest ends.2) fun _ _ => trivial

theorem loop_verdict (halted : Halted k stream) :
    Verdict (fun extra => loop (expr extra)) Word.Ends (some true) k stream := by
  refine .expect_bind .whileWord (by decide) halted fun j start after halted => ?_
  have first : Verdict (fun extra => parenthesized (expr extra)) (fun _ => True) (some true) j after :=
    parenthesized_verdict inner halted
  refine .bind first (fun _ condition _ halted => .map _ (inner.verdict halted)) fun pending is => ?_
  refine ⟨[(.number, "0")], true, rfl, .zero pending, fun _ _ => trivial, ?_⟩
  exact fun rest ends condition extra => .map _ (inner.fresh extra rest ends) fun _ _ => trivial

omit inner in
theorem integer_verdict (literal : String) (place : Token) (halted : Halted k stream) :
    Verdict (fun _ => integer literal place) safe ending k stream := by
  cases read : Decimal.int64? literal with
  | some value =>
      simp only [integer, read]
      exact .pure _ halted
  | none =>
      simp only [integer, read]
      exact .refuse _ _ rfl

theorem primary_verdict (budget : Nat) (halted : Halted k stream) :
    Verdict (fun extra => primary (expr extra) (extra + budget)) Word.Ends (some true) k stream := by
  refine .token_bind ?_
  have advanced {next : Nat → Unit → Parse Expr} (other : stream.current.kind ≠ .elseWord)
      (rest : ∀ {j after}, Halted j after →
        Verdict (fun extra => next extra ()) Word.Ends (some true) j after) :
      Verdict (fun extra => advance >>= next extra) Word.Ends (some true) k stream :=
    .advance_bind halted other fun _ _ halted => rest halted
  cases here : stream.current.kind with
  | number => exact advanced (here ▸ by decide) fun halted => integer_verdict _ _ halted
  | text | trueWord | falseWord => exact advanced (here ▸ by decide) fun halted => .pure _ halted
  | identifier =>
      obtain ⟨fewer, rfl⟩ := halted.exists_succ (here ▸ by decide)
      refine .aheadIs_bind 0 .openParen halted (by omega) fun seen after same _ halted => ?_
      refine .ite (fun _ => call_verdict inner budget halted) fun _ => ?_
      have moved : Verdict (fun _ => advance) Word.Ends none (fewer + 1) after := .advance halted
      exact .bind_passing moved fun _ _ _ halted => .pure _ halted
  | openParen => exact parenthesized_verdict inner halted
  | openBracket =>
      exact .map _ (bracketed_verdict inner .openBracket .closeBracket (by decide) (by decide)
        (.closeBracket false) budget halted)
  | openSet =>
      exact .map _ (bracketed_verdict inner .openSet .closeBrace (by decide) (by decide) .closeBrace
        budget halted)
  | openMap => exact mapping_verdict inner budget halted
  | fnWord =>
      exact advanced (here ▸ by decide) fun halted => .map _ (signature_verdict inner budget halted)
  | openBrace => exact .map _ (braced_verdict inner budget halted)
  | printlnWord =>
      exact advanced (here ▸ by decide) fun halted => .map _ (parenthesized_verdict inner halted)
  | ifWord => exact branch_verdict inner halted
  | whileWord => exact loop_verdict inner halted
  | _ => exact .refuseHere _ (fun _ _ => rfl) halted

omit inner in
theorem updates_verdict (budget : Nat) (operand : Expr) (halted : Halted k stream) :
    Verdict (fun extra => updates (extra + budget) operand) safe ending k stream := by
  induction budget generalizing operand k stream with
  | zero => exact .tooDeep rfl
  | succ budget ih =>
      refine .kind_bind ?_
      cases here : updateOp? stream.current.kind with
      | none => exact .pure operand halted
      | some op =>
          have other : stream.current.kind ≠ .elseWord := by
            intro word
            rw [word] at here
            cases here
          exact .take_bind halted other fun _ _ halted => ih _ halted

theorem unary_verdict (budget : Nat) (halted : Halted k stream) :
    Verdict (fun extra => unary (expr extra) (extra + budget)) Word.Ends (some true) k stream := by
  induction budget generalizing k stream with
  | zero => exact .tooDeep rfl
  | succ budget ih =>
      refine .token_bind (.ite (fun minus => ?_) fun _ => ?_)
      · refine .advance_bind halted (minus ▸ by decide) fun _ _ halted => .token_bind ?_
        refine .ite (fun number => ?_) fun _ => .map _ (ih halted)
        exact .advance_bind halted (number ▸ by decide) fun _ _ halted => integer_verdict _ _ halted
      · cases here : updateOp? stream.current.kind with
        | some op =>
            have other : stream.current.kind ≠ .elseWord := by
              intro word
              rw [word] at here
              cases here
            exact .advance_bind halted other fun _ _ halted => .map _ (ih halted)
        | none =>
            refine .bind (primary_verdict inner (budget + 1) halted)
              (fun _ operand _ halted => updates_verdict (budget + 1) operand halted) fun pending is => ?_
            refine ⟨[], pending, is, .nil pending, fun _ ends => ends, fun rest ends operand extra => ?_⟩
            have stops := (TokenKind.of_follows (TokenKind.follows_of_separates ends.1)).1
            exact (updates_reads (extra + 2 + budget) operand rest stops).weaken fun _ _ => trivial

omit inner in
theorem chain_verdict {operand : Nat → Parse Expr} (level : Level)
    (stops : ∀ kind : TokenKind, kind.separates = true → level.lookup kind = none)
    (part : ∀ {k stream}, Halted k stream → Verdict operand Word.Ends (some true) k stream)
    (budget : Nat) (lhs : Expr) (halted : Halted k stream) :
    Verdict (fun extra => chain (operand extra) level (extra + budget) lhs) Word.Ends (some true) k
      stream := by
  induction budget generalizing lhs k stream with
  | zero => exact .tooDeep rfl
  | succ budget ih =>
      refine .token_bind ?_
      cases here : level.lookup stream.current.kind with
      | none => exact .pure lhs halted
      | some op =>
          have other : stream.current.kind ≠ .elseWord := by
            intro word
            rw [word, stops .elseWord rfl] at here
            cases here
          refine .advance_bind halted other fun _ _ halted => ?_
          refine .bind (part halted) (fun _ rhs _ halted => ih _ halted) fun pending is => ?_
          refine ⟨[], pending, is, .nil pending, fun _ ends => ends, fun rest ends rhs extra => ?_⟩
          have last (lhs : Expr) := chain_reads (operand (extra + 2)) level (extra + budget + 1) lhs rest
            (stops _ ends.1)
          rw [show extra + budget + 1 + 1 = extra + 2 + budget by omega] at last
          exact (last _).weaken fun _ _ => trivial

theorem joined_verdict (budget : Nat) (tighter : List Level)
    (stops : ∀ level ∈ tighter, ∀ kind : TokenKind, kind.separates = true → level.lookup kind = none)
    (halted : Halted k stream) :
    Verdict (fun extra => joined (expr extra) (extra + (budget + 1)) tighter) Word.Ends (some true) k
      stream := by
  induction tighter generalizing k stream with
  | nil => exact unary_verdict inner (budget + 1) halted
  | cons level tighter ih =>
      have later : ∀ level ∈ tighter, ∀ kind : TokenKind, kind.separates = true →
          level.lookup kind = none := fun level member => stops level (List.mem_cons_of_mem _ member)
      have here := stops level (by simp)
      refine .bind (ih later halted) (fun _ lhs _ halted => ?_) fun pending is => ?_
      · exact chain_verdict level here (fun halted => ih later halted) (budget + 1) lhs halted
      · refine ⟨[], pending, is, .nil pending, fun _ ends => ends, fun rest ends lhs extra => ?_⟩
        exact (chain_reads _ level (extra + 2 + budget) lhs rest (here _ ends.1)).weaken
          fun _ _ => trivial

theorem expressionOf_verdict (budget : Nat) (halted : Halted k stream) :
    Verdict (fun extra => expressionOf (expr extra) (extra + (budget + 1))) Word.Ends (some true) k
      stream := by
  have operators {j : Nat} {after : TokenStream} (halted : Halted j after) :=
    joined_verdict inner budget levels
      (fun level member kind separates => TokenKind.lookup_of_separates separates level member) halted
  refine .kind_bind ?_
  cases here : stream.current.kind with
  | letWord | mutableWord => exact .map _ (declaration_verdict inner halted)
  | identifier =>
      obtain ⟨fewer, rfl⟩ := halted.exists_succ (here ▸ by decide)
      refine .aheadIs_bind 0 .assign halted (by omega) fun seen after same _ halted => ?_
      exact .ite (fun _ => assignment_verdict inner halted) fun _ => operators halted
  | _ => exact operators halted

end

theorem expression_resumable (budget : Nat) : Resumable (fun extra => expression (extra + budget)) := by
  have fresh (budget extra : Nat) (rest : List Word) (ends : Word.Ends rest) :
      Reads (expression (extra + 2 + budget)) ((.number, "0") :: rest) rest fun _ => True := by
    have whole := (expression_readsBack (extra + 2 + budget)).whole (.int 0 {}) rfl
      (by change 1 ≤ _; omega) rest ⟨ends.1, fun _ => ends.2⟩
    exact whole.weaken fun _ _ => trivial
  induction budget with
  | zero => exact ⟨fun _ => .tooDeep rfl, fresh 0⟩
  | succ budget ih => exact ⟨fun halted => expressionOf_verdict ih budget halted, fresh (budget + 1)⟩

theorem functionDef_verdict (budget : Nat) (halted : Halted k stream) :
    Verdict (fun extra => functionDef (extra + budget)) safe (some true) k stream := by
  refine .expect_bind .fnWord (by decide) halted fun _ _ _ halted => ?_
  refine .expect_bind .identifier (by decide) halted fun _ _ _ halted => ?_
  exact .map _ (signature_verdict (expression_resumable budget) budget halted)

theorem entry_verdict (budget : Nat) (halted : Halted k stream) :
    Verdict (fun extra => entry (extra + budget)) Word.Ends (some true) k stream := by
  have value {j : Nat} {after : TokenStream} (halted : Halted j after) : Verdict
      (fun extra => do return Entry.expression (← expression (extra + budget))) Word.Ends (some true) j
      after := .map _ ((expression_resumable budget).verdict halted)
  refine .kind_bind (.ite (fun here => ?_) fun _ => value halted)
  obtain ⟨fewer, rfl⟩ := halted.exists_succ (here ▸ by decide)
  refine .aheadIs_bind 0 .identifier halted (by omega) fun seen after same _ halted => ?_
  exact .ite (fun _ => .map _ (functionDef_verdict budget halted)) fun _ => value halted

theorem endOfElement_verdict (halted : Halted k stream) :
    Verdict (fun _ => endOfElement) safe none k stream := by
  refine .kind_bind ?_
  cases here : stream.current.kind with
  | semicolon =>
      obtain ⟨fewer, rfl⟩ := halted.exists_succ (here ▸ by decide)
      exact .advance halted
  | endOfInput => exact absurd here halted.proper
  | _ => exact .refuseHere _ (fun _ _ => rfl) halted

theorem elements_verdict {α : Type} {element : Nat → Parse α}
    (part : ∀ {k stream}, Halted k stream → Verdict element Word.Ends (some true) k stream)
    (budget : Nat) (halted : Halted k stream) :
    Verdict (fun extra => elements (element extra) (extra + budget)) (· = []) (some false) k stream := by
  induction budget generalizing k stream with
  | zero => exact .tooDeep rfl
  | succ budget ih =>
      have skipped : Verdict (fun extra => skipSemicolons (extra + (budget + 1))) Word.Ends none k
          stream := skipSemicolons_verdict (budget + 1) halted
      refine .bind_passing skipped fun _ _ _ halted => .kind_bind (.ite (fun here => ?_) fun _ => ?_)
      · exact absurd here halted.proper
      refine .bind (part halted) (fun j first after halted => ?_) fun pending is => ?_
      · have ended : Verdict (fun _ => endOfElement) Word.Ends none j after :=
          endOfElement_verdict halted
        exact .bind_passing ended fun _ _ _ halted => .map _ (ih halted)
      · refine ⟨[.sign .semicolon], false, rfl, .semicolon pending, ?_, ?_⟩
        · rintro _ rfl
          exact ⟨rfl, by decide, fun _ => by decide⟩
        · rintro _ rfl first extra
          have closed : Reads (elements (element (extra + 2)) (extra + budget + 2)) [] []
              fun _ => True := by
            refine .bind (skipSemicolons_reads_none _ [] (by decide)) fun _ _ => ?_
            exact .kind_bind (.ite_pos rfl (.pure trivial))
          rw [Nat.add_right_comm] at closed
          refine .bind (.kind_bind (Reads.advance _ _)) fun _ _ => ?_
          exact .map _ closed fun _ _ => trivial

theorem exists_stream_resumed (source : Bytes) (ends : source.getLast? = some 10) {k : Nat}
    {items : Items} (resumes : (Lexer.ofSource source).ResumesAt k items) (tail : List Char)
    (stops : ∀ c, tail.head? = some c → Lexeme.continuesName c = false) :
    ∃ (stream : TokenStream) (after : Lexer),
      TokenStream.ofSource (source ++ Bytes.ofChars ("else".toList ++ tail)) = .ok stream ∧
        stream.Sound ∧ after.Before tail false after.opened ∧ (∀ i ≤ k, stream.item i = items i) ∧
        ∀ n, stream.item (k + 1 + n) = after.item n := by
  obtain ⟨⟨token, found, -⟩, continued⟩ := resumes
  obtain ⟨after, free, rest, quiet, same, later⟩ := continued tail stops
  rw [← Glyph.decode_ofChars, ← ofSource_append _ _ ends] at same later
  rw [← same k (Nat.le_refl k)] at found
  obtain ⟨stream, opened, sound, each⟩ := exists_stream _ k token found
  have before : after.Before tail false after.opened := ⟨free, rest, by rw [quiet]; rfl, rfl⟩
  exact ⟨stream, after, opened, sound, before, fun i le => (each i).trans (same i le),
    fun n => (each _).trans (later n)⟩

theorem exists_halted (source : Bytes) (ends : source.getLast? = some 10)
    (reaches : (Lexer.ofSource source).Reaches) :
    ∃ k stream, TokenStream.ofSource (source ++ elseLine) = .ok stream ∧ Halted k stream ∧
      ∀ words, Speaks false words false → ∃ more longer,
        TokenStream.ofSource (source ++ more) = .ok longer ∧ Resumed k stream longer words := by
  obtain ⟨k, items, resumes⟩ := (Lexer.ofSource source).exists_resumesAt
    (Lexer.sound_of_free _ rfl) (Glyph.getLast?_decode source ends) reaches
  obtain ⟨stream, after, started, sound, before, same, later⟩ :=
    exists_stream_resumed source ends resumes ['\n'] (by rintro _ ⟨⟩; decide)
  refine ⟨k, stream, started, ⟨sound, ?_, ?_⟩, fun words spoken => ?_⟩
  · rw [Items.HasAt, same k (Nat.le_refl k)]
    exact resumes.1
  · have blank : after.rest = [.char '\n'] := before.rest
    have quiet : after.statementEnd? = none :=
      Option.not_isSome_iff_eq_none.mp (by rw [before.pending]; exact Bool.false_ne_true)
    rw [Items.HasAt, later 0]
    exact after.item_at_end before.free true (by rw [blank]; rfl)
      (by rw [Lexer.pastTrivia_rest, blank]; rfl) (after.semicolonDue_of_statementEnd? _ quiet)
  · obtain ⟨text, spaced, lexes⟩ := spoken
    have stops (c : Char) (first : text.head? = some c) : Lexeme.continuesName c = false := by
      rcases spaced with rfl | ⟨more, rfl⟩
      · cases first
      · cases first
        decide
    obtain ⟨longer, after', started', sound', before', same', later'⟩ :=
      exists_stream_resumed source ends resumes text stops
    obtain ⟨opened, lexes⟩ := lexes after'.opened
    obtain ⟨last, yields, before''⟩ := lexes after' [] (.inl rfl)
      (by rw [List.append_nil]; exact before')
    obtain ⟨token, ended, spelled⟩ := before''.item_end
    refine ⟨_, longer, started', sound', fun i le => ?_, fun n => ?_⟩
    · rw [same i le, same' i le]
    · rw [later' n]
      exact yields.word (Lexer.sound_of_free last before''.free) ended spelled n

namespace Entry

theorem parseAll_of_else_wanted (source : Bytes) (ends : source.getLast? = some 10)
    (reaches : (Lexer.ofSource source).Reaches) (wanted : Refuses (source ++ elseLine) true) :
    ∃ more entries, parseAll (source ++ more) = .ok entries := by
  obtain ⟨error, refused, incomplete⟩ := wanted
  obtain ⟨k, stream, started, halted, continued⟩ := exists_halted source ends reaches
  let budget := budgetOf (source ++ elseLine)
  have read := reader_error (Nat.le_refl budget) started refused
  have verdict : Verdict (fun extra => reader (extra + budget)) (· = []) (some false) k stream :=
    elements_verdict (fun halted => entry_verdict budget halted) budget halted
  cases verdict with
  | fails found failed final =>
      rw [Nat.zero_add, read] at failed
      cases failed
      rw [incomplete] at final
      cases final
  | goes j value after done =>
      rw [Nat.zero_add, read] at done
      cases done
  | finishes pending is words spoken done =>
      cases is
      obtain ⟨more, longer, started', resumed⟩ := continued words spoken
      rw [← List.append_nil words] at resumed
      obtain ⟨entries, after, read', -⟩ := done (budgetOf (source ++ more)) longer [] rfl resumed
      exact ⟨more, entries, parseAll_ok (by omega) started' read'⟩

/-- When a refusal is final. A text that ends a line and is refused, but not as unfinished, is refused
whatever follows it, except where it has no fault and is unfinished with the word `else` after it. -/
theorem refuses_for_good_iff (source : Bytes) (ends : source.getLast? = some 10)
    (refused : Refuses source false) :
    (∀ more, ∃ unfinished, Refuses (source ++ more) unfinished) ↔
      ¬ ((Lexer.ofSource source).Reaches ∧ Refuses (source ++ elseLine) true) := by
  constructor
  · rintro always ⟨reaches, wanted⟩
    obtain ⟨more, entries, read⟩ := parseAll_of_else_wanted source ends reaches wanted
    obtain ⟨_, error, refused', -⟩ := always more
    rw [read] at refused'
    cases refused'
  · intro unwanted more
    exact (refused_or_else_wanted source more ends refused).resolve_right unwanted

theorem refuses_for_good_sample :
    (∀ more, ∃ unfinished, Refuses (Bytes.ofString ")\n" ++ more) unfinished) ∧
      ¬ ∀ more, ∃ unfinished, Refuses (Bytes.ofString "(if (a) b ;\n" ++ more) unfinished := by
  constructor
  · refine (refuses_for_good_iff _ (by decide) (by decide +kernel)).mpr fun ⟨_, wanted⟩ => ?_
    exact absurd wanted (by decide +kernel)
  · refine fun always => (refuses_for_good_iff _ (by decide) (by decide +kernel)).mp always ⟨?_, ?_⟩
    · exact ⟨8, _, rfl, rfl⟩
    · decide +kernel

end Entry

end Koy
