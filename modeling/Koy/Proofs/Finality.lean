import Koy.Proofs.Settling

/-! When a refusal is final. A text that ends a line and is refused, but not for want of more text,
is refused whatever follows it, with one exception: the reader has looked past a semicolon for the
word `else`, and found the end of the text. -/

namespace Koy

open Parse Grammar

theorem skipSemicolons_settling (budget : Nat) : Settling (skipSemicolons budget) := by
  induction budget with
  | zero => exact Demanding.tooDeep.settling
  | succ budget ih => exact .kind_bind fun kind => .ite (Settling.advance.bind fun _ => ih) (.pure ())

theorem paramNames_demanding (budget : Nat) (seen : List String) :
    Demanding (paramNames budget seen) := by
  induction budget generalizing seen with
  | zero => exact .tooDeep
  | succ budget ih =>
      rw [paramNames]
      refine .expect_bind .identifier (by decide) fun param k short long probe trio => ?_
      apply Settled.ite
      · intro _
        exact .refuse_bind _ _
      · intro _
        have rest : Settling (do
            if (← kind) = .comma then
              advance
              paramNames budget (seen ++ [param.lexeme])
            else return seen ++ [param.lexeme]) :=
          .kind_bind fun kind => .ite (Settling.advance.bind fun _ => (ih _).settling) (.pure _)
        exact rest.settles k short long probe trio

theorem params_demanding (budget : Nat) : Demanding (params budget) := by
  have close : ∀ names : List String,
      Settling (do discard <| expect .closeParen; return names) := fun names =>
    (Demanding.closing .closeParen (by decide) names).settling
  refine .discard_bind ((Demanding.expect .openParen (by decide)).bind fun _ => ?_)
  refine .kind_bind fun kind => .ite ((Settling.pure []).bind close) ?_
  exact (paramNames_demanding budget []).settling.bind close

/-- A reader of expressions that settles. Where a name, an opening bracket, the two of them or the
word `fn` is all that is left, it comes to the end of the input. -/
structure Orderly (expr : Parse Expr) : Prop extends Demanding expr where
  name : ∀ stream, stream.Sound → Items.HasAt stream.item 0 .identifier →
    Items.HasAt stream.item 1 .endOfInput → Tame expr stream
  bracket : ∀ stream, stream.Sound → Items.HasAt stream.item 0 .openBracket →
    Items.HasAt stream.item 1 .endOfInput → Stuck expr stream
  bracketName : ∀ stream, stream.Sound → Items.HasAt stream.item 0 .openBracket →
    Items.HasAt stream.item 1 .identifier → Items.HasAt stream.item 2 .endOfInput →
    Stuck expr stream
  functionWord : ∀ stream, stream.Sound → Items.HasAt stream.item 0 .fnWord →
    Items.HasAt stream.item 1 .endOfInput → Stuck expr stream

section

variable {expr : Parse Expr} (inner : Orderly expr)

include inner

theorem blockElements_settling (budget : Nat) : Settling (blockElements expr budget) := by
  induction budget with
  | zero => exact Demanding.tooDeep.settling
  | succ budget ih =>
      rw [blockElements]
      refine (skipSemicolons_settling _).bind fun _ => .kind_bind fun kind => .ite (.pure []) ?_
      refine inner.settling.bind fun element => .kind_bind fun kind => .ite ?_ (ih.map _)
      exact ((Demanding.refuseHere _ fun _ _ => rfl).bind fun _ => ih.map _).settling

theorem braced_demanding (budget : Nat) : Demanding (braced expr budget) := by
  refine (Demanding.expect .openBrace (by decide)).bind fun brace => ?_
  refine (blockElements_settling inner budget).bind fun elements => ?_
  exact (Demanding.closing .closeBrace (by decide) _).settling

theorem signature_demanding (budget : Nat) : Demanding (signature expr budget) :=
  (params_demanding budget).bind fun _ => ((braced_demanding inner budget).map _).settling

theorem declaration_demanding : Demanding (declaration expr) := by
  have named : ∀ (mutable : Bool) (position : Position), Demanding (do
      discard <| expect .letWord
      let name ← expect .identifier
      discard <| expect .assign
      let value ← expr
      return ({ name := name.lexeme, value, mutable, position } : ValueDef)) := by
    intro mutable position
    refine .discard_bind ((Demanding.expect .letWord (by decide)).bind fun _ => ?_)
    refine ((Demanding.expect .identifier (by decide)).bind fun name => ?_).settling
    refine (Demanding.discard_bind ((Demanding.expect .assign (by decide)).bind fun _ => ?_)).settling
    exact (inner.map _).settling
  refine .of_tokens (fun stream at_end => ?_) fun k short long probe trio => ?_
  · have other : ¬ stream.current.kind = .mutableWord := at_end.kind_ne (by decide)
    have stuck := (named (decide (stream.current.kind = .mutableWord)) stream.current.position).stuck
      stream at_end
    rw [Stuck, declaration, Parse.token_bind]
    dsimp only
    rw [if_neg other]
    exact stuck
  · refine .token_bind trio ?_
    apply Settled.ite
    · intro _
      exact .advance_bind trio fun short' long' probe' trio =>
        (named _ _).settles _ short' long' probe' trio
    · intro _
      exact (named _ _).settles _ short long probe trio

theorem assignment_demanding : Demanding (assignment expr) := by
  refine (Demanding.expect .identifier (by decide)).bind fun name => ?_
  refine (Demanding.discard_bind ((Demanding.expect .assign (by decide)).bind fun _ => ?_)).settling
  exact (inner.map _).settling

theorem parenthesized_demanding : Demanding (parenthesized expr) := by
  refine .discard_bind ((Demanding.expect .openParen (by decide)).bind fun _ => ?_)
  refine inner.settling.bind fun value => ?_
  exact (Demanding.closing .closeParen (by decide) value).settling

theorem items_demanding (close : TokenKind) (proper : close ≠ .endOfInput) (budget : Nat) :
    Demanding (items expr close budget) := by
  induction budget with
  | zero => exact .tooDeep
  | succ budget ih =>
      have separated : ∀ item : Expr, Settling (do
          if (← kind) = .comma then
            advance
            return item :: (← items expr close budget)
          else return [item]) := fun item =>
        .kind_bind fun kind => .ite (Settling.advance.bind fun _ => ih.settling.map _) (.pure _)
      have item := inner.toDemanding.bind separated
      refine .of_tokens (fun stream at_end => ?_) fun k short long probe trio => ?_
      · have other : ¬ stream.current.kind = close := at_end.ended ▸ proper.symm
        rw [Stuck, items, Parse.kind_bind, if_neg other]
        exact item.stuck stream at_end
      · rw [items]
        exact .kind_bind trio (.ite (fun _ => .pure [] trio) fun _ => item.settles _ _ _ _ trio)

theorem bracketed_demanding (opening close : TokenKind) (opens : opening ≠ .endOfInput)
    (closes : close ≠ .endOfInput) (budget : Nat) :
    Demanding (bracketed expr opening close budget) := by
  refine .discard_bind ((Demanding.expect opening opens).bind fun _ => ?_)
  refine (items_demanding inner close closes budget).settling.bind fun content => ?_
  exact (Demanding.closing close closes content).settling

theorem mappingEntries_demanding (budget : Nat) : Demanding (mappingEntries expr budget) := by
  induction budget with
  | zero => exact .tooDeep
  | succ budget ih =>
      have entry : ∀ key : Token, Settling (do
          advance
          discard <| expect .colon
          let value ← expr
          if (← kind) = .comma then
            advance
            return (key.lexeme, value) :: (← mappingEntries expr budget)
          else return [(key.lexeme, value)]) := by
        intro key
        refine Settling.advance.bind fun _ => ?_
        refine (Demanding.discard_bind ((Demanding.expect .colon (by decide)).bind fun _ => ?_)).settling
        refine inner.settling.bind fun value => .kind_bind fun kind => .ite ?_ (.pure _)
        exact Settling.advance.bind fun _ => ih.settling.map _
      have refusal : Demanding (refuseHere SyntaxError.Cause.notAKey : Parse Unit) :=
        .refuseHere _ fun _ _ => rfl
      refine .of_tokens (fun stream at_end => ?_) fun k short long probe trio => ?_
      · have open_yet : ¬ stream.current.kind = .closeBrace := at_end.kind_ne (by decide)
        have no_key : stream.current.kind ≠ .identifier ∧ stream.current.kind ≠ .text :=
          at_end.ended ▸ ⟨by decide, by decide⟩
        rw [Stuck, mappingEntries, Parse.token_bind, if_neg open_yet]
        dsimp only
        rw [if_pos no_key]
        exact (refusal.stuck stream at_end).bind
      · rw [mappingEntries]
        refine .token_bind trio (.ite (fun _ => .pure [] trio) fun _ => ?_)
        exact .ite (fun _ => .refuseHere_bind _) fun _ => (entry _).settles _ _ _ _ trio

theorem mapping_demanding (budget : Nat) : Demanding (mapping expr budget) := by
  refine (Demanding.expect .openMap (by decide)).bind fun start => ?_
  refine (mappingEntries_demanding inner budget).settling.bind fun entries => ?_
  exact (Demanding.closing .closeBrace (by decide) _).settling

theorem arguments_demanding (budget : Nat) : Demanding (arguments expr budget) := by
  induction budget with
  | zero => exact .tooDeep
  | succ budget ih =>
      rw [arguments]
      refine inner.toDemanding.bind fun argument => .kind_bind fun kind => .ite ?_ (.pure _)
      exact Settling.advance.bind fun _ => ih.settling.map _

theorem labeledArguments_demanding (budget : Nat) (seen : List String) :
    Demanding (labeledArguments expr budget seen) := by
  induction budget generalizing seen with
  | zero => exact .tooDeep
  | succ budget ih =>
      have valued : ∀ label : Token, Demanding (do
          discard <| expect .assign
          let value ← expr
          if (← kind) = .comma then
            advance
            return (label.lexeme, value) :: (← labeledArguments expr budget (label.lexeme :: seen))
          else return [(label.lexeme, value)]) := by
        intro label
        refine .discard_bind ((Demanding.expect .assign (by decide)).bind fun _ => ?_)
        refine inner.settling.bind fun value => .kind_bind fun kind => .ite ?_ (.pure _)
        exact Settling.advance.bind fun _ => (ih _).settling.map _
      refine .of_tokens (fun stream at_end => ?_) fun k short long probe trio => ?_
      · have open_yet : ¬ stream.current.kind = .closeBracket := at_end.kind_ne (by decide)
        rw [Stuck, labeledArguments, Parse.kind_bind, if_neg open_yet]
        exact (stuck_expect at_end .identifier (by decide)).bind
      · rw [labeledArguments]
        refine .kind_bind trio (.ite (fun _ => .pure [] trio) fun _ => ?_)
        refine .expect_bind .identifier (by decide) trio fun j label short' long' probe' trio => ?_
        exact .ite (fun _ => .refuse_bind _ _) fun _ => (valued label).settles _ _ _ _ trio

omit inner in
theorem arguments_stuck {stream : TokenStream} (budget : Nat) (stuck : Stuck expr stream) :
    Stuck (arguments expr budget) stream := by
  cases budget with
  | zero => exact stuck_tooDeep
  | succ budget =>
      rw [arguments]
      exact stuck.bind

/-- Whether the arguments have labels is told by two tokens ahead; if the input ends before them, the
reader of plain arguments comes to the end. -/
theorem atLabels_bind {next : Bool → Parse Expr} (labeled : Settling (next true))
    (plain : Demanding (next false))
    (bracket : ∀ stream, Items.HasAt stream.item 0 .openBracket → Stuck expr stream →
      Stuck (next false) stream) : Settling (atLabels >>= next) := by
  have either : ∀ seen, Settling (next seen) := fun seen => by
    cases seen with
    | false => exact plain.settling
    | true => exact labeled
  rw [atLabels_bind_eq]
  refine .of_tokens (fun stream at_end => ?_) fun k short long probe trio => ?_
  · have other : ¬ stream.current.kind = .openBracket := at_end.kind_ne (by decide)
    refine Stuck.tame ?_
    rw [Stuck, Parse.kind_bind, if_neg other]
    exact plain.stuck stream at_end
  · refine .kind_bind trio (.ite (fun here => ?_) fun _ => plain.settles _ _ _ _ trio)
    have first : Items.HasAt short.item 0 .openBracket := ⟨short.current, rfl, here⟩
    refine .aheadIs_bind 0 .identifier (by decide) (by decide) trio (fun le ends after same => ?_)
      fun seen short' long' probe' same named trio => ?_
    · have last : k = 0 := by omega
      subst last
      have sound := trio.short_sound.of_same same
      rw [← funext same] at first ends
      exact (bracket after first (inner.bracket after sound first ends)).tame
    · cases seen with
      | false => exact plain.settles _ _ _ _ trio
      | true =>
          have second := named rfl
          rw [← funext same] at first second
          refine .aheadIs_bind 1 .assign (by decide) (by decide) trio (fun le ends after same => ?_)
            fun seen short' long' probe' same _ trio => (either seen).settles _ _ _ _ trio
          have sound := trio.short_sound.of_same same
          rw [← funext same] at first second ends
          obtain rfl | rfl : k = 0 ∨ k = 1 := by omega
          · exact (bracket after first (inner.bracket after sound first ends)).tame
          · exact (bracket after first (inner.bracketName after sound first second ends)).tame

theorem call_demanding (budget : Nat) : Demanding (call expr budget) := by
  refine (Demanding.expect .identifier (by decide)).bind fun callee => ?_
  refine (Demanding.discard_bind ((Demanding.expect .openParen (by decide)).bind fun _ => ?_)).settling
  have close : ∀ positional : List Expr, Settling (do
      discard <| expect .closeParen
      return Expr.call callee.lexeme positional callee.position) := fun positional =>
    (Demanding.closing .closeParen (by decide) _).settling
  have given := (arguments_demanding inner budget).bind close
  refine atLabels_bind inner ?_ ?_ fun stream first stuck => ?_
  · refine (Demanding.discard_bind
      ((Demanding.expect .openBracket (by decide)).bind fun _ => ?_)).settling
    refine (labeledArguments_demanding inner budget []).settling.bind fun labeled => ?_
    refine (Demanding.discard_bind
      ((Demanding.expect .closeBracket (by decide)).bind fun _ => ?_)).settling
    exact (Demanding.closing .closeParen (by decide) _).settling
  · refine .of_tokens (fun stream at_end => ?_) fun k short long probe trio => ?_
    · have other : ¬ stream.current.kind = .closeParen := at_end.kind_ne (by decide)
      rw [Stuck, if_neg Bool.false_ne_true, Parse.kind_bind, if_neg other]
      exact given.stuck stream at_end
    · refine .kind_bind trio (.ite (fun _ => ?_) fun _ => given.settles _ _ _ _ trio)
      exact ((Settling.pure []).bind close).settles _ _ _ _ trio
  · obtain ⟨token, found, opens⟩ := first
    cases found
    have other : ¬ stream.current.kind = .closeParen := opens ▸ by decide
    rw [Stuck, if_neg Bool.false_ne_true, Parse.kind_bind, if_neg other]
    exact (arguments_stuck budget stuck).bind

theorem alternative_settling : Settling (alternative expr) := by
  have reached : Settling (do
      if (← kind) = .elseWord then
        advance
        return some (← expr)
      else return none) :=
    .kind_bind fun kind => .ite (Settling.advance.bind fun _ => inner.settling.map _) (.pure none)
  refine .of_tokens (fun stream at_end => ?_) fun k short long probe trio => ?_
  · have other : ¬ stream.current.kind = .semicolon := at_end.kind_ne (by decide)
    have tame := reached.tame stream at_end
    refine .of_eq ?_ tame
    rw [alternative, Parse.kind_bind]
    dsimp only
    rw [if_neg other]
  · refine .kind_bind trio (.ite (fun _ => ?_) fun _ => reached.settles _ _ _ _ trio)
    refine .elseAhead_bind trio (fun after same word ends => ?_)
      fun seen short' long' probe' same trio => ?_
    · -- The word `else` becomes current, and after it the input ends.
      have sound := trio.probe_sound.of_same same
      obtain ⟨token, found, is_else⟩ := word
      rcases advance_cases after with ⟨error, failed, -⟩ | ⟨here, shifted, moved⟩
      · rw [found] at failed
        cases failed
      have current : here.current = token := Except.ok.inj ((shifted 0).trans found)
      have ends' : Items.HasAt here.item 1 .endOfInput := by
        rw [Items.HasAt, shifted]
        exact ends
      obtain ⟨last, at_end, moved'⟩ := advance_to_end (sound.of_shift shifted) ends'
      refine .of_ok moved ?_
      dsimp only
      rw [Stuck, Parse.kind_bind, current, if_pos is_else]
      exact Stuck.of_ok moved' (inner.stuck last at_end).bind
    · refine .ite (fun _ => ?_) fun _ => reached.settles _ _ _ _ trio
      exact .advance_bind trio fun short' long' probe' trio => reached.settles _ _ _ _ trio

theorem branch_demanding : Demanding (branch expr) := by
  refine (Demanding.expect .ifWord (by decide)).bind fun start => ?_
  refine (parenthesized_demanding inner).settling.bind fun condition => ?_
  exact inner.settling.bind fun consequent => (alternative_settling inner).map _

theorem loop_demanding : Demanding (loop expr) := by
  refine (Demanding.expect .whileWord (by decide)).bind fun start => ?_
  exact (parenthesized_demanding inner).settling.bind fun condition => inner.settling.map _

omit inner in
theorem integer_settles (literal : String) (place : Token) {k : Nat}
    {short long probe : TokenStream} (trio : Trio k short long probe) :
    Settled (integer literal place) short long probe := by
  unfold integer
  split
  · exact .pure _ trio
  · exact .refuse _ _

omit inner in
theorem primary_name (budget : Nat) (stream : TokenStream) (sound : stream.Sound)
    (named : Items.HasAt stream.item 0 .identifier)
    (ends : Items.HasAt stream.item 1 .endOfInput) : Tame (primary expr budget) stream := by
  obtain ⟨token, found, is_name⟩ := named
  cases found
  obtain ⟨after, same, looked⟩ :=
    aheadIs_before_end sound (Nat.le_refl 1) ends .openParen (by decide)
  rw [← funext same] at ends
  obtain ⟨last, at_end, moved⟩ := advance_to_end (sound.of_same same) ends
  have tame : Tame (do
      if ← aheadIs 0 .openParen then call expr budget
      else
        advance
        return Expr.identifier stream.current.lexeme stream.current.position) stream :=
    .of_ok looked (.of_ok moved (.pure _ at_end))
  refine .of_eq ?_ tame
  rw [primary, Parse.token_bind, is_name]

theorem items_name (close : TokenKind) (other : close ≠ .identifier) (budget : Nat)
    (stream : TokenStream) (sound : stream.Sound) (named : Items.HasAt stream.item 0 .identifier)
    (ends : Items.HasAt stream.item 1 .endOfInput) : Tame (items expr close budget) stream := by
  cases budget with
  | zero => exact stuck_tooDeep.tame
  | succ budget =>
      have first := inner.name stream sound named ends
      obtain ⟨token, found, is_name⟩ := named
      cases found
      have open_yet : ¬ stream.current.kind = close := is_name ▸ other.symm
      have tame : Tame (do
          let item ← expr
          if (← kind) = .comma then
            advance
            return item :: (← items expr close budget)
          else return [item]) stream := by
        refine first.bind fun item after at_end => ?_
        have alone : ¬ after.current.kind = .comma := at_end.kind_ne (by decide)
        refine .of_eq ?_ (Tame.pure [item] at_end)
        rw [Parse.kind_bind, if_neg alone]
      refine .of_eq ?_ tame
      rw [items, Parse.kind_bind, if_neg open_yet]

theorem primary_bracket (budget : Nat) (stream : TokenStream) (sound : stream.Sound)
    (opens : Items.HasAt stream.item 0 .openBracket)
    (ends : Items.HasAt stream.item 1 .endOfInput ∨
      (Items.HasAt stream.item 1 .identifier ∧ Items.HasAt stream.item 2 .endOfInput)) :
    Stuck (primary expr budget) stream := by
  have more : ∃ kind, Items.HasAt stream.item 1 kind := by
    rcases ends with last | ⟨named, -⟩
    · exact ⟨_, last⟩
    · exact ⟨_, named⟩
  obtain ⟨kind, more⟩ := more
  obtain ⟨after, shifted, opened⟩ := expect_ok opens more
  have sound' := sound.of_shift shifted
  have content : Tame (items expr .closeBracket budget) after := by
    rcases ends with last | ⟨named, last⟩
    · obtain ⟨token, found, ended⟩ := last
      have current : after.current = token := Except.ok.inj ((shifted 0).trans found)
      exact ((items_demanding inner .closeBracket (by decide) budget).stuck after
        ⟨sound', current ▸ ended⟩).tame
    · refine items_name inner .closeBracket (by decide) budget after sound' ?_ ?_
      · rw [Items.HasAt, shifted]
        exact named
      · rw [Items.HasAt, shifted]
        exact last
  have stuck : Stuck (bracketed expr .openBracket .closeBracket budget) stream := by
    refine .discard_bind (.of_ok opened ?_)
    refine content.stuck_bind fun content last at_end => ?_
    exact .discard_bind (stuck_expect at_end .closeBracket (by decide)).bind
  obtain ⟨token, found, opens⟩ := opens
  cases found
  rw [Stuck, primary, Parse.token_bind, opens]
  exact stuck.bind

theorem primary_functionWord (budget : Nat) (stream : TokenStream) (sound : stream.Sound)
    (word : Items.HasAt stream.item 0 .fnWord) (ends : Items.HasAt stream.item 1 .endOfInput) :
    Stuck (primary expr budget) stream := by
  obtain ⟨token, found, is_fn⟩ := word
  cases found
  obtain ⟨last, at_end, moved⟩ := advance_to_end sound ends
  rw [Stuck, primary, Parse.token_bind, is_fn]
  exact Stuck.of_ok moved ((signature_demanding inner budget).stuck last at_end).bind

theorem primary_demanding (budget : Nat) : Demanding (primary expr budget) := by
  refine .of_tokens (fun stream at_end => ?_) fun k short long probe trio => ?_
  · rw [Stuck, primary, Parse.token_bind, at_end.ended]
    exact stuck_refuseHere at_end _ fun _ _ => rfl
  · refine .token_bind trio ?_
    cases here : short.current.kind with
    | number => exact .advance_bind trio fun short' long' probe' trio => integer_settles _ _ trio
    | text | trueWord | falseWord => exact (Settling.advance.map _).settles _ _ _ _ trio
    | identifier =>
        refine .aheadIs_bind 0 .openParen (by decide) (by decide) trio (fun le ends after same => ?_)
          fun seen short' long' probe' same _ trio => ?_
        · have last : k = 0 := by omega
          subst last
          have sound := trio.short_sound.of_same same
          rw [← funext same] at ends
          obtain ⟨last, at_end, moved⟩ := advance_to_end sound ends
          exact .of_ok moved (.pure _ at_end)
        · refine .ite (fun _ => ?_) fun _ => ?_
          · exact (call_demanding inner budget).settles _ _ _ _ trio
          · exact (Settling.advance.map _).settles _ _ _ _ trio
    | openParen => exact (parenthesized_demanding inner).settles _ _ _ _ trio
    | openBracket =>
        exact ((bracketed_demanding inner .openBracket .closeBracket (by decide) (by decide) budget).map
          _).settles _ _ _ _ trio
    | openSet =>
        exact ((bracketed_demanding inner .openSet .closeBrace (by decide) (by decide) budget).map
          _).settles _ _ _ _ trio
    | openMap => exact (mapping_demanding inner budget).settles _ _ _ _ trio
    | fnWord =>
        exact .advance_bind trio fun short' long' probe' trio =>
          ((signature_demanding inner budget).map _).settles _ _ _ _ trio
    | openBrace => exact ((braced_demanding inner budget).map _).settles _ _ _ _ trio
    | printlnWord =>
        exact .advance_bind trio fun short' long' probe' trio =>
          ((parenthesized_demanding inner).map _).settles _ _ _ _ trio
    | ifWord => exact (branch_demanding inner).settles _ _ _ _ trio
    | whileWord => exact (loop_demanding inner).settles _ _ _ _ trio
    | _ => exact .refuseHere _

end

theorem updates_settling (budget : Nat) (operand : Expr) : Settling (updates budget operand) := by
  induction budget generalizing operand with
  | zero => exact Demanding.tooDeep.settling
  | succ budget ih =>
      rw [updates]
      refine .kind_bind fun kind => ?_
      cases updateOp? kind with
      | none => exact .pure operand
      | some op =>
          have taking : Settling take := .token_bind fun token => Settling.advance.map _
          exact taking.bind fun mark => ih _

theorem chain_settling {operand : Parse Expr} (settling : Settling operand) (level : Level)
    (budget : Nat) (lhs : Expr) : Settling (chain operand level budget lhs) := by
  induction budget generalizing lhs with
  | zero => exact Demanding.tooDeep.settling
  | succ budget ih =>
      rw [chain]
      refine .token_bind fun sign => ?_
      cases level.lookup sign.kind with
      | none => exact .pure lhs
      | some op => exact Settling.advance.bind fun _ => settling.bind fun rhs => ih _

section

variable {expr : Parse Expr} (inner : Orderly expr)

include inner

theorem unary_demanding (budget : Nat) : Demanding (unary expr budget) := by
  induction budget with
  | zero => exact .tooDeep
  | succ budget ih =>
      have operand := (primary_demanding inner (budget + 1)).bind (updates_settling (budget + 1))
      have negated : ∀ start : Token, Settling (do
          let operand ← unary expr budget
          return Expr.binary .subtract (.int 0 start.position) operand start.position) :=
        fun start => (ih.map _).settling
      refine .of_tokens (fun stream at_end => ?_) fun k short long probe trio => ?_
      · have other : ¬ stream.current.kind = .minus := at_end.kind_ne (by decide)
        rw [Stuck, unary, Parse.token_bind, if_neg other, at_end.ended]
        exact operand.stuck stream at_end
      · rw [unary]
        refine .token_bind trio (.ite (fun _ => ?_) fun _ => ?_)
        · refine .advance_bind trio fun short' long' probe' trio => ?_
          cases k with
          | zero =>
              -- A minus sign with nothing after it.
              have at_end := trio.at_end
              have other : ¬ short'.current.kind = .number := at_end.kind_ne (by decide)
              refine .ends (.of_eq ?_ ((negated short.current).tame short' at_end))
              rw [Parse.token_bind, if_neg other]
          | succ k =>
              refine .token_bind trio (.ite (fun _ => ?_) fun _ => (negated _).settles _ _ _ _ trio)
              exact .advance_bind trio fun short' long' probe' trio => integer_settles _ _ trio
        · cases updateOp? short.current.kind with
          | some op =>
              exact .advance_bind trio fun short' long' probe' trio =>
                (ih.map _).settles _ _ _ _ trio
          | none => exact operand.settles _ _ _ _ trio

theorem joined_demanding (budget : Nat) (tighter : List Level) :
    Demanding (joined expr budget tighter) := by
  induction tighter with
  | nil => exact unary_demanding inner budget
  | cons level tighter ih => exact ih.bind fun lhs => chain_settling ih.settling level budget lhs

theorem joined_tame (budget : Nat) (tighter : List Level) (stream : TokenStream)
    (plain : stream.current.kind ≠ .minus) (operand : updateOp? stream.current.kind = none)
    (tame : ∀ budget, Tame (primary expr budget) stream) : Tame (joined expr budget tighter) stream := by
  induction tighter with
  | nil =>
      cases budget with
      | zero => exact stuck_tooDeep.tame
      | succ budget =>
          have whole := (tame (budget + 1)).bind fun operand after at_end =>
            (updates_settling (budget + 1) operand).tame after at_end
          refine .of_eq ?_ whole
          rw [joined, unary, Parse.token_bind, if_neg plain, operand]
  | cons level tighter ih =>
      exact ih.bind fun lhs after at_end =>
        (chain_settling (joined_demanding inner budget tighter).settling level budget lhs).tame after
          at_end

omit inner in
theorem joined_stuck (budget : Nat) (tighter : List Level) (stream : TokenStream)
    (plain : stream.current.kind ≠ .minus) (operand : updateOp? stream.current.kind = none)
    (stuck : ∀ budget, Stuck (primary expr budget) stream) :
    Stuck (joined expr budget tighter) stream := by
  induction tighter with
  | nil =>
      cases budget with
      | zero => exact stuck_tooDeep
      | succ budget =>
          rw [Stuck, joined, unary, Parse.token_bind, if_neg plain, operand]
          exact (stuck (budget + 1)).bind
  | cons level tighter ih => exact ih.bind

theorem expressionOf_orderly (budget : Nat) : Orderly (expressionOf expr budget) := by
  have operators := joined_demanding inner budget levels
  have single : ∀ stream, stream.Sound → Items.HasAt stream.item 0 .identifier →
      Items.HasAt stream.item 1 .endOfInput → Tame (joined expr budget levels) stream := by
    intro stream sound named ends
    have tame := fun budget => @primary_name expr budget stream sound named ends
    obtain ⟨token, found, is_name⟩ := named
    cases found
    exact joined_tame inner budget levels stream (is_name ▸ by decide) (is_name ▸ rfl) tame
  have opening : ∀ (stream : TokenStream) (kind : TokenKind), stream.current.kind = kind →
      kind = .openBracket ∨ kind = .fnWord → (∀ budget, Stuck (primary expr budget) stream) →
      Stuck (expressionOf expr budget) stream := by
    intro stream kind here choice stuck
    rw [Stuck, expressionOf, Parse.kind_bind, here]
    rcases choice with rfl | rfl
    · exact joined_stuck budget levels stream (here ▸ by decide) (here ▸ rfl) stuck
    · exact joined_stuck budget levels stream (here ▸ by decide) (here ▸ rfl) stuck
  have demanding : Demanding (expressionOf expr budget) := by
    refine .of_tokens (fun stream at_end => ?_) fun k short long probe trio => ?_
    · rw [Stuck, expressionOf, Parse.kind_bind, at_end.ended]
      exact operators.stuck stream at_end
    · refine .kind_bind trio ?_
      cases here : short.current.kind with
      | letWord | mutableWord => exact ((declaration_demanding inner).map _).settles _ _ _ _ trio
      | identifier =>
          refine .aheadIs_bind 0 .assign (by decide) (by decide) trio (fun le ends after same => ?_)
            fun seen short' long' probe' same _ trio => ?_
          · have last : k = 0 := by omega
            subst last
            have named : Items.HasAt short.item 0 .identifier := ⟨short.current, rfl, here⟩
            rw [← funext same] at named ends
            exact single after (trio.short_sound.of_same same) named ends
          · refine .ite (fun _ => ?_) fun _ => operators.settles _ _ _ _ trio
            exact (assignment_demanding inner).settles _ _ _ _ trio
      | _ => exact operators.settles _ _ _ _ trio
  refine { demanding with name := ?_, bracket := ?_, bracketName := ?_, functionWord := ?_ }
  · intro stream sound named ends
    obtain ⟨after, same, looked⟩ :=
      aheadIs_before_end sound (Nat.le_refl 1) ends .assign (by decide)
    have tame : Tame (do
        if ← aheadIs 0 .assign then assignment expr else joined expr budget levels) stream := by
      refine .of_ok looked (single after (sound.of_same same) ?_ ?_)
      · rw [funext same]
        exact named
      · rw [funext same]
        exact ends
    obtain ⟨token, found, is_name⟩ := named
    cases found
    refine .of_eq ?_ tame
    rw [expressionOf, Parse.kind_bind, is_name]
  · intro stream sound opens ends
    have stuck := fun budget => primary_bracket inner budget stream sound opens (.inl ends)
    obtain ⟨token, found, here⟩ := opens
    cases found
    exact opening stream _ here (.inl rfl) stuck
  · intro stream sound opens named ends
    have stuck := fun budget => primary_bracket inner budget stream sound opens (.inr ⟨named, ends⟩)
    obtain ⟨token, found, here⟩ := opens
    cases found
    exact opening stream _ here (.inl rfl) stuck
  · intro stream sound word ends
    have stuck := fun budget => primary_functionWord inner budget stream sound word ends
    obtain ⟨token, found, here⟩ := word
    cases found
    exact opening stream _ here (.inr rfl) stuck

end

theorem expression_orderly (budget : Nat) : Orderly (expression budget) := by
  induction budget with
  | zero =>
      refine { Demanding.tooDeep with name := ?_, bracket := ?_, bracketName := ?_, functionWord := ?_ }
      · exact fun _ _ _ _ => stuck_tooDeep.tame
      · exact fun _ _ _ _ => stuck_tooDeep
      · exact fun _ _ _ _ _ => stuck_tooDeep
      · exact fun _ _ _ _ => stuck_tooDeep
  | succ budget ih => exact expressionOf_orderly ih (budget + 1)

theorem functionDef_demanding (budget : Nat) : Demanding (functionDef budget) := by
  refine (Demanding.expect .fnWord (by decide)).bind fun start => ?_
  refine ((Demanding.expect .identifier (by decide)).bind fun name => ?_).settling
  exact ((signature_demanding (expression_orderly budget) budget).map _).settling

theorem entry_demanding (budget : Nat) : Demanding (entry budget) := by
  have inner := expression_orderly budget
  have value : Demanding (do return Entry.expression (← expression budget)) := inner.map _
  refine .of_tokens (fun stream at_end => ?_) fun k short long probe trio => ?_
  · have other : ¬ stream.current.kind = .fnWord := at_end.kind_ne (by decide)
    have stuck := value.stuck stream at_end
    rw [Stuck, entry, Parse.kind_bind]
    dsimp only
    rw [if_neg other]
    exact stuck
  · refine .kind_bind trio (.ite (fun here => ?_) fun _ => value.settles _ _ _ _ trio)
    refine .aheadIs_bind 0 .identifier (by decide) (by decide) trio (fun le ends after same => ?_)
      fun seen short' long' probe' same _ trio => ?_
    · have last : k = 0 := by omega
      subst last
      have word : Items.HasAt short.item 0 .fnWord := ⟨short.current, rfl, here⟩
      rw [← funext same] at word ends
      exact (inner.functionWord after (trio.short_sound.of_same same) word ends).bind.tame
    · refine .ite (fun _ => ?_) fun _ => value.settles _ _ _ _ trio
      exact ((functionDef_demanding budget).map _).settles _ _ _ _ trio

theorem endOfElement_settling : Settling endOfElement := by
  refine .kind_bind fun kind => ?_
  cases kind with
  | semicolon => exact .advance
  | endOfInput => exact .pure ()
  | _ => exact (Demanding.refuseHere _ fun _ _ => rfl).settling

theorem elements_settling {α : Type} {element : Parse α} (demanding : Demanding element)
    (budget : Nat) : Settling (elements element budget) := by
  induction budget with
  | zero => exact Demanding.tooDeep.settling
  | succ budget ih =>
      rw [elements]
      refine (skipSemicolons_settling _).bind fun _ => .kind_bind fun kind => .ite (.pure []) ?_
      exact demanding.settling.bind fun first => endOfElement_settling.bind fun _ => ih.map _

def elseLine : Bytes :=
  Bytes.ofString "else\n"

theorem decode_elseLine : Glyph.decode elseLine = Lexer.elseLine :=
  Glyph.decode_ofChars _

/-- The streams of a text that ends a line, of the text with more after it, and of the text with the
word `else` after it: either the text breaks off unfinished, or one of the first two texts has a
fault at its start and the second is refused, or the three go abreast. -/
theorem exists_trio (source more : Bytes) (ends : source.getLast? = some 10) :
    (∃ error, TokenStream.ofSource source = .error error ∧ error.incomplete = true) ∨
    (∃ error, TokenStream.ofSource (source ++ more) = .error error) ∨
    ∃ k short long probe, TokenStream.ofSource source = .ok short ∧
      TokenStream.ofSource (source ++ more) = .ok long ∧
      TokenStream.ofSource (source ++ elseLine) = .ok probe ∧ Trio k short long probe := by
  obtain ⟨k, abreast⟩ := (Lexer.ofSource source).exists_abreast (Lexer.sound_of_free _ rfl)
    (Glyph.getLast?_decode source ends) (Glyph.decode more)
  rw [← ofSource_append source more ends, ← decode_elseLine,
    ← ofSource_append source elseLine ends] at abreast
  cases started' : TokenStream.ofSource (source ++ more) with
  | error error => exact .inr (.inl ⟨error, rfl⟩)
  | ok long =>
      have items' := TokenStream.ofLexer_ok started'
      have there : (Lexer.ofSource (source ++ more)).item 0 = .ok long.current := (items' 0).symm
      cases started : TokenStream.ofSource source with
      | error error =>
          left
          have failed := TokenStream.ofLexer_error.mp started
          cases k with
          | zero =>
              rcases abreast.parting with
                ⟨found, failed', incomplete⟩ | ⟨found, failed'⟩ | ⟨⟨token, found, -⟩, -⟩
              · rw [failed] at failed'
                cases failed'
                exact ⟨error, rfl, incomplete⟩
              · rw [there] at failed'
                cases failed'
              · rw [failed] at found
                cases found
          | succ k =>
              have same := (abreast.same 0 (Nat.succ_pos k)).1
              rw [there, failed] at same
              cases same
      | ok short =>
          right
          right
          have items := TokenStream.ofLexer_ok started
          have here : (Lexer.ofSource source).item 0 = .ok short.current := (items 0).symm
          cases started'' : TokenStream.ofSource (source ++ elseLine) with
          | error error =>
              exfalso
              have failed := TokenStream.ofLexer_error.mp started''
              cases k with
              | zero =>
                  rcases abreast.parting with
                    ⟨found, failed', -⟩ | ⟨found, failed'⟩ | ⟨-, ⟨token, found, -⟩, -⟩
                  · rw [here] at failed'
                    cases failed'
                  · rw [there] at failed'
                    cases failed'
                  · rw [failed] at found
                    cases found
              | succ k =>
                  have same := (abreast.same 0 (Nat.succ_pos k)).2
                  rw [here, failed] at same
                  cases same
          | ok probe =>
              have items'' := TokenStream.ofLexer_ok started''
              refine ⟨k, short, long, probe, rfl, rfl, rfl, (ofSource_within started).sound,
                (ofSource_within started').sound, (ofSource_within started'').sound, ?_⟩
              rw [funext items, funext items', funext items'']
              exact abreast

namespace Entry

/-- Interactive input is refused, as unfinished or not. -/
def Refuses (source : Bytes) (unfinished : Bool) : Prop :=
  ∃ error, parseAll source = .error error ∧ error.incomplete = unfinished

instance (source : Bytes) (unfinished : Bool) : Decidable (Refuses source unfinished) :=
  match read : parseAll source with
  | .error error => decidable_of_iff (error.incomplete = unfinished) (by simp [Refuses, read])
  | .ok entries => isFalse (by simp [Refuses, read])

theorem parseAll_eq (source : Bytes) (budget : Nat) (larger : budgetOf source ≤ budget) :
    parseAll source = (do
        let stream ← TokenStream.ofSource source
        let (result, _) ← (reader budget).run stream
        return result) ∧
      ∀ error, parseAll source = .error error → error.cause ≠ .tooDeep :=
  runOn_steady reader_steady source budget larger

theorem parseAll_of_ofSource {source : Bytes} {error : SyntaxError}
    (failed : TokenStream.ofSource source = .error error) : parseAll source = .error error := by
  rw [(parseAll_eq source _ (Nat.le_refl _)).1, failed]
  rfl

theorem parseAll_ok {source : Bytes} {stream after : TokenStream} {entries : List Entry}
    {budget : Nat} (larger : budgetOf source ≤ budget)
    (started : TokenStream.ofSource source = .ok stream)
    (read : reader budget stream = .ok (entries, after)) : parseAll source = .ok entries := by
  rw [(parseAll_eq source budget larger).1, started]
  change (reader budget stream >>= _) = _
  rw [read]
  rfl

theorem parseAll_error {source : Bytes} {stream : TokenStream} {error : SyntaxError} {budget : Nat}
    (larger : budgetOf source ≤ budget) (started : TokenStream.ofSource source = .ok stream)
    (refused : reader budget stream = .error error) : parseAll source = .error error := by
  rw [(parseAll_eq source budget larger).1, started]
  change (reader budget stream >>= _) = _
  rw [refused]
  rfl

theorem reader_error {source : Bytes} {stream : TokenStream} {error : SyntaxError} {budget : Nat}
    (larger : budgetOf source ≤ budget) (started : TokenStream.ofSource source = .ok stream)
    (refused : parseAll source = .error error) : reader budget stream = .error error := by
  rw [(parseAll_eq source budget larger).1, started] at refused
  change (reader budget stream >>= _) = _ at refused
  cases read : reader budget stream with
  | error found =>
      rw [read] at refused
      cases refused
      rfl
  | ok pair =>
      rw [read] at refused
      cases refused

theorem reader_trio {k budget : Nat} {short long probe : TokenStream} {error : SyntaxError}
    (trio : Trio k short long probe) (read : reader budget short = .error error)
    (final : ¬ error.Lacking) :
    (∃ found, reader budget long = .error found) ∨ Stuck (reader budget) probe := by
  cases (elements_settling (entry_demanding budget) budget).settles k short long probe trio with
  | refused found failed => exact .inl ⟨found, failed⟩
  | ends tame => exact absurd (tame.lacks error read) final
  | probed stuck => exact .inr stuck
  | goes k value short' long' probe' done =>
      have done' : reader budget short = .ok (value, short') := done
      rw [done'] at read
      cases read

/-- A refusal that does not ask for more is final, unless the text has no fault and the word `else`
on the next line makes the reader ask for more. -/
theorem refused_or_else_wanted (source more : Bytes) (ends : source.getLast? = some 10)
    (refused : Refuses source false) :
    (∃ unfinished, Refuses (source ++ more) unfinished) ∨
      (Lexer.ofSource source).Reaches ∧ Refuses (source ++ elseLine) true := by
  obtain ⟨error, refused, final⟩ := refused
  rcases exists_trio source more ends with
    ⟨found, failed, incomplete⟩ | ⟨found, failed⟩ |
    ⟨k, short, long, probe, started, started', started'', trio⟩
  · rw [parseAll_of_ofSource failed] at refused
    cases refused
    rw [incomplete] at final
    cases final
  · exact .inl ⟨_, found, parseAll_of_ofSource failed, rfl⟩
  obtain ⟨budget, enough, enough', enough''⟩ : ∃ budget, budgetOf source ≤ budget ∧
      budgetOf (source ++ more) ≤ budget ∧ budgetOf (source ++ elseLine) ≤ budget := by
    refine ⟨budgetOf source + budgetOf (source ++ more) + budgetOf (source ++ elseLine), ?_⟩
    omega
  have read := reader_error enough started refused
  have settled : ¬ error.Lacking := by
    rintro (incomplete | deep)
    · rw [incomplete] at final
      cases final
    · exact (parseAll_eq source budget enough).2 error refused deep
  -- Where the text has a fault, it can take the place of the text that ends with `else`.
  have faulty (parting : (∃ error, short.item k = .error error ∧ error.incomplete = true) ∨
      ∃ error, long.item k = .error error) : ∃ found, reader budget long = .error found := by
    have abreast : Abreast k short.item long.item short.item :=
      ⟨fun i lt => ⟨(trio.abreast.same i lt).1, rfl⟩, parting.imp_right .inl⟩
    rcases reader_trio ⟨trio.short_sound, trio.long_sound, trio.short_sound, abreast⟩ read settled with
      failed | ⟨found, failed, lacking⟩
    · exact failed
    · rw [read] at failed
      cases failed
      exact absurd lacking settled
  have refuses {found : SyntaxError} (failed : reader budget long = .error found) :
      ∃ unfinished, Refuses (source ++ more) unfinished :=
    ⟨_, found, parseAll_error enough' started' failed, rfl⟩
  rcases trio.abreast.parting with broken | fault | ⟨⟨token, found, ended⟩, -⟩
  · obtain ⟨found, failed⟩ := faulty (.inl broken)
    exact .inl (refuses failed)
  · obtain ⟨found, failed⟩ := faulty (.inr fault)
    exact .inl (refuses failed)
  · rcases reader_trio trio read settled with ⟨found, failed⟩ | ⟨found', failed, lacking⟩
    · exact .inl (refuses failed)
    · have refused' := parseAll_error enough'' started'' failed
      refine .inr ⟨⟨k, token, ?_, ended⟩, found', refused', ?_⟩
      · rw [← TokenStream.ofLexer_ok started]
        exact found
      · exact lacking.resolve_right ((parseAll_eq _ budget enough'').2 found' refused')

end Entry

end Koy
