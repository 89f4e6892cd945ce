import Koy.Proofs.Productions

/-! The grammar, gone through once. Whatever a logic of readers shows of the steps of reading, and
whatever holds of an expression if it holds of its parts, every reader of the grammar has it: each leaves
its form behind, a larger budget makes no difference, and no budget is used up before the bound. -/

namespace Koy

open Parse

/-- From wherever there is room before the bound the readers yield a part, and they take a token for
it. -/
def Parse.Logic.Yields {items : Items} {moved : Token → Token} {bound : Nat}
    (logic : Logic items moved bound) {α : Type} (room : Nat) (part : Nat → α → α → Nat → Prop)
    (reader other : Parse α) : Prop :=
  ∀ n, bound ≤ n + room → logic.Holds n reader other fun a b m => n < m ∧ part n a b m

namespace Grammar

variable {items : Items} {moved : Token → Token} {bound : Nat} (logic : Logic items moved bound)
  {budget budget' n : Nat}

theorem skipSemicolons_holds (wide : bound ≤ n + budget) (larger : budget ≤ budget') :
    logic.Holds n (skipSemicolons budget) (skipSemicolons budget') fun _ _ => Skipped items n := by
  induction budget generalizing budget' n with
  | zero => exact logic.tooDeep wide
  | succ budget ih =>
      obtain ⟨budget', rfl⟩ := Nat.exists_eq_add_one.mpr (Nat.zero_lt_of_lt larger)
      refine logic.kind_bind fun next here => logic.ite (fun is => ?_) fun _ => logic.pure (.done n)
      subst is
      refine logic.advance_bind here (by decide) ?_
      exact logic.weaken (ih (by omega) (by omega)) fun _ _ m _ rest => .step here rest

theorem ne_endOfInput_of_updateOp? {kind : TokenKind} {op : UpdateOp}
    (found : updateOp? kind = some op) : kind ≠ .endOfInput := by
  rintro rfl
  cases found

theorem ne_endOfInput_of_lookup {level : Level} {kind : TokenKind} {op : BinaryOp}
    (listed : level ∈ levels) (found : level.lookup kind = some op) : kind ≠ .endOfInput := by
  have none_listed : ∀ level ∈ levels, level.lookup .endOfInput = none := by decide
  rintro rfl
  rw [none_listed level listed] at found
  cases found

theorem integer_holds {literal : String} {k : Nat} {place : Token} (here : items k = .ok place)
    {post : Expr → Expr → Nat → Prop}
    (met : ∀ value, Decimal.int64? literal = some value →
      post (.int value place.position) (.int value (moved place).position) n) :
    logic.Holds n (integer literal place) (integer literal (moved place)) post := by
  have natural : SyntaxError.Natural fun _ => .outOfRange literal := ⟨fun _ _ => rfl, fun _ => by simp⟩
  unfold integer
  cases read : Decimal.int64? literal with
  | some value => exact logic.pure (met value read)
  | none => exact logic.refuse here natural

theorem paramNames_holds (seen : List String) (wide : bound ≤ n + budget) (larger : budget ≤ budget') :
    logic.Holds n (paramNames budget seen) (paramNames budget' seen) fun a b m =>
      ∃ names, a = seen ++ names ∧ b = seen ++ names ∧
        Listed items (Named items) n names names m := by
  induction budget generalizing budget' n seen with
  | zero => exact logic.tooDeep wide
  | succ budget ih =>
      obtain ⟨budget', rfl⟩ := Nat.exists_eq_add_one.mpr (Nat.zero_lt_of_lt larger)
      refine logic.expect_bind (by decide) fun param here is => ?_
      have natural : SyntaxError.Natural fun _ => .duplicateParameter param.lexeme :=
        ⟨fun _ _ => rfl, fun _ => by simp⟩
      simp only [logic.lexeme_eq]
      refine logic.ite (fun _ => logic.refuse_bind here natural) fun _ => ?_
      refine logic.kind_bind fun next comma => logic.ite (fun is' => ?_) fun _ => ?_
      · subst is'
        refine logic.advance_bind comma (by decide) ?_
        refine logic.weaken (ih _ (by omega) (by omega)) ?_
        rintro _ _ m _ ⟨names, rfl, rfl, rest⟩
        exact ⟨_ :: names, by simp, by simp, .cons (.intro here is) comma rest⟩
      · exact logic.pure ⟨_, rfl, rfl, .one (.intro here is)⟩

theorem params_holds (wide : bound ≤ n + 1 + budget) (larger : budget ≤ budget') :
    logic.Holds n (params budget) (params budget') fun a b m =>
      a = b ∧ Enclosed items (Listed items (Named items)) .openParen .closeParen n a b m := by
  refine logic.mark_bind (by decide) fun opens => ?_
  have close (names : List String) (m : Nat)
      (inside : Listed items (Named items) (n + 1) names names m) :
      logic.Holds m (do discard <| expect .closeParen; return names)
        (do discard <| expect .closeParen; return names) fun a b m =>
          a = b ∧ Enclosed items (Listed items (Named items)) .openParen .closeParen n a b m :=
    logic.mark_bind (by decide) fun closes => logic.pure ⟨rfl, .intro opens inside closes⟩
  refine logic.kind_bind fun next _ => logic.ite (fun _ => close [] _ (.nil _)) fun _ => ?_
  refine logic.bind (paramNames_holds logic [] wide larger) ?_
  rintro _ _ m _ ⟨names, first, second, inside⟩
  rw [first, second]
  exact close names m inside

section

variable {node : Nat → Expr → Expr → Nat → Prop} {expr expr' : Parse Expr} {room : Nat}
  (inner : logic.Yields room node expr expr')

include inner

theorem blockElements_holds (deep : bound ≤ n + room) (wide : bound ≤ n + budget)
    (larger : budget ≤ budget') :
    logic.Holds n (blockElements expr budget) (blockElements expr' budget')
      (Statements items node n) := by
  induction budget generalizing budget' n with
  | zero => exact logic.tooDeep wide
  | succ budget ih =>
      obtain ⟨budget', rfl⟩ := Nat.exists_eq_add_one.mpr (Nat.zero_lt_of_lt larger)
      refine logic.bind (skipSemicolons_holds logic wide larger) fun _ _ m le skipped => ?_
      refine logic.kind_bind fun next _ => logic.ite (fun _ => logic.pure (.nil skipped)) fun _ => ?_
      refine logic.bind (inner m (by omega)) fun a b k _ given => ?_
      refine logic.kind_bind fun next _ => logic.ite (fun _ => ?_) fun _ => ?_
      · exact logic.refuseHere_bind ⟨fun _ _ => rfl, fun _ => by simp⟩
      · have lt := given.1
        exact logic.map (ih (by omega) (by omega) (by omega)) fun as bs l _ rest =>
          .cons skipped given.2 rest

theorem braced_holds (deep : bound ≤ n + 1 + room) (wide : bound ≤ n + 1 + budget)
    (larger : budget ≤ budget') :
    logic.Holds n (braced expr budget) (braced expr' budget') fun a b m =>
      n < m ∧ Braced items moved node n a b m := by
  refine logic.expect_bind (by decide) fun brace here is => ?_
  refine logic.bind (blockElements_holds logic inner deep wide larger) fun as bs m le inside => ?_
  refine logic.mark_bind (by decide) fun closes => logic.pure ⟨by omega, ?_⟩
  exact .intro here (.intro ⟨brace, here, is⟩ inside closes)

theorem signature_holds (deep : bound ≤ n + 1 + room) (wide : bound ≤ n + 1 + budget)
    (larger : budget ≤ budget') :
    logic.Holds n (signature expr budget) (signature expr' budget') fun a b m =>
      n < m ∧ Signature items moved node n a b m := by
  refine logic.bind (params_holds logic wide larger) ?_
  rintro names _ m le ⟨rfl, params⟩
  refine logic.map (braced_holds logic inner (by omega) (by omega) larger) ?_
  rintro ⟨as, p⟩ ⟨bs, q⟩ k _ ⟨lt, body⟩
  exact ⟨by omega, .intro params body⟩

theorem declaration_holds (deep : bound ≤ n + 1 + room) :
    logic.Holds n (declaration expr) (declaration expr') fun a b m =>
      n < m ∧ Declared items moved node n a b m := by
  refine logic.token_bind fun start here => ?_
  have named (k : Nat) (word : k = n ∨ start.kind = .mutableWord ∧ k = n + 1) :
      logic.Holds k
        (do
          discard <| expect .letWord
          let name ← expect .identifier
          discard <| expect .assign
          let value ← expr
          return ({ name := name.lexeme, value, mutable := start.kind = .mutableWord,
                    position := start.position } : ValueDef))
        (do
          discard <| expect .letWord
          let name ← expect .identifier
          discard <| expect .assign
          let value ← expr'
          return ({ name := name.lexeme, value, mutable := start.kind = .mutableWord,
                    position := (moved start).position } : ValueDef))
        fun a b m => n < m ∧ Declared items moved node n a b m := by
    refine logic.mark_bind (by decide) fun letWord => ?_
    refine logic.expect_bind (by decide) fun name there is => ?_
    refine logic.mark_bind (by decide) fun sign => ?_
    refine logic.map (inner _ (by omega)) fun a b m _ given => ?_
    rw [logic.lexeme_eq]
    exact ⟨by have := given.1; omega, .intro here word letWord there is sign given.2⟩
  rw [logic.kind_eq]
  refine logic.ite (fun word => ?_) fun _ => named n (.inl rfl)
  exact logic.advance_bind ⟨start, here, word⟩ (by decide) (named (n + 1) (.inr ⟨word, rfl⟩))

theorem parenthesized_holds (deep : bound ≤ n + 1 + room) :
    logic.Holds n (parenthesized expr) (parenthesized expr') fun a b m =>
      n < m ∧ Enclosed items node .openParen .closeParen n a b m := by
  refine logic.mark_bind (by decide) fun opens => ?_
  refine logic.bind (inner _ deep) fun a b m le given => ?_
  exact logic.mark_bind (by decide) fun closes =>
    logic.pure ⟨by omega, .intro opens given.2 closes⟩

theorem items_holds (close : TokenKind) (deep : bound ≤ n + room) (wide : bound ≤ n + budget)
    (larger : budget ≤ budget') :
    logic.Holds n (Grammar.items expr close budget) (Grammar.items expr' close budget')
      (Listed items node n) := by
  induction budget generalizing budget' n with
  | zero => exact logic.tooDeep wide
  | succ budget ih =>
      obtain ⟨budget', rfl⟩ := Nat.exists_eq_add_one.mpr (Nat.zero_lt_of_lt larger)
      refine logic.kind_bind fun next _ => logic.ite (fun _ => logic.pure (.nil n)) fun _ => ?_
      refine logic.bind (inner n deep) fun a b m _ given => ?_
      have lt := given.1
      refine logic.kind_bind fun next comma => logic.ite (fun is => ?_) fun _ => ?_
      · subst is
        refine logic.advance_bind comma (by decide) ?_
        exact logic.map (ih (by omega) (by omega) (by omega)) fun as bs k _ rest =>
          .cons given.2 comma rest
      · exact logic.pure (.one given.2)

theorem bracketed_holds (opening close : TokenKind) (opens : opening ≠ .endOfInput)
    (closes : close ≠ .endOfInput) (deep : bound ≤ n + 1 + room) (wide : bound ≤ n + 1 + budget)
    (larger : budget ≤ budget') :
    logic.Holds n (bracketed expr opening close budget) (bracketed expr' opening close budget')
      fun a b m => n < m ∧ Enclosed items (Listed items node) opening close n a b m := by
  refine logic.mark_bind opens fun opened => ?_
  refine logic.bind (items_holds logic inner close deep wide larger) fun as bs m le inside => ?_
  exact logic.mark_bind closes fun closed => logic.pure ⟨by omega, .intro opened inside closed⟩

theorem mappingEntries_holds (deep : bound ≤ n + room) (wide : bound ≤ n + budget)
    (larger : budget ≤ budget') :
    logic.Holds n (mappingEntries expr budget) (mappingEntries expr' budget')
      (Listed items (Keyed items node [.identifier, .text] .colon) n) := by
  induction budget generalizing budget' n with
  | zero => exact logic.tooDeep wide
  | succ budget ih =>
      obtain ⟨budget', rfl⟩ := Nat.exists_eq_add_one.mpr (Nat.zero_lt_of_lt larger)
      refine logic.token_bind fun key here => ?_
      simp only [logic.kind_eq, logic.lexeme_eq]
      refine logic.ite (fun _ => logic.pure (.nil n)) fun _ => logic.ite (fun _ => ?_) fun other => ?_
      · exact logic.refuseHere_bind ⟨fun _ _ => rfl, fun _ => by simp⟩
      have is : key.kind ∈ [TokenKind.identifier, .text] := by
        simp only [List.mem_cons, List.not_mem_nil, or_false]
        exact Decidable.byContradiction fun neither => other (not_or.mp neither)
      have proper : key.kind ≠ .endOfInput := by
        rintro ended
        rw [ended] at is
        revert is
        decide
      refine logic.advance_bind ⟨key, here, rfl⟩ proper ?_
      refine logic.mark_bind (by decide) fun sign => ?_
      refine logic.bind (inner _ (by omega)) fun a b m _ given => ?_
      have lt := given.1
      have entry := Keyed.intro here is sign given.2
      refine logic.kind_bind fun next comma => logic.ite (fun is => ?_) fun _ => ?_
      · subst is
        refine logic.advance_bind comma (by decide) ?_
        exact logic.map (ih (by omega) (by omega) (by omega)) fun as bs k _ rest =>
          .cons entry comma rest
      · exact logic.pure (.one entry)

theorem arguments_holds (deep : bound ≤ n + room) (wide : bound ≤ n + budget)
    (larger : budget ≤ budget') :
    logic.Holds n (arguments expr budget) (arguments expr' budget') fun a b m =>
      n < m ∧ Listed items node n a b m := by
  induction budget generalizing budget' n with
  | zero => exact logic.tooDeep wide
  | succ budget ih =>
      obtain ⟨budget', rfl⟩ := Nat.exists_eq_add_one.mpr (Nat.zero_lt_of_lt larger)
      refine logic.bind (inner n deep) fun a b m _ given => ?_
      have lt := given.1
      refine logic.kind_bind fun next comma => logic.ite (fun is => ?_) fun _ => ?_
      · subst is
        refine logic.advance_bind comma (by decide) ?_
        exact logic.map (ih (by omega) (by omega) (by omega)) fun as bs k le rest =>
          ⟨by omega, .cons given.2 comma rest.2⟩
      · exact logic.pure ⟨lt, .one given.2⟩

theorem labeledArguments_holds (seen : List String) (deep : bound ≤ n + room)
    (wide : bound ≤ n + budget) (larger : budget ≤ budget') :
    logic.Holds n (labeledArguments expr budget seen) (labeledArguments expr' budget' seen)
      (Listed items (Keyed items node [.identifier] .assign) n) := by
  induction budget generalizing budget' n seen with
  | zero => exact logic.tooDeep wide
  | succ budget ih =>
      obtain ⟨budget', rfl⟩ := Nat.exists_eq_add_one.mpr (Nat.zero_lt_of_lt larger)
      refine logic.kind_bind fun next _ => logic.ite (fun _ => logic.pure (.nil n)) fun _ => ?_
      refine logic.expect_bind (by decide) fun label here is => ?_
      have natural : SyntaxError.Natural fun _ => .duplicateLabel label.lexeme :=
        ⟨fun _ _ => rfl, fun _ => by simp⟩
      simp only [logic.lexeme_eq]
      refine logic.ite (fun _ => logic.refuse_bind here natural) fun _ => ?_
      refine logic.mark_bind (by decide) fun sign => ?_
      refine logic.bind (inner _ (by omega)) fun a b m _ given => ?_
      have lt := given.1
      have entry := Keyed.intro here (List.mem_singleton.mpr is) sign given.2
      refine logic.kind_bind fun next comma => logic.ite (fun is => ?_) fun _ => ?_
      · subst is
        refine logic.advance_bind comma (by decide) ?_
        exact logic.map (ih _ (by omega) (by omega) (by omega)) fun as bs k _ rest =>
          .cons entry comma rest
      · exact logic.pure (.one entry)

omit inner in
theorem atLabels_bind_eq {β : Type} (next : Bool → Parse β) : (atLabels >>= next) = (do
    if (← kind) = .openBracket then
      if ← aheadIs 0 .identifier then aheadIs 1 .assign >>= next else next false
    else next false) := by
  rw [atLabels, bind_assoc]
  congr 1
  funext here
  split
  · rw [bind_assoc]
    congr 1
    funext seen
    split
    · rfl
    · exact pure_bind false next
  · exact pure_bind false next

omit inner in
/-- Whether arguments are labeled is told by tokens that are passed over with them. -/
theorem atLabels_bind_holds {next next' : Bool → Parse Expr} {post : Expr → Expr → Nat → Prop}
    (rest : ∀ seen, logic.Holds n (next seen) (next' seen) fun a b m =>
      post a b m ∧ (items.HasAt n .openBracket → n + 1 < m)) :
    logic.Holds n (atLabels >>= next) (atLabels >>= next') post := by
  rw [atLabels_bind_eq, atLabels_bind_eq]
  refine logic.kind_bind fun kind here => logic.ite (fun is => ?_) fun _ => ?_
  · subst is
    refine logic.aheadIs_bind here (by decide) 0 (by decide) fun seen _ => ?_
    refine logic.ite (fun _ => ?_) fun _ => ?_
    · refine logic.aheadIs_bind here (by decide) 1 (by decide) fun seen _ => ?_
      refine logic.weaken (rest seen) fun _ _ m _ given => ?_
      have far := given.2 here
      exact ⟨⟨given.1, .inl (Nat.lt_of_succ_lt far)⟩, .inl far⟩
    · refine logic.weaken (rest false) fun _ _ m _ given => ?_
      exact ⟨given.1, .inl (Nat.lt_of_succ_lt (given.2 here))⟩
  · exact logic.weaken (rest false) fun _ _ _ _ given => given.1

section

variable (productions : Productions items moved node)

include productions

theorem assignment_holds (deep : bound ≤ n + 1 + room) :
    logic.Holds n (assignment expr) (assignment expr') fun a b m => n < m ∧ node n a b m := by
  refine logic.expect_bind (by decide) fun name here is => ?_
  refine logic.mark_bind (by decide) fun sign => ?_
  refine logic.map (inner _ (by omega)) fun a b m le given => ?_
  rw [logic.lexeme_eq]
  exact ⟨by omega, productions.assignment here is sign given.2⟩

theorem mapping_holds (deep : bound ≤ n + 1 + room) (wide : bound ≤ n + 1 + budget)
    (larger : budget ≤ budget') :
    logic.Holds n (mapping expr budget) (mapping expr' budget') fun a b m =>
      n < m ∧ node n a b m := by
  refine logic.expect_bind (by decide) fun start here is => ?_
  refine logic.bind (mappingEntries_holds logic inner deep wide larger) fun as bs m le inside => ?_
  refine logic.mark_bind (by decide) fun closes => logic.pure ⟨by omega, ?_⟩
  exact productions.mapping here (.intro ⟨start, here, is⟩ inside closes)

theorem call_holds (deep : bound ≤ n + 1 + room) (wide : bound ≤ n + 1 + budget)
    (larger : budget ≤ budget') :
    logic.Holds n (call expr budget) (call expr' budget') fun a b m => n < m ∧ node n a b m := by
  refine logic.expect_bind (by decide) fun callee here is => ?_
  refine logic.mark_bind (by decide) fun opens => ?_
  simp only [logic.lexeme_eq]
  refine atLabels_bind_holds logic fun seen => logic.ite (fun _ => ?_) fun _ => ?_
  · refine logic.mark_bind (by decide) fun opens' => ?_
    refine logic.bind (labeledArguments_holds logic inner [] (by omega) (by omega) larger)
      fun as bs m le inside => ?_
    refine logic.mark_bind (by decide) fun closes' => ?_
    refine logic.mark_bind (by decide) fun closes => logic.pure ⟨⟨by omega, ?_⟩, fun _ => by omega⟩
    exact productions.labeledCall here is (.intro opens (.intro opens' inside closes') closes)
  · have close (as bs : List Expr) (m : Nat) (le : n + 1 + 1 ≤ m)
        (inside : Listed items node (n + 1 + 1) as bs m)
        (far : items.HasAt (n + 1 + 1) .openBracket → n + 1 + 1 + 1 < m + 1) :
        logic.Holds m
          (do
            discard <| expect .closeParen
            return Expr.call callee.lexeme as callee.position)
          (do
            discard <| expect .closeParen
            return Expr.call callee.lexeme bs (moved callee).position)
          fun a b m => (n < m ∧ node n a b m) ∧
            (items.HasAt (n + 1 + 1) .openBracket → n + 1 + 1 + 1 < m) :=
      logic.mark_bind (by decide) fun closes =>
        logic.pure ⟨⟨by omega, productions.call here is (.intro opens inside closes)⟩, far⟩
    refine logic.kind_bind fun next found => logic.ite (fun empty => ?_) fun _ => ?_
    · refine close [] [] _ (Nat.le_refl _) (.nil _) ?_
      rintro ⟨bracket, there, opened⟩
      obtain ⟨mark, there', closed⟩ := found
      rw [there] at there'
      cases there'
      rw [opened, empty] at closed
      cases closed
    · refine logic.bind (arguments_holds logic inner (by omega) (by omega) larger)
        fun as bs m le given => ?_
      exact close as bs m le given.2 fun _ => by have := given.1; omega

omit productions in
theorem alternative_holds (deep : bound ≤ n + room) :
    logic.Holds n (alternative expr) (alternative expr') (Otherwise items node n) := by
  have value (k : Nat) (le : n ≤ k) (word : items.HasAt k .elseWord)
      (met : ∀ a b m, node (k + 1) a b m → Otherwise items node n (some a) (some b) m) :
      logic.Holds k (do advance; return some (← expr)) (do advance; return some (← expr'))
        (Otherwise items node n) := by
    refine logic.advance_bind word (by decide) ?_
    exact logic.map (inner _ (by omega)) fun a b m _ given => met a b m given.2
  have stay : logic.Holds n
      (do if (← kind) = .elseWord then advance; return some (← expr) else return none)
      (do if (← kind) = .elseWord then advance; return some (← expr') else return none)
      (Otherwise items node n) := by
    refine logic.kind_bind fun next word => logic.ite (fun is => ?_) fun _ => logic.pure (.none n)
    subst is
    exact value n (Nat.le_refl n) word fun a b m => .here word
  have aside {reader other : Parse (Option Expr)}
      (holds : logic.Holds n reader other (Otherwise items node n)) :
      logic.Holds n reader other fun a b m =>
        Otherwise items node n a b m ∧
          (n + 0 < m ∨ n + 0 = m ∧ TokenKind.elseWord = .elseWord) :=
    logic.weaken holds fun _ _ _ le given =>
      ⟨given, (Nat.lt_or_eq_of_le le).imp_right fun same => ⟨same, rfl⟩⟩
  refine logic.kind_bind fun next ends => logic.ite (fun is => ?_) fun _ => stay
  subst is
  refine logic.aheadIs_bind ends (by decide) 0 (by decide) fun seen found =>
    aside (logic.ite (fun is => ?_) fun _ => stay)
  refine logic.advance_bind ends (by decide) (logic.kind_bind fun next there => ?_)
  -- The word that was seen is now current, so the semicolon is not passed over for nothing.
  obtain ⟨token, here, word⟩ := found is
  obtain ⟨token', here', rfl⟩ := there
  obtain rfl : token = token' := Except.ok.inj (here.symm.trans here')
  rw [if_pos word, if_pos word]
  exact value (n + 1) (Nat.le_succ n) ⟨token, here, word⟩ fun a b m =>
    .below ends ⟨token, here, word⟩

theorem branch_holds (deep : bound ≤ n + 1 + room) :
    logic.Holds n (branch expr) (branch expr') fun a b m => n < m ∧ node n a b m := by
  refine logic.expect_bind (by decide) fun start here is => ?_
  refine logic.bind (parenthesized_holds logic inner (by omega)) fun a b m _ condition => ?_
  refine logic.bind (inner m (by omega)) fun c d k _ consequent => ?_
  refine logic.map (alternative_holds logic inner (by omega)) fun o o' l _ other => ?_
  exact ⟨by omega, productions.branch here is condition.2 consequent.2 other⟩

theorem loop_holds (deep : bound ≤ n + 1 + room) :
    logic.Holds n (loop expr) (loop expr') fun a b m => n < m ∧ node n a b m := by
  refine logic.expect_bind (by decide) fun start here is => ?_
  refine logic.bind (parenthesized_holds logic inner (by omega)) fun a b m _ condition => ?_
  refine logic.map (inner m (by omega)) fun c d k _ body => ?_
  exact ⟨by omega, productions.loop here is condition.2 body.2⟩

theorem primary_holds (deep : bound ≤ n + 1 + room) (wide : bound ≤ n + 1 + budget)
    (larger : budget ≤ budget') :
    logic.Holds n (primary expr budget) (primary expr' budget') fun a b m =>
      n < m ∧ node n a b m := by
  refine logic.token_bind fun start here => ?_
  simp only [logic.kind_eq, logic.lexeme_eq]
  have alone := Nat.lt_succ_self n
  have unknown : logic.Holds n (refuseHere .notAnExpression) (refuseHere .notAnExpression)
      fun a b m => n < m ∧ node n a b m := logic.refuseHere ⟨fun _ _ => rfl, fun _ => by simp⟩
  cases is : start.kind with
  | number =>
      refine logic.advance_bind ⟨start, here, is⟩ (by decide) (integer_holds logic here ?_)
      exact fun value digits => ⟨alone, productions.int here is digits⟩
  | text =>
      exact logic.advance_bind ⟨start, here, is⟩ (by decide)
        (logic.pure ⟨alone, productions.text here is⟩)
  | trueWord =>
      exact logic.advance_bind ⟨start, here, is⟩ (by decide)
        (logic.pure ⟨alone, productions.bool true here is⟩)
  | falseWord =>
      exact logic.advance_bind ⟨start, here, is⟩ (by decide)
        (logic.pure ⟨alone, productions.bool false here is⟩)
  | identifier =>
      have present : items.HasAt n .identifier := ⟨start, here, is⟩
      refine logic.aheadIs_bind present (by decide) 0 (by decide) fun seen _ => ?_
      refine logic.ite (fun _ => ?_) fun _ => ?_
      · refine logic.weaken (call_holds logic inner productions deep wide larger) ?_
        exact fun a b m _ given => ⟨given, .inl given.1⟩
      · refine logic.advance_bind present (by decide) (logic.pure ⟨⟨alone, ?_⟩, .inl alone⟩)
        exact productions.identifier here is
  | openParen =>
      refine logic.weaken (parenthesized_holds logic inner deep) fun a b m _ given => ?_
      exact ⟨given.1, productions.parenthesized given.2⟩
  | openBracket =>
      have content := bracketed_holds logic inner .openBracket .closeBracket (by decide) (by decide)
        deep wide larger
      exact logic.map content fun as bs m _ given => ⟨given.1, productions.sequence here given.2⟩
  | openSet =>
      have content := bracketed_holds logic inner .openSet .closeBrace (by decide) (by decide)
        deep wide larger
      exact logic.map content fun as bs m _ given => ⟨given.1, productions.set here given.2⟩
  | openMap => exact mapping_holds logic inner productions deep wide larger
  | fnWord =>
      refine logic.advance_bind ⟨start, here, is⟩ (by decide) ?_
      refine logic.map (signature_holds logic inner (by omega) (by omega) larger) ?_
      rintro _ _ m _ ⟨lt, params, body⟩
      exact ⟨by omega, productions.function here is (.intro params body)⟩
  | openBrace =>
      refine logic.map (braced_holds logic inner deep wide larger) ?_
      rintro ⟨as, p⟩ ⟨bs, q⟩ m _ ⟨lt, block⟩
      exact ⟨lt, productions.block block⟩
  | printlnWord =>
      refine logic.advance_bind ⟨start, here, is⟩ (by decide) ?_
      refine logic.map (parenthesized_holds logic inner (by omega)) fun a b m _ given => ?_
      exact ⟨by omega, productions.println here is given.2⟩
  | ifWord => exact branch_holds logic inner productions deep
  | whileWord => exact loop_holds logic inner productions deep
  | _ => exact unknown

omit inner in
theorem updates_holds (start : Nat) {operand operand' : Expr} (part : node start operand operand' n)
    (wide : bound ≤ n + budget) (larger : budget ≤ budget') :
    logic.Holds n (updates budget operand) (updates budget' operand') (node start) := by
  induction budget generalizing budget' n operand operand' with
  | zero => exact logic.tooDeep wide
  | succ budget ih =>
      obtain ⟨budget', rfl⟩ := Nat.exists_eq_add_one.mpr (Nat.zero_lt_of_lt larger)
      refine logic.kind_bind fun next found => ?_
      cases sign : updateOp? next with
      | none => exact logic.pure part
      | some op =>
          obtain ⟨token, there, rfl⟩ := found
          refine logic.take_bind fun mark here => ?_
          obtain rfl : mark = token := Except.ok.inj (here.symm.trans there)
          refine ⟨ne_endOfInput_of_updateOp? sign, ?_⟩
          exact ih (productions.postfixed part here sign) (by omega) (by omega)

theorem unary_holds (larger : budget ≤ budget') :
    logic.Yields (min (room + 1) budget) node (unary expr budget) (unary expr' budget') := by
  intro n deep
  induction budget generalizing budget' n with
  | zero => exact logic.tooDeep (by omega)
  | succ budget ih =>
      obtain ⟨budget', rfl⟩ := Nat.exists_eq_add_one.mpr (Nat.zero_lt_of_lt larger)
      refine logic.token_bind fun start here => ?_
      rw [logic.kind_eq]
      refine logic.ite (fun minus => ?_) fun _ => ?_
      · refine logic.advance_bind ⟨start, here, minus⟩ (by decide) ?_
        refine logic.token_bind fun literal there => ?_
        rw [logic.kind_eq, logic.lexeme_eq]
        refine logic.ite (fun number => ?_) fun _ => ?_
        · refine logic.advance_bind ⟨literal, there, number⟩ (by decide) ?_
          refine integer_holds logic here fun value digits => ⟨by omega, ?_⟩
          exact productions.negative here minus there number digits
        · refine logic.map (ih (by omega) (n + 1) (by omega)) fun a b m _ given => ?_
          exact ⟨by omega, productions.negation here minus given.2⟩
      · cases sign : updateOp? start.kind with
        | some op =>
            have proper := ne_endOfInput_of_updateOp? sign
            refine logic.advance_bind ⟨start, here, rfl⟩ proper ?_
            refine logic.map (ih (by omega) (n + 1) (by omega)) fun a b m _ given => ?_
            exact ⟨by omega, productions.prefixed here sign given.2⟩
        | none =>
            refine logic.bind (primary_holds logic inner productions (by omega) (by omega) larger)
              fun a b m _ given => ?_
            refine logic.weaken (updates_holds logic productions n given.2 (by omega) larger)
              fun _ _ k _ whole => ?_
            exact ⟨by omega, whole⟩

omit inner in
theorem chain_holds {operand operand' : Parse Expr} (each : logic.Yields room node operand operand')
    {level : Level} (listed : level ∈ levels) (start : Nat) {lhs lhs' : Expr}
    (part : node start lhs lhs' n) (deep : bound ≤ n + room) (wide : bound ≤ n + budget)
    (larger : budget ≤ budget') :
    logic.Holds n (chain operand level budget lhs) (chain operand' level budget' lhs')
      (node start) := by
  induction budget generalizing budget' n lhs lhs' with
  | zero => exact logic.tooDeep wide
  | succ budget ih =>
      obtain ⟨budget', rfl⟩ := Nat.exists_eq_add_one.mpr (Nat.zero_lt_of_lt larger)
      refine logic.token_bind fun sign here => ?_
      rw [logic.kind_eq]
      cases found : level.lookup sign.kind with
      | none => exact logic.pure part
      | some op =>
          refine logic.advance_bind ⟨sign, here, rfl⟩ (ne_endOfInput_of_lookup listed found) ?_
          refine logic.bind (each (n + 1) (by omega)) fun a b m _ given => ?_
          have longer := productions.binary part here listed found given.2
          exact ih longer (by omega) (by omega) (by omega)

theorem joined_holds {tighter : List Level} (listed : ∀ level ∈ tighter, level ∈ levels)
    (larger : budget ≤ budget') :
    logic.Yields (min (room + 1) budget) node (joined expr budget tighter)
      (joined expr' budget' tighter) := by
  induction tighter with
  | nil => exact unary_holds logic inner productions larger
  | cons level tighter ih =>
      have operand := ih fun level member => listed level (.tail _ member)
      intro n deep
      refine logic.bind (operand n deep) fun a b m _ given => ?_
      have deep' : bound ≤ m + min (room + 1) budget := by omega
      have rest := chain_holds logic productions operand (listed level (.head _)) n given.2 deep'
        (by omega) larger
      exact logic.weaken rest fun _ _ k _ whole => ⟨by omega, whole⟩

theorem expressionOf_holds (larger : budget ≤ budget') :
    logic.Yields (min (room + 1) budget) node (expressionOf expr budget)
      (expressionOf expr' budget') := by
  have operators := joined_holds logic inner productions (fun _ member => member) larger
  intro n deep
  have declared : logic.Holds n (do return (← declaration expr).declaration)
      (do return (← declaration expr').declaration) fun a b m => n < m ∧ node n a b m :=
    logic.map (declaration_holds logic inner (by omega)) fun _ _ m _ given =>
      ⟨given.1, productions.declaration given.2⟩
  refine logic.kind_bind fun next here => ?_
  cases next with
  | letWord | mutableWord => exact declared
  | identifier =>
      refine logic.aheadIs_bind here (by decide) 0 (by decide) fun seen _ => ?_
      refine logic.ite (fun _ => ?_) fun _ => ?_
      · refine logic.weaken (assignment_holds logic inner productions (by omega)) ?_
        exact fun _ _ m _ given => ⟨given, .inl given.1⟩
      · exact logic.weaken (operators n deep) fun _ _ m _ given => ⟨given, .inl given.1⟩
  | _ => exact operators n deep

end

end

section

variable {node : Nat → Expr → Expr → Nat → Prop} (productions : Productions items moved node)

include productions

theorem expression_holds (larger : budget ≤ budget') :
    logic.Yields budget node (expression budget) (expression budget') := by
  induction budget generalizing budget' with
  | zero => exact fun n spent => logic.tooDeep spent
  | succ budget ih =>
      obtain ⟨budget', rfl⟩ := Nat.exists_eq_add_one.mpr (Nat.zero_lt_of_lt larger)
      have inner := ih (Nat.le_of_succ_le_succ larger)
      exact fun n deep => expressionOf_holds logic inner productions larger n (by omega)

theorem functionDef_holds (larger : budget ≤ budget') :
    logic.Yields budget (Defined items moved node) (functionDef budget) (functionDef budget') := by
  intro n deep
  have inner := expression_holds logic productions larger
  refine logic.expect_bind (by decide) fun start here is => ?_
  refine logic.expect_bind (by decide) fun name there is' => ?_
  rw [logic.lexeme_eq]
  refine logic.map (signature_holds logic inner (by omega) (by omega) larger) ?_
  rintro _ _ m _ ⟨lt, params, body⟩
  exact ⟨by omega, .intro here is there is' (.intro params body)⟩

theorem definition_holds (larger : budget ≤ budget') :
    logic.Yields budget (TopLevel items moved node) (definition budget) (definition budget') := by
  intro n deep
  have inner := expression_holds logic productions larger
  have value : logic.Holds n (do return .value (← declaration (expression budget)))
      (do return .value (← declaration (expression budget'))) fun a b m =>
        n < m ∧ TopLevel items moved node n a b m :=
    logic.map (declaration_holds logic inner (by omega)) fun _ _ m _ given =>
      ⟨given.1, .value given.2⟩
  refine logic.kind_bind fun next _ => ?_
  cases next with
  | fnWord =>
      exact logic.map (functionDef_holds logic productions larger n deep) fun _ _ m _ given =>
        ⟨given.1, .function given.2⟩
  | letWord | mutableWord => exact value
  | _ => exact logic.refuseHere ⟨fun _ _ => rfl, fun _ => by simp⟩

theorem entry_holds (larger : budget ≤ budget') :
    logic.Yields budget (Entered items moved node) (entry budget) (entry budget') := by
  intro n deep
  have plain : logic.Holds n (do return .expression (← expression budget))
      (do return .expression (← expression budget')) fun a b m =>
        n < m ∧ Entered items moved node n a b m :=
    logic.map (expression_holds logic productions larger n deep) fun _ _ m _ given =>
      ⟨given.1, .expression given.2⟩
  refine logic.kind_bind fun next here => logic.ite (fun is => ?_) fun _ => plain
  subst is
  refine logic.aheadIs_bind here (by decide) 0 (by decide) fun seen _ => ?_
  refine logic.ite (fun _ => ?_) fun _ => ?_
  · exact logic.map (functionDef_holds logic productions larger n deep) fun _ _ m _ given =>
      ⟨⟨given.1, .function given.2⟩, .inl given.1⟩
  · exact logic.weaken plain fun _ _ m _ given => ⟨given, .inl given.1⟩

theorem wholeExpression_holds (wide : bound ≤ budget) (larger : budget ≤ budget') :
    logic.Holds 0 (wholeExpression budget) (wholeExpression budget') fun a b _ =>
      ∃ m k, node m a b k := by
  refine logic.bind (skipSemicolons_holds logic (by omega) larger) fun _ _ m _ _ => ?_
  refine logic.bind (expression_holds logic productions larger m (by omega)) fun a b k _ given => ?_
  refine logic.bind (skipSemicolons_holds logic (by omega) larger) fun _ _ l _ _ => ?_
  refine logic.kind_bind fun next _ => logic.ite (fun _ => logic.pure ⟨m, k, given.2⟩) fun _ => ?_
  exact logic.refuseHere ⟨fun _ _ => rfl, fun _ => by simp⟩

end

theorem endOfElement_holds :
    logic.Holds n endOfElement endOfElement fun _ _ => Skipped items n := by
  refine logic.kind_bind fun next here => ?_
  cases next with
  | semicolon =>
      have passed : logic.Holds n (advance >>= Pure.pure) (advance >>= Pure.pure)
          fun _ _ => Skipped items n :=
        logic.advance_bind here (by decide) (logic.pure (.step here (.done _)))
      rwa [bind_pure] at passed
  | endOfInput => exact logic.pure (.done n)
  | _ => exact logic.refuseHere ⟨fun _ _ => rfl, fun _ => by simp⟩

theorem elements_holds {α : Type} {element element' : Parse α} {part : Nat → α → α → Nat → Prop}
    {room : Nat} (inner : logic.Yields room part element element') (deep : bound ≤ n + room)
    (wide : bound ≤ n + budget) (larger : budget ≤ budget') :
    logic.Holds n (elements element budget) (elements element' budget') fun as bs m =>
      Statements items part n as bs m ∧ items.HasAt m .endOfInput := by
  induction budget generalizing budget' n with
  | zero => exact logic.tooDeep wide
  | succ budget ih =>
      obtain ⟨budget', rfl⟩ := Nat.exists_eq_add_one.mpr (Nat.zero_lt_of_lt larger)
      refine logic.bind (skipSemicolons_holds logic wide larger) fun _ _ m le skipped => ?_
      refine logic.kind_bind fun next here => logic.ite (fun is => ?_) fun _ => ?_
      · exact logic.pure ⟨.nil skipped, is ▸ here⟩
      refine logic.bind (inner m (by omega)) fun a b k _ given => ?_
      refine logic.bind (endOfElement_holds logic) fun _ _ l _ ended => ?_
      have lt := given.1
      exact logic.map (ih (by omega) (by omega) (by omega)) fun as bs _ _ rest =>
        ⟨.cons skipped given.2 (rest.1.behind ended), rest.2⟩

end Grammar

open Grammar

def Program.reader (budget : Nat) : Parse Program := do
  return { definitions := ← elements (Grammar.definition budget) budget }

def Entry.reader (budget : Nat) : Parse (List Entry) :=
  elements (entry budget) budget

section

variable {items : Items} {moved : Token → Token} {bound : Nat} (logic : Logic items moved bound)
  {node : Nat → Expr → Expr → Nat → Prop} (productions : Productions items moved node)
  {budget budget' room : Nat} (wide : bound ≤ budget) (larger : budget ≤ budget')

include productions wide larger

theorem Program.reader_holds :
    logic.Holds 0 (reader budget) (reader budget') fun a b m =>
      Statements items (TopLevel items moved node) 0 a.definitions b.definitions m ∧
        items.HasAt m .endOfInput := by
  have each := definition_holds logic productions larger
  exact logic.map (elements_holds logic each (by omega) (by omega) larger) fun _ _ _ _ given => given

theorem Entry.reader_holds (longer : budget ≤ room) :
    logic.Holds 0 (reader budget) (elements (entry budget') room) fun as bs m =>
      Statements items (Entered items moved node) 0 as bs m ∧ items.HasAt m .endOfInput :=
  elements_holds logic (entry_holds logic productions larger) (by omega) (by omega) longer

end

end Koy
