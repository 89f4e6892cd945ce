import Koy.Proofs.Productions

/-! Forms of the grammar on moved tokens. The trees are the same, moved; each form leaves open the
brackets that it found open, and stops behind a token that may end a statement. -/

namespace Koy

open Grammar

section

variable (move : Position → Position)

def Definition.relocate : Definition → Definition
  | .function defined => .function (defined.relocate move)
  | .value defined => .value (defined.relocate move)
  | .missing => .missing

def Program.relocate (program : Program) : Program :=
  { definitions := program.definitions.map (Definition.relocate move) }

end

theorem Definition.relocate_id (definition : Definition) : definition.relocate id = definition := by
  cases definition with
  | function defined => rw [relocate, FunctionDef.relocate_id]
  | value defined => rw [relocate, ValueDef.relocate_id]
  | missing => rfl

theorem Program.relocate_id (program : Program) : program.relocate id = program := by
  rw [relocate, funext Definition.relocate_id]
  exact congrArg Program.mk (List.map_id _)

namespace Items

def opened (items : Items) : Nat → List TokenKind
  | 0 => []
  | n + 1 => match items n with
    | .ok token => Lexer.bracketsAfter (items.opened n) token.kind
    | .error _ => items.opened n

variable {items : Items}

theorem opened_succ {n : Nat} {token : Token} (here : items n = .ok token) :
    items.opened (n + 1) = Lexer.bracketsAfter (items.opened n) token.kind := by
  rw [opened, here]

theorem opened_eq_foldl {tokens : List Token}
    (found : ∀ n (inside : n < tokens.length), items n = .ok tokens[n]) :
    items.opened tokens.length =
      tokens.foldl (fun opened token => Lexer.bracketsAfter opened token.kind) [] := by
  have upTo (n : Nat) (le : n ≤ tokens.length) : items.opened n =
      (tokens.take n).foldl (fun opened token => Lexer.bracketsAfter opened token.kind) [] := by
    induction n with
    | zero => rfl
    | succ n ih =>
        rw [opened_succ (found n le), ih (Nat.le_of_succ_le le), List.take_succ_eq_append_getElem le,
          List.foldl_append]
        rfl
  rw [upTo _ (Nat.le_refl _), List.take_length]

/-- The same brackets are open at two places, of which the first is not behind the second. -/
structure Balanced (items : Items) (n m : Nat) : Prop where
  le : n ≤ m
  even : items.opened m = items.opened n

def EndsAt (items : Items) (m : Nat) : Prop :=
  ∃ k token, m = k + 1 ∧ items k = .ok token ∧ token.kind.endsStatement = true

/-- From one place to the other there is something that can stand as a statement. -/
structure Whole (items : Items) (n m : Nat) : Prop where
  lt : n < m
  even : items.opened m = items.opened n
  ends : items.EndsAt m

variable {n m k : Nat} {kind : TokenKind}

theorem Balanced.refl (n : Nat) : items.Balanced n n :=
  ⟨Nat.le_refl n, rfl⟩

theorem Balanced.trans (first : items.Balanced n m) (second : items.Balanced m k) :
    items.Balanced n k :=
  ⟨Nat.le_trans first.le second.le, second.even.trans first.even⟩

theorem Whole.balanced (whole : items.Whole n m) : items.Balanced n m :=
  ⟨Nat.le_of_lt whole.lt, whole.even⟩

theorem Balanced.trans_whole (first : items.Balanced n m) (second : items.Whole m k) :
    items.Whole n k :=
  ⟨Nat.lt_of_le_of_lt first.le second.lt, second.even.trans first.even, second.ends⟩

theorem Whole.trans (first : items.Whole n m) (second : items.Whole m k) : items.Whole n k :=
  first.balanced.trans_whole second

theorem balanced_of_plain (here : items.HasAt n kind)
    (plain : kind.opens = false ∧ kind.closes = false) : items.Balanced n (n + 1) := by
  obtain ⟨token, found, is⟩ := here
  refine ⟨Nat.le_succ n, ?_⟩
  rw [opened_succ found, is, Lexer.bracketsAfter, plain.1, plain.2]
  rfl

theorem whole_of_token (here : items.HasAt n kind) (plain : kind.opens = false ∧ kind.closes = false)
    (ends : kind.endsStatement = true) : items.Whole n (n + 1) := by
  obtain ⟨token, found, is⟩ := here
  exact ⟨Nat.lt_succ_self n, (balanced_of_plain ⟨token, found, is⟩ plain).even, n, token, rfl, found,
    is ▸ ends⟩

theorem endsStatement_of_closes (closes : kind.closes = true) :
    kind.endsStatement = true ∧ kind.opens = false := by
  revert closes
  cases kind <;> decide

end Items

open Items

variable {items : Items} {move : Position → Position} {n m : Nat} {α : Type}
  {part : Nat → α → α → Nat → Prop}

theorem Skipped.balanced (skipped : Skipped items n m) : items.Balanced n m := by
  induction skipped with
  | done n => exact .refl n
  | step here _ ih => exact (balanced_of_plain here ⟨rfl, rfl⟩).trans ih

theorem Listed.balanced {as bs : List α} (listed : Listed items part n as bs m)
    (each : ∀ n a b m, part n a b m → items.Balanced n m) : items.Balanced n m := by
  induction listed with
  | nil n => exact .refl n
  | one first => exact each _ _ _ _ first
  | cons first comma _ ih =>
      exact ((each _ _ _ _ first).trans (balanced_of_plain comma ⟨rfl, rfl⟩)).trans ih

theorem Statements.balanced {as bs : List α} (statements : Statements items part n as bs m)
    (each : ∀ n a b m, part n a b m → items.Balanced n m) : items.Balanced n m := by
  induction statements with
  | nil skipped => exact skipped.balanced
  | cons skipped first _ ih => exact (skipped.balanced.trans (each _ _ _ _ first)).trans ih

theorem Enclosed.whole {opening closing : TokenKind} {a b : α}
    (enclosed : Enclosed items part opening closing n a b m)
    (pair : opening.opens = true ∧ closing.closes = true)
    (each : ∀ n a b m, part n a b m → items.Balanced n m) : items.Whole n m := by
  obtain ⟨⟨first, here, opens⟩, inside, ⟨last, there, closes⟩⟩ := enclosed
  obtain ⟨ends, other⟩ := endsStatement_of_closes pair.2
  have even := each _ _ _ _ inside
  refine ⟨Nat.lt_succ_of_lt even.le, ?_, _, last, rfl, there, closes ▸ ends⟩
  rw [opened_succ there, even.even, opened_succ here, opens, closes, Lexer.bracketsAfter,
    Lexer.bracketsAfter, other, pair.1, pair.2]
  rfl

theorem Keyed.balanced {keys : List TokenKind} {mark : TokenKind} {a b : String × α}
    (keyed : Keyed items part keys mark n a b m)
    (plain : ∀ kind ∈ mark :: keys, kind.opens = false ∧ kind.closes = false)
    (each : ∀ n a b m, part n a b m → items.Balanced n m) : items.Balanced n m := by
  obtain ⟨here, is, sign, value⟩ := keyed
  have key := balanced_of_plain ⟨_, here, rfl⟩ (plain _ (.tail _ is))
  exact (key.trans (balanced_of_plain sign (plain _ (.head _)))).trans (each _ _ _ _ value)

theorem Named.balanced {a b : String} (named : Named items n a b m) : items.Balanced n m := by
  obtain ⟨here, is⟩ := named
  exact balanced_of_plain ⟨_, here, is⟩ ⟨rfl, rfl⟩

/-- The second tree is the first, moved, and its tokens can stand as a statement. -/
def MovedTree (items : Items) (move : Position → Position) (n : Nat) (a b : Expr) (m : Nat) : Prop :=
  b = a.relocate move ∧ items.Whole n m

namespace MovedTree

theorem balanced (n : Nat) (a b : Expr) (m : Nat) (moved : MovedTree items move n a b m) :
    items.Balanced n m :=
  moved.2.balanced

theorem listed {as bs : List Expr} (listed : Listed items (MovedTree items move) n as bs m) :
    bs = Expr.relocateAll move as := by
  induction listed with
  | nil => rfl
  | one first => rw [first.1]; rfl
  | cons first _ _ ih => rw [first.1, ih]; rfl

theorem statements {as bs : List Expr}
    (statements : Statements items (MovedTree items move) n as bs m) :
    bs = Expr.relocateAll move as := by
  induction statements with
  | nil => rfl
  | cons _ first _ ih => rw [first.1, ih]; rfl

theorem entries {as bs : List (String × Expr)} {keys : List TokenKind} {mark : TokenKind}
    (listed : Listed items (Keyed items (MovedTree items move) keys mark) n as bs m) :
    bs = Expr.relocateEntries move as := by
  induction listed with
  | nil => rfl
  | one first =>
      obtain ⟨-, -, -, value⟩ := first
      rw [value.1]
      rfl
  | cons first _ _ ih =>
      obtain ⟨-, -, -, value⟩ := first
      rw [value.1, ih]
      rfl

theorem otherwise {a b : Option Expr} {k : Nat}
    (other : Otherwise items (MovedTree items move) n a b m) (before : items.Whole k n) :
    b = Expr.relocateAlternative move a ∧ items.Whole k m := by
  cases other with
  | none => exact ⟨rfl, before⟩
  | here word value =>
      have passed := before.balanced.trans (balanced_of_plain word ⟨rfl, rfl⟩)
      exact ⟨congrArg some value.1, passed.trans_whole value.2⟩
  | below ends word value =>
      have passed := before.balanced.trans (balanced_of_plain ends ⟨rfl, rfl⟩)
      have passed' := passed.trans (balanced_of_plain word ⟨rfl, rfl⟩)
      exact ⟨congrArg some value.1, passed'.trans_whole value.2⟩

theorem braced {a b : List Expr × Position}
    (braced : Braced items (Token.relocate move) (MovedTree items move) n a b m) :
    b = (Expr.relocateAll move a.1, move a.2) ∧ items.Whole n m := by
  obtain ⟨here, block⟩ := braced
  refine ⟨?_, block.whole ⟨rfl, rfl⟩ fun _ _ _ _ inside => inside.balanced balanced⟩
  obtain ⟨-, inside, -⟩ := block
  rw [statements inside]
  rfl

theorem signature {a b : List String × Body}
    (signature : Signature items (Token.relocate move) (MovedTree items move) n a b m) :
    b = (a.1, a.2.relocate move) ∧ items.Whole n m := by
  obtain ⟨params, body⟩ := signature
  obtain ⟨same, whole⟩ := braced body
  cases same
  have names := params.whole ⟨rfl, rfl⟩ fun _ _ _ _ inside =>
    inside.balanced fun _ _ _ _ => Named.balanced
  exact ⟨rfl, names.trans whole⟩

theorem declared {a b : ValueDef}
    (declared : Declared items (Token.relocate move) (MovedTree items move) n a b m) :
    b = a.relocate move ∧ items.Whole n m := by
  obtain ⟨here, word, letWord, there, is, sign, value⟩ := declared
  refine ⟨by rw [value.1]; rfl, ?_⟩
  have name := balanced_of_plain ⟨_, there, is⟩ ⟨rfl, rfl⟩
  have sign := balanced_of_plain sign ⟨rfl, rfl⟩
  have whole := ((balanced_of_plain letWord ⟨rfl, rfl⟩).trans (name.trans sign)).trans_whole value.2
  rcases word with rfl | ⟨is, rfl⟩
  · exact whole
  · exact (balanced_of_plain ⟨_, here, is⟩ ⟨rfl, rfl⟩).trans_whole whole

theorem defined {a b : FunctionDef}
    (defined : Defined items (Token.relocate move) (MovedTree items move) n a b m) :
    b = a.relocate move ∧ items.Whole n m := by
  obtain ⟨here, word, there, is, function⟩ := defined
  obtain ⟨same, whole⟩ := signature function
  cases same
  have first := balanced_of_plain ⟨_, here, word⟩ ⟨rfl, rfl⟩
  exact ⟨rfl, (first.trans (balanced_of_plain ⟨_, there, is⟩ ⟨rfl, rfl⟩)).trans_whole whole⟩

theorem topLevel {a b : Definition}
    (element : TopLevel items (Token.relocate move) (MovedTree items move) n a b m) :
    b = a.relocate move ∧ items.Whole n m := by
  cases element with
  | function function => exact ⟨congrArg Definition.function (defined function).1, (defined function).2⟩
  | value value => exact ⟨congrArg Definition.value (declared value).1, (declared value).2⟩

theorem entered {a b : Entry}
    (element : Entered items (Token.relocate move) (MovedTree items move) n a b m) :
    b = a.relocate move ∧ items.Whole n m := by
  cases element with
  | function function => exact ⟨congrArg Entry.function (defined function).1, (defined function).2⟩
  | expression whole => exact ⟨congrArg Entry.expression whole.1, whole.2⟩

theorem updateOp?_plain {kind : TokenKind} {op : UpdateOp} (found : updateOp? kind = some op) :
    (kind.opens = false ∧ kind.closes = false) ∧ kind.endsStatement = true := by
  cases kind <;> cases found <;> decide

theorem levels_plain {level : Grammar.Level} (listed : level ∈ levels) {kind : TokenKind}
    {op : BinaryOp} (found : level.lookup kind = some op) :
    kind.opens = false ∧ kind.closes = false := by
  have each : ∀ level ∈ levels, (level.lookup kind).isSome = true →
      kind.opens = false ∧ kind.closes = false := by
    cases kind <;> decide
  exact each level listed (by rw [found]; rfl)

theorem productions : Productions items (Token.relocate move) (MovedTree items move) where
  int here is _ := ⟨rfl, whole_of_token ⟨_, here, is⟩ ⟨rfl, rfl⟩ rfl⟩
  negative here is there number _ := by
    have sign := balanced_of_plain ⟨_, here, is⟩ ⟨rfl, rfl⟩
    exact ⟨rfl, sign.trans_whole (whole_of_token ⟨_, there, number⟩ ⟨rfl, rfl⟩ rfl)⟩
  negation here is operand := by
    have sign := balanced_of_plain ⟨_, here, is⟩ ⟨rfl, rfl⟩
    exact ⟨by rw [operand.1]; rfl, sign.trans_whole operand.2⟩
  text here is := ⟨rfl, whole_of_token ⟨_, here, is⟩ ⟨rfl, rfl⟩ rfl⟩
  bool value here is := by
    refine ⟨rfl, whole_of_token ⟨_, here, is⟩ ?_ ?_⟩ <;> cases value <;> decide
  identifier here is := ⟨rfl, whole_of_token ⟨_, here, is⟩ ⟨rfl, rfl⟩ rfl⟩
  parenthesized inside := by
    have whole := inside.whole ⟨rfl, rfl⟩ balanced
    obtain ⟨-, inside, -⟩ := inside
    exact ⟨inside.1, whole⟩
  sequence _ content := by
    have whole := content.whole ⟨rfl, rfl⟩ fun _ _ _ _ inside => inside.balanced balanced
    obtain ⟨-, inside, -⟩ := content
    exact ⟨by rw [listed inside]; rfl, whole⟩
  set _ content := by
    have whole := content.whole ⟨rfl, rfl⟩ fun _ _ _ _ inside => inside.balanced balanced
    obtain ⟨-, inside, -⟩ := content
    exact ⟨by rw [listed inside]; rfl, whole⟩
  mapping _ content := by
    have whole := content.whole ⟨rfl, rfl⟩ fun _ _ _ _ inside =>
      inside.balanced fun _ _ _ _ entry => entry.balanced (by decide) balanced
    obtain ⟨-, inside, -⟩ := content
    exact ⟨by rw [entries inside]; rfl, whole⟩
  function here is function := by
    obtain ⟨same, whole⟩ := signature function
    cases same
    exact ⟨rfl, (balanced_of_plain ⟨_, here, is⟩ ⟨rfl, rfl⟩).trans_whole whole⟩
  block block := by
    obtain ⟨same, whole⟩ := braced block
    cases same
    exact ⟨rfl, whole⟩
  println here is argument := by
    have word := balanced_of_plain ⟨_, here, is⟩ ⟨rfl, rfl⟩
    have whole := word.trans_whole (argument.whole ⟨rfl, rfl⟩ balanced)
    obtain ⟨-, inside, -⟩ := argument
    exact ⟨by rw [inside.1]; rfl, whole⟩
  branch here is condition consequent alternative := by
    have word := balanced_of_plain ⟨_, here, is⟩ ⟨rfl, rfl⟩
    have tested := word.trans_whole (condition.whole ⟨rfl, rfl⟩ balanced)
    obtain ⟨same, whole⟩ := otherwise alternative (tested.trans consequent.2)
    obtain ⟨-, inside, -⟩ := condition
    exact ⟨by rw [inside.1, consequent.1, same]; rfl, whole⟩
  loop here is condition body := by
    have word := balanced_of_plain ⟨_, here, is⟩ ⟨rfl, rfl⟩
    have tested := word.trans_whole (condition.whole ⟨rfl, rfl⟩ balanced)
    obtain ⟨-, inside, -⟩ := condition
    exact ⟨by rw [inside.1, body.1]; rfl, tested.trans body.2⟩
  call here is arguments := by
    have name := balanced_of_plain ⟨_, here, is⟩ ⟨rfl, rfl⟩
    have whole := arguments.whole ⟨rfl, rfl⟩ fun _ _ _ _ inside => inside.balanced balanced
    obtain ⟨-, inside, -⟩ := arguments
    exact ⟨by rw [listed inside]; rfl, name.trans_whole whole⟩
  labeledCall here is arguments := by
    have name := balanced_of_plain ⟨_, here, is⟩ ⟨rfl, rfl⟩
    have whole := arguments.whole ⟨rfl, rfl⟩ fun _ _ _ _ labels =>
      (labels.whole ⟨rfl, rfl⟩ fun _ _ _ _ inside =>
        inside.balanced fun _ _ _ _ entry => entry.balanced (by decide) balanced).balanced
    obtain ⟨-, ⟨-, inside, -⟩, -⟩ := arguments
    exact ⟨by rw [entries inside]; rfl, name.trans_whole whole⟩
  prefixed here sign operand := by
    have mark := balanced_of_plain ⟨_, here, rfl⟩ (updateOp?_plain sign).1
    exact ⟨by rw [operand.1]; rfl, mark.trans_whole operand.2⟩
  postfixed operand here sign := by
    obtain ⟨plain, ends⟩ := updateOp?_plain sign
    exact ⟨by rw [operand.1]; rfl, operand.2.trans (whole_of_token ⟨_, here, rfl⟩ plain ends)⟩
  binary lhs here listed found rhs := by
    have sign := balanced_of_plain ⟨_, here, rfl⟩ (levels_plain listed found)
    exact ⟨by rw [lhs.1, rhs.1]; rfl, lhs.2.trans (sign.trans_whole rhs.2)⟩
  declaration given := by
    obtain ⟨rfl, whole⟩ := declared given
    exact ⟨rfl, whole⟩
  assignment here is sign value := by
    have name := balanced_of_plain ⟨_, here, is⟩ ⟨rfl, rfl⟩
    have passed := name.trans (balanced_of_plain sign ⟨rfl, rfl⟩)
    exact ⟨by rw [value.1]; rfl, passed.trans_whole value.2⟩

end MovedTree

end Koy
