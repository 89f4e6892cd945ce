import Koy.Grammar
import Koy.Proofs.Glyphs
import Koy.Proofs.Reading

/-! The grammar reads the words of an expression as that expression. -/

namespace Koy

open Parse Grammar Word

namespace Expr

theorem wordsAll_eq (items : List Expr) : wordsAll items = items.map words := by
  induction items with
  | nil => rfl
  | cons item rest ih => rw [wordsAll, ih, List.map_cons]

theorem printableAll_iff (items : List Expr) :
    printableAll items = true ↔ ∀ item ∈ items, item.printable = true := by
  induction items with
  | nil => simp [printableAll]
  | cons item rest ih => simp [printableAll, ih]

theorem printableEntries_iff (entries : List (String × Expr)) :
    printableEntries entries = true ↔
      ∀ entry ∈ entries, printableName entry.1 = true ∧ entry.2.printable = true := by
  induction entries with
  | nil => simp [printableEntries]
  | cons entry rest ih => simp [printableEntries, ih]

end Expr

/-! What can start an expression and what can come after one. -/

namespace TokenKind

def starts : TokenKind → Bool
  | .identifier | .number | .text | .fnWord | .letWord | .mutableWord | .ifWord | .whileWord
  | .printlnWord | .trueWord | .falseWord | .minus | .increment | .decrement | .openParen
  | .openBrace | .openBracket | .openSet | .openMap => true
  | _ => false

def separates : TokenKind → Bool
  | .endOfInput | .elseWord | .comma | .semicolon | .closeParen | .closeBrace | .closeBracket => true
  | _ => false

def follows (kind : TokenKind) : Bool :=
  kind.separates || levels.any fun level => (level.lookup kind).isSome

theorem follows_of_separates {kind : TokenKind} (separates : kind.separates = true) :
    kind.follows = true := by
  rw [follows, separates]
  rfl

theorem follows_token (op : BinaryOp) (known : op.known = true) : op.token.follows = true := by
  cases op with
  | unknown code => cases known
  | _ => rfl

theorem of_follows {kind : TokenKind} (follows : kind.follows = true) :
    updateOp? kind = none ∧ kind ≠ .openParen ∧ kind ≠ .assign := by
  revert follows
  cases kind <;> decide

theorem lookup_of_separates {kind : TokenKind} (separates : kind.separates = true) :
    ∀ level ∈ levels, level.lookup kind = none := by
  revert separates
  cases kind <;> decide

theorem ne_of_starts {kind other : TokenKind} (starts : kind.starts = true)
    (never : other.starts = false) : kind ≠ other := by
  rintro rfl
  rw [starts] at never
  cases never

end TokenKind

def Word.NoElse (rest : List Word) : Prop :=
  (Word.nth rest 0).1 ≠ .elseWord ∧
    ((Word.nth rest 0).1 = .semicolon → (Word.nth rest 1).1 ≠ .elseWord)

/-- The words can come after those of the expression. -/
structure Expr.Before (expr : Expr) (rest : List Word) : Prop where
  separates : (Word.nth rest 0).1.separates = true
  noElse : expr.endsOpen = true → Word.NoElse rest

theorem Expr.before_sign (expr : Expr) {kind : TokenKind} (lexeme : String) (rest : List Word)
    (separates : kind.separates = true) (proper : kind ≠ .elseWord) (other : kind ≠ .semicolon) :
    expr.Before ((kind, lexeme) :: rest) :=
  ⟨separates, fun _ => ⟨proper, fun same => absurd same other⟩⟩

theorem Expr.words_start (expr : Expr) (printable : expr.printable = true) :
    ∃ word more, expr.words = word :: more ∧ word.1.starts = true := by
  cases expr with
  | missing => cases printable
  | int value _ =>
      rw [words, Word.int]
      split <;> exact ⟨_, _, rfl, rfl⟩
  | bool value _ => cases value <;> exact ⟨_, _, rfl, rfl⟩
  | update op before operand _ =>
      simp only [Expr.printable, Bool.and_eq_true] at printable
      cases operand with
      | identifier spelling _ => cases before <;> cases op <;> exact ⟨_, _, rfl, rfl⟩
      | _ => cases printable.1
  | declare spelling mutable value _ => cases mutable <;> exact ⟨_, _, rfl, rfl⟩
  | _ => exact ⟨_, _, rfl, rfl⟩

theorem Expr.words_head (expr : Expr) (printable : expr.printable = true) (tail : List Word)
    {kind : TokenKind} (never : kind.starts = false) : (Word.nth (expr.words ++ tail) 0).1 ≠ kind := by
  obtain ⟨word, more, shape, starts⟩ := expr.words_start printable
  rw [shape]
  exact TokenKind.ne_of_starts starts never

theorem Expr.words_length_pos (expr : Expr) (printable : expr.printable = true) :
    0 < expr.words.length := by
  obtain ⟨word, more, shape, -⟩ := expr.words_start printable
  rw [shape]
  exact Nat.succ_pos _

/-- Where an expression starts with a name, an equals sign follows only in an assignment. -/
theorem Expr.words_second (expr : Expr) (printable : expr.printable = true)
    (plain : expr.isAssignment = false) (tail : List Word) (other : (Word.nth tail 0).1 ≠ .assign)
    (named : (Word.nth (expr.words ++ tail) 0).1 = .identifier) :
    (Word.nth (expr.words ++ tail) 1).1 ≠ .assign := by
  cases expr with
  | missing => cases printable
  | int value _ =>
      rw [words, Word.int] at named
      split at named <;> cases named
  | bool value _ => cases value <;> cases named
  | identifier spelling _ => exact other
  | update op before operand _ =>
      simp only [Expr.printable, Bool.and_eq_true] at printable
      cases operand with
      | identifier spelling _ =>
          cases before with
          | true => cases op <;> cases named
          | false => cases op <;> simp [words, UpdateOp.token]
      | _ => cases printable.1
  | declare spelling mutable value _ => cases mutable <;> cases named
  | assign spelling value _ => cases plain
  | call callee arguments _ => simp [words]
  | labeledCall callee arguments _ => simp [words]
  | _ => cases named

theorem Expr.words_undeclared (expr : Expr) (printable : expr.printable = true)
    (unbound : ∀ spelling mutable value position, expr ≠ .declare spelling mutable value position)
    (tail : List Word) :
    (Word.nth (expr.words ++ tail) 0).1 ≠ .letWord ∧
      (Word.nth (expr.words ++ tail) 0).1 ≠ .mutableWord := by
  cases expr with
  | missing => cases printable
  | int value _ =>
      rw [words, Word.int]
      split <;> simp
  | bool value _ => cases value <;> simp [words]
  | update op before operand _ =>
      simp only [Expr.printable, Bool.and_eq_true] at printable
      cases operand with
      | identifier spelling _ => cases before <;> cases op <;> simp [words, UpdateOp.token]
      | _ => cases printable.1
  | declare spelling mutable value position =>
      exact absurd rfl (unbound spelling mutable value position)
  | _ => simp [words, Word.block]

theorem Word.separated_cons (words tail : List Word) (others : List (List Word)) :
    ∃ more, separated (words :: others) ++ tail = words ++ more ∧
      (more = tail ∨ (Word.nth more 0).1 = .comma) := by
  cases others with
  | nil => exact ⟨tail, rfl, .inl rfl⟩
  | cons next others => exact ⟨_, List.append_assoc _ _ _, .inr rfl⟩

/-! Parameters. -/

theorem paramNames_reads (names seen : List String) (budget : Nat) (present : names ≠ [])
    (enough : (separated (names.map fun param => [name param])).length ≤ budget)
    (distinct : (seen ++ names).Nodup) (rest : List Word) :
    Reads (paramNames budget seen)
      (separated (names.map fun param => [name param]) ++ sign .closeParen :: rest)
      (sign .closeParen :: rest) (· = seen ++ names) := by
  induction names generalizing seen budget with
  | nil => exact absurd rfl present
  | cons param names ih =>
      have fresh : seen.contains param = false := by
        have absent : param ∉ seen := fun member =>
          (List.nodup_append.mp distinct).2.2 param member param (by simp) rfl
        simpa using absent
      have shape : seen ++ param :: names = seen ++ [param] ++ names := by simp
      rw [shape] at distinct ⊢
      cases names with
      | nil =>
          cases budget with
          | zero => cases enough
          | succ budget =>
              refine .expect_bind fun token spelled => ?_
              have spelling : token.lexeme = param := congrArg Prod.snd spelled
              dsimp only
              rw [spelling, fresh]
              refine .kind_bind (.ite_neg (by simp) (.pure ?_))
              rw [List.append_nil]
      | cons next names =>
          cases budget with
          | zero => cases enough
          | succ budget =>
              refine .expect_bind fun token spelled => ?_
              have spelling : token.lexeme = param := congrArg Prod.snd spelled
              dsimp only
              rw [spelling, fresh]
              refine .kind_bind (.ite_pos rfl (.advance_bind (ih _ budget ?_ ?_ distinct)))
              · exact List.cons_ne_nil _ _
              · simp only [List.map_cons, separated, List.length_append, List.length_cons] at enough ⊢
                omega

theorem params_reads (names : List String) (budget : Nat) (printable : printableNames names = true)
    (enough : (Word.params names).length ≤ budget) (rest : List Word) :
    Reads (params budget) (Word.params names ++ rest) rest (· = names) := by
  have distinct : names.Nodup := by
    rw [printableNames, Bool.and_eq_true] at printable
    exact of_decide_eq_true printable.2
  have shape : Word.params names ++ rest = sign .openParen ::
      (separated (names.map fun param => [name param]) ++ sign .closeParen :: rest) := by
    simp [Word.params]
  have close (read : List String) (same : read = names) :
      Reads (do discard <| expect .closeParen; return read) (sign .closeParen :: rest) rest
        (· = names) := .mark_bind (.pure same)
  rw [shape]
  refine .mark_bind (.kind_bind ?_)
  cases names with
  | nil => exact .ite_pos rfl (.bind (@Reads.pure _ _ (· = []) [] rfl) close)
  | cons param names =>
      have other : (Word.nth (separated ((param :: names).map fun param => [name param]) ++
          sign .closeParen :: rest) 0).1 ≠ .closeParen := by
        cases names <;> simp [separated]
      refine .ite_neg other (.bind ?_ close)
      refine paramNames_reads (param :: names) [] budget (List.cons_ne_nil _ _) ?_ distinct rest
      simp only [Word.params, List.length_append, List.length_cons] at enough
      omega

/-! Semicolons. -/

theorem skipSemicolons_reads_none (budget : Nat) (rest : List Word)
    (other : (Word.nth rest 0).1 ≠ .semicolon) :
    Reads (skipSemicolons (budget + 1)) rest rest fun _ => True :=
  .kind_bind (.ite_neg other (.pure trivial))

theorem skipSemicolons_reads_one (budget : Nat) (rest : List Word)
    (other : (Word.nth rest 0).1 ≠ .semicolon) :
    Reads (skipSemicolons (budget + 2)) (sign .semicolon :: rest) rest fun _ => True :=
  .kind_bind (.ite_pos rfl (.advance_bind (skipSemicolons_reads_none budget rest other)))

/-! Parts of expressions. A reader of expressions is trusted with those that have few words. -/

/-- The reader reads every expression of up to `size` words back from its words, and a pair of
operands with an operator between them as a binary expression. -/
structure ReadsBack (expr : Parse Expr) (size : Nat) : Prop where
  whole (e : Expr) (printable : e.printable = true) (small : e.words.length ≤ size)
    (rest : List Word) (before : e.Before rest) :
    Reads expr (e.words ++ rest) rest (·.bare = e.bare)
  pair (op : BinaryOp) (lhs rhs : Expr) (position : Position)
    (printable : (Expr.binary op lhs rhs position).printable = true)
    (small : lhs.words.length + rhs.words.length < size) (rest : List Word)
    (separates : (Word.nth rest 0).1.separates = true) :
    Reads expr (lhs.words ++ sign op.token :: (rhs.words ++ rest)) rest
      (·.bare = .binary op lhs.bare rhs.bare {})

section

variable {expr : Parse Expr} {size : Nat} (inner : ReadsBack expr size)

include inner

theorem parenthesized_reads (e : Expr) (printable : e.printable = true)
    (small : e.words.length ≤ size) (rest : List Word) :
    Reads (parenthesized expr) (sign .openParen :: (e.words ++ sign .closeParen :: rest)) rest
      (·.bare = e.bare) := by
  refine .mark_bind (.bind (inner.whole e printable small _ ?_) fun read same => ?_)
  · exact e.before_sign "" rest rfl (by decide) (by decide)
  · exact .mark_bind (.pure same)

theorem parenthesized_pair (op : BinaryOp) (lhs rhs : Expr) (position : Position)
    (printable : (Expr.binary op lhs rhs position).printable = true)
    (small : lhs.words.length + rhs.words.length < size) (rest : List Word) :
    Reads (parenthesized expr) ((Expr.binary op lhs rhs position).words ++ rest) rest
      (·.bare = .binary op lhs.bare rhs.bare {}) := by
  have shape : (Expr.binary op lhs rhs position).words ++ rest = sign .openParen ::
      (lhs.words ++ sign op.token :: (rhs.words ++ sign .closeParen :: rest)) := by
    simp [Expr.words]
  rw [shape]
  refine .mark_bind (.bind (inner.pair op lhs rhs position printable small _ rfl) ?_)
  exact fun read same => .mark_bind (.pure same)

theorem items_reads (close : TokenKind) (separates : close.separates = true)
    (never : close.starts = false) (other : close ≠ .comma ∧ close ≠ .elseWord ∧ close ≠ .semicolon)
    (es : List Expr) (budget : Nat) (printable : ∀ e ∈ es, e.printable = true)
    (small : (separated (es.map Expr.words)).length ≤ size)
    (enough : (separated (es.map Expr.words)).length < budget) (rest : List Word) :
    Reads (items expr close budget) (separated (es.map Expr.words) ++ sign close :: rest)
      (sign close :: rest) (Expr.bareAll · = Expr.bareAll es) := by
  induction es generalizing budget with
  | nil =>
      cases budget with
      | zero => cases enough
      | succ budget => exact .kind_bind (.ite_pos rfl (.pure rfl))
  | cons e es ih =>
      have first := inner.whole e (printable e (by simp))
      have differs (tail : List Word) : (Word.nth (e.words ++ tail) 0).1 ≠ close :=
        e.words_head (printable e (by simp)) tail never
      cases budget with
      | zero => cases enough
      | succ budget =>
          cases es with
          | nil =>
              refine .kind_bind (.ite_neg (differs _) (.bind (first small _ ?_) fun read same => ?_))
              · exact e.before_sign "" rest separates other.2.1 other.2.2
              · refine .kind_bind (.ite_neg other.1 (.pure ?_))
                exact congrArg (· :: []) same
          | cons next es =>
              rw [List.map_cons, List.map_cons, separated, List.append_assoc]
              simp only [List.map_cons, separated, List.length_append, List.length_cons]
                at small enough ih
              refine .kind_bind (.ite_neg (differs _) (.bind (first ?_ _ ?_) fun read same => ?_))
              · omega
              · exact e.before_sign "" _ rfl (by decide) (by decide)
              · refine .kind_bind (.ite_pos rfl (.advance_bind (.map _ (ih budget ?_ ?_ ?_) ?_)))
                · exact fun e member => printable e (List.mem_cons_of_mem _ member)
                · omega
                · omega
                · intro others same'
                  rw [Expr.bareAll, same, same']
                  rfl

theorem arguments_reads (es : List Expr) (budget : Nat) (present : es ≠ [])
    (printable : ∀ e ∈ es, e.printable = true)
    (small : (separated (es.map Expr.words)).length ≤ size)
    (enough : (separated (es.map Expr.words)).length < budget) (rest : List Word) :
    Reads (arguments expr budget) (separated (es.map Expr.words) ++ sign .closeParen :: rest)
      (sign .closeParen :: rest) (Expr.bareAll · = Expr.bareAll es) := by
  induction es generalizing budget with
  | nil => exact absurd rfl present
  | cons e es ih =>
      have first := inner.whole e (printable e (by simp))
      cases budget with
      | zero => cases enough
      | succ budget =>
          cases es with
          | nil =>
              refine .bind (first small _ ?_) fun read same => ?_
              · exact e.before_sign "" rest rfl (by decide) (by decide)
              · refine .kind_bind (.ite_neg (by simp) (.pure ?_))
                exact congrArg (· :: []) same
          | cons next es =>
              rw [List.map_cons, List.map_cons, separated, List.append_assoc]
              simp only [List.map_cons, separated, List.length_append, List.length_cons]
                at small enough ih
              refine .bind (first ?_ _ ?_) fun read same => ?_
              · omega
              · exact e.before_sign "" _ rfl (by decide) (by decide)
              · refine .kind_bind (.ite_pos rfl (.advance_bind (.map _ (ih budget ?_ ?_ ?_ ?_) ?_)))
                · exact List.cons_ne_nil _ _
                · exact fun e member => printable e (List.mem_cons_of_mem _ member)
                · omega
                · omega
                · intro others same'
                  rw [Expr.bareAll, same, same']
                  rfl

theorem mappingEntries_reads (entries : List (String × Expr)) (budget : Nat)
    (printable : ∀ entry ∈ entries, printableName entry.1 = true ∧ entry.2.printable = true)
    (small : (separated (Expr.wordsEntries .colon entries)).length ≤ size)
    (enough : (separated (Expr.wordsEntries .colon entries)).length < budget) (rest : List Word) :
    Reads (mappingEntries expr budget)
      (separated (Expr.wordsEntries .colon entries) ++ sign .closeBrace :: rest)
      (sign .closeBrace :: rest) (Expr.bareEntries · = Expr.bareEntries entries) := by
  induction entries generalizing budget with
  | nil =>
      cases budget with
      | zero => cases enough
      | succ budget =>
          refine .token_bind fun token spelled => ?_
          have closing : token.kind = .closeBrace := congrArg Prod.fst spelled
          exact .ite_pos closing (.pure rfl)
  | cons entry entries ih =>
      obtain ⟨key, e⟩ := entry
      have first := inner.whole e (printable (key, e) (by simp)).2
      cases budget with
      | zero => cases enough
      | succ budget =>
          -- The key and the colon after it are passed over in the same way wherever the value ends.
          have keyed (tail : List Word) (after : List Word) (means : List (String × Expr) → Prop)
              (valued : Reads (do
                let value ← expr
                if (← kind) = .comma then
                  advance
                  return (key, value) :: (← mappingEntries expr budget)
                else return [(key, value)]) tail after means) :
              Reads (mappingEntries expr (budget + 1)) (name key :: sign .colon :: tail) after
                means := by
            refine .token_bind fun token spelled => ?_
            have named : token.kind = .identifier := congrArg Prod.fst spelled
            have spelling : token.lexeme = key := congrArg Prod.snd spelled
            rw [named, spelling]
            exact .advance_bind (.mark_bind valued)
          cases entries with
          | nil =>
              simp only [Expr.wordsEntries, separated, List.length_cons] at small
              refine keyed _ _ _ (.bind (first (by omega) _ ?_) fun read same => ?_)
              · exact e.before_sign "" rest rfl (by decide) (by decide)
              · refine .kind_bind (.ite_neg (by simp) (.pure ?_))
                exact congrArg (fun value => [(key, value)]) same
          | cons next entries =>
              rw [Expr.wordsEntries, Expr.wordsEntries, separated, List.append_assoc]
              simp only [Expr.wordsEntries, separated, List.length_append, List.length_cons]
                at small enough ih
              refine keyed _ _ _ (.bind (first (by omega) _ ?_) fun read same => ?_)
              · exact e.before_sign "" _ rfl (by decide) (by decide)
              · refine .kind_bind (.ite_pos rfl (.advance_bind (.map _ (ih budget ?_ ?_ ?_) ?_)))
                · exact fun entry member => printable entry (List.mem_cons_of_mem _ member)
                · omega
                · omega
                · intro others same'
                  rw [Expr.bareEntries, same, same']
                  rfl

theorem labeledArguments_reads (entries : List (String × Expr)) (seen : List String) (budget : Nat)
    (printable : ∀ entry ∈ entries, printableName entry.1 = true ∧ entry.2.printable = true)
    (distinct : (entries.map Prod.fst).Nodup) (fresh : ∀ entry ∈ entries, entry.1 ∉ seen)
    (small : (separated (Expr.wordsEntries .assign entries)).length ≤ size)
    (enough : (separated (Expr.wordsEntries .assign entries)).length < budget) (rest : List Word) :
    Reads (labeledArguments expr budget seen)
      (separated (Expr.wordsEntries .assign entries) ++ sign .closeBracket :: rest)
      (sign .closeBracket :: rest) (Expr.bareEntries · = Expr.bareEntries entries) := by
  induction entries generalizing seen budget with
  | nil =>
      cases budget with
      | zero => cases enough
      | succ budget => exact .kind_bind (.ite_pos rfl (.pure rfl))
  | cons entry entries ih =>
      obtain ⟨label, e⟩ := entry
      have first := inner.whole e (printable (label, e) (by simp)).2
      have unseen : seen.contains label = false := by
        simpa using fresh (label, e) (by simp)
      rw [List.map_cons, List.nodup_cons] at distinct
      cases budget with
      | zero => cases enough
      | succ budget =>
          have labeled (tail : List Word) (after : List Word) (means : List (String × Expr) → Prop)
              (valued : Reads (do
                let value ← expr
                if (← kind) = .comma then
                  advance
                  return (label, value) :: (← labeledArguments expr budget (label :: seen))
                else return [(label, value)]) tail after means) :
              Reads (labeledArguments expr (budget + 1) seen) (name label :: sign .assign :: tail) after
                means := by
            refine .kind_bind (.ite_neg (by simp) (.expect_bind fun token spelled => ?_))
            have spelling : token.lexeme = label := congrArg Prod.snd spelled
            dsimp only
            rw [spelling, unseen]
            exact .mark_bind valued
          cases entries with
          | nil =>
              simp only [Expr.wordsEntries, separated, List.length_cons] at small
              refine labeled _ _ _ (.bind (first (by omega) _ ?_) fun read same => ?_)
              · exact e.before_sign "" rest rfl (by decide) (by decide)
              · refine .kind_bind (.ite_neg (by simp) (.pure ?_))
                exact congrArg (fun value => [(label, value)]) same
          | cons next entries =>
              rw [Expr.wordsEntries, Expr.wordsEntries, separated, List.append_assoc]
              simp only [Expr.wordsEntries, separated, List.length_append, List.length_cons]
                at small enough ih
              refine labeled _ _ _ (.bind (first (by omega) _ ?_) fun read same => ?_)
              · exact e.before_sign "" _ rfl (by decide) (by decide)
              · refine .kind_bind (.ite_pos rfl (.advance_bind
                  (.map _ (ih (label :: seen) budget ?_ distinct.2 ?_ ?_ ?_) ?_)))
                · exact fun entry member => printable entry (List.mem_cons_of_mem _ member)
                · intro entry member met
                  rcases List.mem_cons.mp met with same | old
                  · rw [← same] at distinct
                    exact distinct.1 (List.mem_map.mpr ⟨entry, member, rfl⟩)
                  · exact fresh entry (List.mem_cons_of_mem _ member) old
                · omega
                · omega
                · intro others same'
                  rw [Expr.bareEntries, same, same']
                  rfl

omit inner in
theorem block_start (es : List Expr) (printable : ∀ e ∈ es, e.printable = true) (rest : List Word)
    {kind : TokenKind} (never : kind.starts = false) (other : kind ≠ .closeBrace) :
    (Word.nth ((es.map Expr.words).flatMap (· ++ [sign .semicolon]) ++ sign .closeBrace :: rest) 0).1 ≠
      kind := by
  cases es with
  | nil => exact other.symm
  | cons e es =>
      rw [List.map_cons, List.flatMap_cons, List.append_assoc, List.append_assoc]
      exact e.words_head (printable e (by simp)) _ never

/-- The elements of a block up to its closing brace. A semicolon may be left from the element before
them. -/
theorem blockElements_reads (es : List Expr) (budget : Nat) (left : Bool)
    (printable : ∀ e ∈ es, e.printable = true)
    (small : ((es.map Expr.words).flatMap (· ++ [sign .semicolon])).length ≤ size)
    (enough : ((es.map Expr.words).flatMap (· ++ [sign .semicolon])).length + 1 < budget)
    (rest : List Word) :
    Reads (blockElements expr budget)
      ((if left then [sign .semicolon] else []) ++
        ((es.map Expr.words).flatMap (· ++ [sign .semicolon]) ++ sign .closeBrace :: rest))
      (sign .closeBrace :: rest) (Expr.bareAll · = Expr.bareAll es) := by
  -- Whether or not a semicolon is left, the loop comes to the first element or to the brace.
  have passed (budget : Nat) (words after : List Word) (means : List Expr → Prop) (left : Bool)
      (other : (Word.nth words 0).1 ≠ .semicolon)
      (reads : Reads (do
        let next ← kind
        if next = .closeBrace ∨ next = .endOfInput then return []
        let element ← expr
        let next ← kind
        if next ≠ .semicolon ∧ next ≠ .closeBrace then
          refuseHere .unterminatedBlockElement
        return element :: (← blockElements expr (budget + 1))) words after means) :
      Reads (blockElements expr (budget + 2)) ((if left then [sign .semicolon] else []) ++ words) after
        means := by
    cases left with
    | false => exact .bind (skipSemicolons_reads_none _ words other) fun _ _ => reads
    | true => exact .bind (skipSemicolons_reads_one _ words other) fun _ _ => reads
  obtain ⟨budget, rfl⟩ : ∃ fewer, budget = fewer + 2 := ⟨budget - 2, by omega⟩
  induction es generalizing budget left with
  | nil => exact passed budget _ _ _ left (by simp) (.kind_bind (.ite_pos (.inl rfl) (.pure rfl)))
  | cons e es ih =>
      have later : ∀ e ∈ es, e.printable = true := fun e member =>
        printable e (List.mem_cons_of_mem _ member)
      have here (tail : List Word) {kind : TokenKind} := @e.words_head (printable e (by simp)) tail kind
      have length := e.words_length_pos (printable e (by simp))
      rw [List.map_cons, List.flatMap_cons, List.append_assoc, List.append_assoc]
      simp only [List.map_cons, List.flatMap_cons, List.length_append, List.length_cons,
        List.length_nil] at small enough
      refine passed budget _ _ _ left (here _ rfl) (.kind_bind (.ite_neg ?_ ?_))
      · exact fun met => met.elim (here _ rfl) (here _ rfl)
      refine .bind (inner.whole e (printable e (by simp)) (by omega) _ ⟨rfl, fun _ => ?_⟩)
        fun read same => ?_
      · exact ⟨by simp, fun _ => block_start es later rest rfl (by decide)⟩
      obtain ⟨fewer, rfl⟩ : ∃ fewer, budget = fewer + 1 := ⟨budget - 1, by omega⟩
      have others := ih true later (by omega) fewer (by omega)
      refine .kind_bind (.ite_neg (fun met => met.1 rfl) (.map _ others fun rest same' => ?_))
      rw [Expr.bareAll, same, same']
      rfl

theorem braced_reads (es : List Expr) (printable : ∀ e ∈ es, e.printable = true) (budget : Nat)
    (small : (Word.block (es.map Expr.words)).length ≤ size + 1)
    (enough : (Word.block (es.map Expr.words)).length ≤ budget) (rest : List Word) :
    Reads (braced expr budget) (Word.block (es.map Expr.words) ++ rest) rest
      (Expr.bareAll ·.1 = Expr.bareAll es) := by
  have shape : Word.block (es.map Expr.words) ++ rest = sign .openBrace ::
      ((es.map Expr.words).flatMap (· ++ [sign .semicolon]) ++ sign .closeBrace :: rest) := by
    simp [Word.block]
  simp only [Word.block, List.length_append, List.length_cons, List.length_nil] at small enough
  rw [shape]
  refine .expect_bind fun brace _ => .bind (blockElements_reads inner es budget false printable
    (by omega) (by omega) rest) fun elements same => ?_
  exact .mark_bind (.pure same)

theorem signature_reads (names : List String) (es : List Expr)
    (distinct : printableNames names = true) (printable : ∀ e ∈ es, e.printable = true)
    (budget : Nat)
    (small : (Word.params names ++ Word.block (es.map Expr.words)).length ≤ size + 1)
    (enough : (Word.params names ++ Word.block (es.map Expr.words)).length ≤ budget)
    (rest : List Word) :
    Reads (signature expr budget) (Word.params names ++ Word.block (es.map Expr.words) ++ rest) rest
      (fun read => read.1 = names ∧ read.2.id = .unloaded ∧
        Expr.bareAll read.2.elements = Expr.bareAll es) := by
  rw [List.length_append] at small enough
  rw [List.append_assoc]
  refine .bind (params_reads names budget distinct (by omega) _) fun read same => ?_
  refine .bind (braced_reads inner es printable budget (by omega) (by omega) rest) ?_
  rintro ⟨elements, position⟩ same'
  exact .pure ⟨same, rfl, same'⟩

/-! Declarations, assignments, conditionals and loops. -/

theorem declaration_reads (spelling : String) (mutable : Bool) (value : Expr)
    (printable : value.printable = true) (small : value.words.length ≤ size) (rest : List Word)
    (before : value.Before rest) :
    Reads (declaration expr)
      (Word.declaration mutable ++ name spelling :: sign .assign :: (value.words ++ rest)) rest
      fun read => read.name = spelling ∧ read.mutable = mutable ∧ read.value.bare = value.bare := by
  have named (flag : Bool) (place : Position) (same : flag = mutable) : Reads (do
      discard <| expect .letWord
      let name ← expect .identifier
      discard <| expect .assign
      let value ← expr
      return ({ name := name.lexeme, value, mutable := flag, position := place } : ValueDef))
      (keyword .letWord :: name spelling :: sign .assign :: (value.words ++ rest)) rest
      fun read => read.name = spelling ∧ read.mutable = mutable ∧ read.value.bare = value.bare := by
    refine .mark_bind (.expect_bind fun token spelled => .mark_bind ?_)
    refine .map _ (inner.whole value printable small rest before) fun read same' => ?_
    exact ⟨congrArg Prod.snd spelled, same, same'⟩
  cases mutable with
  | true =>
      refine .token_bind fun start spelled => ?_
      have word : start.kind = .mutableWord := congrArg Prod.fst spelled
      exact .ite_pos word (.advance_bind (named _ _ (decide_eq_true word)))
  | false =>
      refine .token_bind fun start spelled => ?_
      have word : start.kind = .letWord := congrArg Prod.fst spelled
      have other : ¬ start.kind = .mutableWord := word ▸ by decide
      exact .ite_neg other (named _ _ (decide_eq_false other))

theorem assignment_reads (spelling : String) (value : Expr) (printable : value.printable = true)
    (small : value.words.length ≤ size) (rest : List Word) (before : value.Before rest) :
    Reads (assignment expr) (name spelling :: sign .assign :: (value.words ++ rest)) rest
      (·.bare = .assign spelling value.bare {}) := by
  refine .expect_bind fun token spelled => .mark_bind ?_
  refine .map _ (inner.whole value printable small rest before) fun read same => ?_
  have spelling' : token.lexeme = spelling := congrArg Prod.snd spelled
  rw [Expr.bare, spelling', same]

omit inner in
theorem alternative_reads_none (expr : Parse Expr) (rest : List Word) (closed : Word.NoElse rest) :
    Reads (alternative expr) rest rest (· = none) := by
  obtain ⟨first, second⟩ := closed
  have last : Reads (do
      if (← kind) = .elseWord then
        advance
        return some (← expr)
      else return none) rest rest (· = none) := .kind_bind (.ite_neg first (.pure rfl))
  refine .kind_bind ?_
  by_cases semicolon : (Word.nth rest 0).1 = .semicolon
  · have absent := second semicolon
    exact .ite_pos semicolon (.aheadIs_bind (.ite_neg (fun met => absent (of_decide_eq_true met)) last))
  · exact .ite_neg semicolon last

/-- The else part of a conditional; without one, no else part may follow. -/
theorem alternative_reads (part : Option Expr) (printable : Expr.printableAlternative part = true)
    (small : (Expr.wordsAlternative part).length ≤ size) (rest : List Word)
    (before : ∀ e, part = some e → e.Before rest) (closed : part = none → Word.NoElse rest) :
    Reads (alternative expr) (Expr.wordsAlternative part ++ rest) rest
      (Expr.bareAlternative · = Expr.bareAlternative part) := by
  cases part with
  | none =>
      have absent := alternative_reads_none expr rest (closed rfl)
      exact absent.weaken fun read same => congrArg Expr.bareAlternative same
  | some e =>
      have other : (Word.nth (Expr.wordsAlternative (some e) ++ rest) 0).1 ≠ .semicolon := by
        simp [Expr.wordsAlternative]
      refine .kind_bind (.ite_neg other (.kind_bind (.ite_pos rfl (.advance_bind ?_))))
      simp only [Expr.wordsAlternative, List.length_cons] at small
      refine .map _ (inner.whole e printable (by omega) rest (before e rfl)) fun read same => ?_
      exact congrArg some same

theorem branch_reads (condition consequent : Expr) (part : Option Expr) (position : Position)
    (printable : (Expr.branch condition consequent part position).printable = true)
    (small : (Expr.branch condition consequent part position).words.length ≤ size + 1)
    (rest : List Word) (before : (Expr.branch condition consequent part position).Before rest) :
    Reads (branch expr) ((Expr.branch condition consequent part position).words ++ rest) rest
      (·.bare = (Expr.branch condition consequent part position).bare) := by
  have shape : (Expr.branch condition consequent part position).words ++ rest = keyword .ifWord ::
      sign .openParen :: (condition.words ++ sign .closeParen :: (consequent.words ++
        (Expr.wordsAlternative part ++ rest))) := by
    simp [Expr.words]
  simp only [Expr.printable, Bool.and_eq_true, Bool.not_eq_true'] at printable
  obtain ⟨⟨⟨first, second⟩, third⟩, apart⟩ := printable
  simp only [Expr.words, List.length_append, List.length_cons] at small
  rw [shape]
  refine .expect_bind fun start _ => .bind (parenthesized_reads inner condition first (by omega) _)
    fun condition' same => ?_
  have follow : consequent.Before (Expr.wordsAlternative part ++ rest) := by
    cases part with
    | none => exact ⟨before.separates, fun _ => before.noElse rfl⟩
    | some e =>
        refine ⟨rfl, fun opened => ?_⟩
        simp [opened] at apart
  refine .bind (inner.whole consequent second (by omega) _ follow) fun consequent' same' => ?_
  refine .map _ (alternative_reads inner part third (by omega) rest ?_ ?_) fun part' same'' => ?_
  · rintro e rfl
    exact ⟨before.separates, before.noElse⟩
  · rintro rfl
    exact before.noElse rfl
  · rw [Expr.bare, Expr.bare, same, same', same'']

theorem loop_reads (condition body : Expr) (position : Position)
    (printable : (Expr.loop condition body position).printable = true)
    (small : (Expr.loop condition body position).words.length ≤ size + 1) (rest : List Word)
    (before : (Expr.loop condition body position).Before rest) :
    Reads (loop expr) ((Expr.loop condition body position).words ++ rest) rest
      (·.bare = (Expr.loop condition body position).bare) := by
  have shape : (Expr.loop condition body position).words ++ rest = keyword .whileWord ::
      sign .openParen :: (condition.words ++ sign .closeParen :: (body.words ++ rest)) := by
    simp [Expr.words]
  simp only [Expr.printable, Bool.and_eq_true] at printable
  simp only [Expr.words, List.length_append, List.length_cons] at small
  rw [shape]
  refine .expect_bind fun start _ => .bind
    (parenthesized_reads inner condition printable.1 (by omega) _) fun condition' same => ?_
  have follow : body.Before rest := ⟨before.separates, before.noElse⟩
  refine .map _ (inner.whole body printable.2 (by omega) _ follow) fun body' same' => ?_
  rw [Expr.bare, Expr.bare, same, same']

/-! Calls. -/

omit inner in
theorem atLabels_reads (words : List Word) :
    Reads atLabels words words (· = decide ((Word.nth words 0).1 = .openBracket ∧
      (Word.nth words 1).1 = .identifier ∧ (Word.nth words 2).1 = .assign)) := by
  refine .kind_bind ?_
  by_cases bracket : (Word.nth words 0).1 = .openBracket
  · refine .ite_pos bracket (.aheadIs_bind ?_)
    by_cases named : (Word.nth words 1).1 = .identifier
    · refine .ite_pos (decide_eq_true named) ((Reads.aheadIs 1 .assign words).weaken ?_)
      intro seen same
      rw [same]
      simp [bracket, named]
    · exact .ite_neg (fun met => named (of_decide_eq_true met)) (.pure (by simp [named]))
  · exact .ite_neg bracket (.pure (by simp [bracket]))

omit inner in
theorem arguments_unlabeled (es : List Expr) (printable : ∀ e ∈ es, e.printable = true)
    (plain : Expr.looksLabeled es = false) (rest : List Word) :
    ¬ ((Word.nth (separated (es.map Expr.words) ++ sign .closeParen :: rest) 0).1 = .openBracket ∧
      (Word.nth (separated (es.map Expr.words) ++ sign .closeParen :: rest) 1).1 = .identifier ∧
      (Word.nth (separated (es.map Expr.words) ++ sign .closeParen :: rest) 2).1 = .assign) := by
  cases es with
  | nil => rintro ⟨⟨⟩, -⟩
  | cons e es =>
      obtain ⟨more, shape, -⟩ := Word.separated_cons e.words (sign .closeParen :: rest)
        (es.map Expr.words)
      rw [List.map_cons, shape]
      rintro ⟨bracket, named, mark⟩
      have well := printable e (by simp)
      cases e with
      | sequence items _ =>
          cases items with
          | nil => cases named
          | cons item items =>
              rw [Expr.printable, Expr.printableAll, Bool.and_eq_true] at well
              obtain ⟨tail, shape', next⟩ := Word.separated_cons item.words
                (sign .closeBracket :: more) (Expr.wordsAll items)
              have other : (Word.nth tail 0).1 ≠ .assign := by
                rcases next with rfl | comma
                · simp
                · exact comma ▸ by decide
              have inside : (Expr.sequence (item :: items) ‹_›).words ++ more =
                  sign .openBracket :: (item.words ++ tail) := by
                rw [← shape']
                simp [Expr.words, Expr.wordsAll]
              rw [inside] at named mark
              exact item.words_second well.1 plain tail other named mark
      | missing => cases well
      | int value _ =>
          rw [Expr.words, Word.int] at bracket
          split at bracket <;> cases bracket
      | bool value _ => cases value <;> cases bracket
      | update op before operand _ =>
          simp only [Expr.printable, Bool.and_eq_true] at well
          cases operand with
          | identifier spelling _ => cases before <;> cases op <;> cases bracket
          | _ => cases well.1
      | declare spelling mutable value _ => cases mutable <;> cases bracket
      | _ => cases bracket

theorem call_reads (callee : String) (es : List Expr) (position : Position)
    (printable : (Expr.call callee es position).printable = true) (budget : Nat)
    (small : (Expr.call callee es position).words.length ≤ size + 1)
    (enough : (Expr.call callee es position).words.length ≤ budget) (rest : List Word) :
    Reads (call expr budget) ((Expr.call callee es position).words ++ rest) rest
      (·.bare = (Expr.call callee es position).bare) := by
  have shape : (Expr.call callee es position).words ++ rest = name callee :: sign .openParen ::
      (separated (es.map Expr.words) ++ sign .closeParen :: rest) := by
    simp [Expr.words, Expr.wordsAll_eq]
  simp only [Expr.printable, Bool.and_eq_true, Bool.not_eq_true', Expr.printableAll_iff] at printable
  obtain ⟨⟨named, each⟩, plain⟩ := printable
  simp only [Expr.words, Expr.wordsAll_eq, List.length_append, List.length_cons] at small enough
  rw [shape]
  refine .expect_bind fun token spelled => .mark_bind (.bind (atLabels_reads _) fun labeled same => ?_)
  have spelling : token.lexeme = callee := congrArg Prod.snd spelled
  have close (read : List Expr) (same : Expr.bareAll read = Expr.bareAll es) : Reads (do
      discard <| expect .closeParen
      return Expr.call token.lexeme read token.position) (sign .closeParen :: rest) rest
      (·.bare = (Expr.call callee es position).bare) := by
    refine .mark_bind (.pure ?_)
    rw [Expr.bare, Expr.bare, spelling, same]
  rw [same, decide_eq_false (arguments_unlabeled es each plain rest)]
  refine .kind_bind ?_
  cases es with
  | nil => exact .ite_pos rfl (.bind (@Reads.pure _ _ (Expr.bareAll · = []) [] rfl) close)
  | cons e es =>
      have starts : (Word.nth (separated ((e :: es).map Expr.words) ++ sign .closeParen :: rest) 0).1 ≠
          .closeParen := by
        obtain ⟨more, shape, -⟩ := Word.separated_cons e.words (sign .closeParen :: rest)
          (es.map Expr.words)
        rw [List.map_cons, shape]
        exact e.words_head (each e (by simp)) more rfl
      refine .ite_neg starts (.bind (arguments_reads inner (e :: es) budget (List.cons_ne_nil _ _) each
        (by omega) (by omega) rest) close)

theorem labeledCall_reads (callee : String) (entries : List (String × Expr)) (position : Position)
    (printable : (Expr.labeledCall callee entries position).printable = true) (budget : Nat)
    (small : (Expr.labeledCall callee entries position).words.length ≤ size + 1)
    (enough : (Expr.labeledCall callee entries position).words.length ≤ budget) (rest : List Word) :
    Reads (call expr budget) ((Expr.labeledCall callee entries position).words ++ rest) rest
      (·.bare = (Expr.labeledCall callee entries position).bare) := by
  have shape : (Expr.labeledCall callee entries position).words ++ rest = name callee ::
      sign .openParen :: sign .openBracket :: (separated (Expr.wordsEntries .assign entries) ++
        sign .closeBracket :: sign .closeParen :: rest) := by
    simp [Expr.words]
  simp only [Expr.printable, Bool.and_eq_true, Bool.not_eq_true', decide_eq_true_eq,
    Expr.printableEntries_iff] at printable
  obtain ⟨⟨⟨named, present⟩, distinct⟩, each⟩ := printable
  simp only [Expr.words, List.length_append, List.length_cons] at small enough
  rw [shape]
  refine .expect_bind fun token spelled => .mark_bind (.bind (atLabels_reads _) fun labeled same => ?_)
  have spelling : token.lexeme = callee := congrArg Prod.snd spelled
  have marks : labeled = true := by
    cases entries with
    | nil => cases present
    | cons entry entries => cases entries <;> exact same
  rw [marks]
  refine .mark_bind (.bind (labeledArguments_reads inner entries [] budget each distinct (by simp)
    (by omega) (by omega) _) fun read same => .mark_bind (.mark_bind (.pure ?_)))
  rw [Expr.bare, Expr.bare, spelling, same]

/-! Operands. -/

/-- The words can come after those of an expression that stands beside an operator or alone. -/
structure Expr.Beside (e : Expr) (rest : List Word) : Prop where
  follows : (Word.nth rest 0).1.follows = true
  alone : e.isOperand = false → e.Before rest

omit inner in
theorem updates_reads (budget : Nat) (operand : Expr) (rest : List Word)
    (stops : updateOp? (Word.nth rest 0).1 = none) :
    Reads (updates (budget + 1) operand) rest rest (· = operand) := by
  refine .kind_bind ?_
  rw [stops]
  exact .pure rfl

omit inner in
theorem updates_reads_one {op : UpdateOp} {word : Word} {rest : List Word} (budget : Nat)
    (operand : Expr) (names : updateOp? (Word.nth (word :: rest) 0).1 = some op)
    (stops : updateOp? (Word.nth rest 0).1 = none) :
    Reads (updates (budget + 2) operand) (word :: rest) rest
      fun value => ∃ position, value = .update op false operand position := by
  refine .kind_bind ?_
  rw [names]
  refine .take_bind fun mark _ => (updates_reads budget _ rest stops).weaken fun value same => ?_
  exact ⟨mark.position, same⟩

omit inner in
theorem unary_of_primary {budget : Nat} {words rest : List Word} {means : Expr → Prop}
    (plain : (Word.nth words 0).1 ≠ .minus) (operand : updateOp? (Word.nth words 0).1 = none)
    (reads : Reads (primary expr (budget + 1)) words rest means)
    (stops : updateOp? (Word.nth rest 0).1 = none) :
    Reads (unary expr (budget + 1)) words rest means := by
  refine .token_bind fun start spelled => ?_
  have kind : start.kind = (Word.nth words 0).1 := congrArg Prod.fst spelled
  rw [kind, operand]
  refine .ite_neg plain (.bind reads fun value holds => ?_)
  exact (updates_reads budget value rest stops).weaken fun _ same => same ▸ holds

omit inner in
theorem integer_reads (value : Int64) (place : Token) (literal : String) (rest : List Word)
    (same : literal = Decimal.ofInt64 value) :
    Reads (integer literal place) rest rest (·.bare = .int value {}) := by
  rw [same, integer, Decimal.int64?_ofInt64]
  exact .pure rfl

omit inner in
theorem ofString_toString? (value : Bytes) (printable : printableText value = true) :
    Bytes.ofString ((Bytes.toString? value).getD "") = value := by
  unfold printableText at printable
  cases found : Glyph.chars? (Glyph.decode value) with
  | none => simp [found] at printable
  | some chars =>
      rw [Bytes.toString?, found]
      change Bytes.ofChars (String.ofList chars).toList = value
      rw [String.toList_ofList]
      exact (Glyph.eq_ofChars_of_chars? value chars found).symm

omit inner in
theorem identifier_reads (spelling : String) (budget : Nat) (rest : List Word)
    (uncalled : (Word.nth rest 0).1 ≠ .openParen) :
    Reads (primary expr budget) (name spelling :: rest) rest (·.bare = .identifier spelling {}) := by
  refine .token_bind fun start spelled => ?_
  have kind : start.kind = .identifier := congrArg Prod.fst spelled
  have spelling' : start.lexeme = spelling := congrArg Prod.snd spelled
  rw [kind, spelling']
  refine .aheadIs_bind (.ite_neg (fun met => uncalled (of_decide_eq_true met)) ?_)
  exact .advance_bind (.pure rfl)

omit inner in
theorem literal_reads (value : Int64) (position : Position) (budget : Nat) (rest : List Word)
    (plain : (Word.nth ((Expr.int value position).words ++ rest) 0).1 ≠ .minus) :
    Reads (primary expr budget) ((Expr.int value position).words ++ rest) rest
      (·.bare = .int value {}) := by
  have positive : ¬ value.toInt < 0 := by
    intro negative
    rw [Expr.words, Word.int, if_pos negative] at plain
    exact plain rfl
  rw [Expr.words, Word.int, if_neg positive]
  refine .start_bind rfl fun start kind spelling => ?_
  rw [kind, spelling]
  refine .advance_bind (integer_reads value start _ rest ?_)
  apply String.toList_injective
  rw [Decimal.toList_ofInt64, if_neg positive]

theorem println_reads (argument : Expr) (position : Position) (printable : argument.printable = true)
    (small : (Expr.println argument position).words.length ≤ size + 1) (budget : Nat)
    (rest : List Word) :
    Reads (primary expr budget) ((Expr.println argument position).words ++ rest) rest
      (·.bare = (Expr.println argument position).bare) := by
  have shape : (Expr.println argument position).words ++ rest = keyword .printlnWord ::
      sign .openParen :: (argument.words ++ sign .closeParen :: rest) := by
    simp [Expr.words]
  simp only [Expr.words, List.length_append, List.length_cons, List.length_nil] at small
  rw [shape]
  refine .start_bind rfl fun start kind _ => ?_
  rw [kind]
  refine .advance_bind (.map _ (parenthesized_reads inner argument printable (by omega) rest) ?_)
  intro read same
  rw [Expr.bare, Expr.bare, same]

theorem bracketed_reads (opening close : TokenKind) (separates : close.separates = true)
    (never : close.starts = false) (other : close ≠ .comma ∧ close ≠ .elseWord ∧ close ≠ .semicolon)
    (es : List Expr) (printable : Expr.printableAll es = true)
    (small : (separated (Expr.wordsAll es)).length ≤ size) (rest : List Word) :
    Reads (bracketed expr opening close (size + 1))
      (sign opening :: (separated (Expr.wordsAll es) ++ sign close :: rest)) rest
      (Expr.bareAll · = Expr.bareAll es) := by
  rw [Expr.wordsAll_eq] at small ⊢
  rw [Expr.printableAll_iff] at printable
  have content := items_reads inner close separates never other es (size + 1) printable small
    (by omega) rest
  exact .mark_bind (.bind content fun read same => .mark_bind (.pure same))

theorem mapping_reads (entries : List (String × Expr)) (position : Position)
    (printable : (Expr.mapping entries position).printable = true)
    (small : (Expr.mapping entries position).words.length ≤ size + 1) (rest : List Word) :
    Reads (mapping expr (size + 1)) ((Expr.mapping entries position).words ++ rest) rest
      (·.bare = (Expr.mapping entries position).bare) := by
  have shape : (Expr.mapping entries position).words ++ rest = sign .openMap ::
      (separated (Expr.wordsEntries .colon entries) ++ sign .closeBrace :: rest) := by
    simp [Expr.words]
  simp only [Expr.words, List.length_append, List.length_cons, List.length_nil] at small
  rw [Expr.printable, Expr.printableEntries_iff] at printable
  rw [shape]
  refine .expect_bind fun start _ => .bind (mappingEntries_reads inner entries (size + 1) printable
    (by omega) (by omega) rest) fun read same => .mark_bind (.pure ?_)
  rw [Expr.bare, Expr.bare, same]

theorem function_reads (params : List String) (id : BodyId) (body : List Expr)
    (bodyPosition position : Position)
    (printable : (Expr.function params id body bodyPosition position).printable = true)
    (small : (Expr.function params id body bodyPosition position).words.length ≤ size + 1)
    (rest : List Word) :
    Reads (primary expr (size + 1))
      ((Expr.function params id body bodyPosition position).words ++ rest) rest
      (·.bare = (Expr.function params id body bodyPosition position).bare) := by
  have shape : (Expr.function params id body bodyPosition position).words ++ rest =
      keyword .fnWord :: (Word.params params ++ Word.block (body.map Expr.words) ++ rest) := by
    simp [Expr.words, Expr.wordsAll_eq]
  simp only [Expr.words, Expr.wordsAll_eq, List.cons_append, List.length_cons] at small
  simp only [Expr.printable, Bool.and_eq_true, Expr.printableAll_iff] at printable
  rw [shape]
  refine .start_bind rfl fun start kind _ => ?_
  rw [kind]
  refine .advance_bind (.bind (signature_reads inner params body printable.1 printable.2 (size + 1)
    (by omega) (by omega) rest) ?_)
  rintro ⟨names, block⟩ ⟨same, unloaded, same'⟩
  refine .pure ?_
  rw [Expr.bare, Expr.bare, same']
  exact congrArg (Expr.function · .unloaded (Expr.bareAll body) {} {}) same

theorem block_reads (elements : List Expr) (position : Position)
    (printable : Expr.printableAll elements = true)
    (small : (Expr.block elements position).words.length ≤ size + 1) (rest : List Word) :
    Reads (primary expr (size + 1)) ((Expr.block elements position).words ++ rest) rest
      (·.bare = (Expr.block elements position).bare) := by
  simp only [Expr.words, Expr.wordsAll_eq] at small ⊢
  rw [Expr.printableAll_iff] at printable
  have braces := braced_reads inner elements printable (size + 1) small small rest
  refine .start_bind rfl fun start kind _ => ?_
  rw [kind]
  refine .bind braces ?_
  rintro ⟨read, place⟩ same
  refine .pure ?_
  rw [Expr.bare, Expr.bare]
  exact congrArg (Expr.block · {}) same

theorem sequence_reads (items : List Expr) (position : Position)
    (printable : Expr.printableAll items = true)
    (small : (Expr.sequence items position).words.length ≤ size + 1) (rest : List Word) :
    Reads (primary expr (size + 1)) ((Expr.sequence items position).words ++ rest) rest
      (·.bare = (Expr.sequence items position).bare) := by
  simp only [Expr.words, List.length_append, List.length_cons, List.length_nil] at small
  have content := bracketed_reads inner .openBracket .closeBracket rfl rfl
    ⟨by decide, by decide, by decide⟩ items printable (by omega) rest
  rw [Expr.words, List.cons_append, List.cons_append, List.append_assoc, List.singleton_append]
  refine .start_bind rfl fun start kind _ => ?_
  rw [kind]
  refine .map _ content fun read same => ?_
  rw [Expr.bare, Expr.bare, same]

theorem set_reads (items : List Expr) (position : Position)
    (printable : Expr.printableAll items = true)
    (small : (Expr.set items position).words.length ≤ size + 1) (rest : List Word) :
    Reads (primary expr (size + 1)) ((Expr.set items position).words ++ rest) rest
      (·.bare = (Expr.set items position).bare) := by
  simp only [Expr.words, List.length_append, List.length_cons, List.length_nil] at small
  have content := bracketed_reads inner .openSet .closeBrace rfl rfl
    ⟨by decide, by decide, by decide⟩ items printable (by omega) rest
  rw [Expr.words, List.cons_append, List.cons_append, List.append_assoc, List.singleton_append]
  refine .start_bind rfl fun start kind _ => ?_
  rw [kind]
  refine .map _ content fun read same => ?_
  rw [Expr.bare, Expr.bare, same]

omit inner in
theorem bool_reads (value : Bool) (position : Position) (rest : List Word) :
    Reads (primary expr (size + 1)) ((Expr.bool value position).words ++ rest) rest
      (·.bare = (Expr.bool value position).bare) := by
  cases value with
  | true =>
      refine .start_bind rfl fun start kind _ => ?_
      rw [kind]
      exact .advance_bind (.pure rfl)
  | false =>
      refine .start_bind rfl fun start kind _ => ?_
      rw [kind]
      exact .advance_bind (.pure rfl)

omit inner in
theorem text_reads (content : Bytes) (position : Position)
    (printable : (Expr.text content position).printable = true) (rest : List Word) :
    Reads (primary expr (size + 1)) ((Expr.text content position).words ++ rest) rest
      (·.bare = (Expr.text content position).bare) := by
  refine .start_bind rfl fun start kind spelling => ?_
  rw [kind, spelling]
  refine .advance_bind (.pure ?_)
  rw [Expr.bare, Expr.bare]
  exact congrArg (Expr.text · {}) (ofString_toString? content printable)

theorem primary_reads (e : Expr) (printable : e.printable = true)
    (small : e.words.length ≤ size + 1) (rest : List Word) (beside : e.Beside rest)
    (plain : (Word.nth (e.words ++ rest) 0).1 ≠ .minus)
    (unbound : ∀ spelling mutable value position, e ≠ .declare spelling mutable value position)
    (unassigned : e.isAssignment = false)
    (still : ∀ op before operand position, e ≠ .update op before operand position) :
    Reads (primary expr (size + 1)) (e.words ++ rest) rest (·.bare = e.bare) := by
  have uncalled := (TokenKind.of_follows beside.follows).2.1
  cases e with
  | missing => cases printable
  | int value position => exact literal_reads value position (size + 1) rest plain
  | bool value position => exact bool_reads value position rest
  | text value position => exact text_reads value position printable rest
  | identifier spelling _ => exact identifier_reads spelling (size + 1) rest uncalled
  | binary op lhs rhs position =>
      simp only [Expr.words, List.length_append, List.length_cons, List.length_nil] at small
      have pair := parenthesized_pair inner op lhs rhs position printable (by omega) rest
      refine .start_bind rfl fun start kind _ => ?_
      rw [kind]
      exact pair
  | println argument position =>
      exact println_reads inner argument position printable small (size + 1) rest
  | sequence items position => exact sequence_reads inner items position printable small rest
  | set items position => exact set_reads inner items position printable small rest
  | mapping entries position =>
      have reads := mapping_reads inner entries position printable small rest
      refine .start_bind rfl fun start kind _ => ?_
      rw [kind]
      exact reads
  | function params id body bodyPosition position =>
      exact function_reads inner params id body bodyPosition position printable small rest
  | block elements position => exact block_reads inner elements position printable small rest
  | branch condition consequent part position =>
      have reads := branch_reads inner condition consequent part position printable small rest
        (beside.alone rfl)
      refine .start_bind rfl fun start kind _ => ?_
      rw [kind]
      exact reads
  | loop condition body position =>
      have reads := loop_reads inner condition body position printable small rest (beside.alone rfl)
      refine .start_bind rfl fun start kind _ => ?_
      rw [kind]
      exact reads
  | call callee es position =>
      have reads := call_reads inner callee es position printable (size + 1) small small rest
      refine .start_bind rfl fun start kind _ => ?_
      rw [kind]
      exact .aheadIs_bind (.ite_pos rfl reads)
  | labeledCall callee entries position =>
      have reads := labeledCall_reads inner callee entries position printable (size + 1) small small
        rest
      refine .start_bind rfl fun start kind _ => ?_
      rw [kind]
      exact .aheadIs_bind (.ite_pos rfl reads)
  | update op before operand position => exact absurd rfl (still op before operand position)
  | declare spelling mutable value position =>
      exact absurd rfl (unbound spelling mutable value position)
  | assign spelling value _ => cases unassigned

omit inner in
theorem updateOp?_token (op : UpdateOp) :
    updateOp? op.token = some op ∧ op.token ≠ .minus ∧ op.token ≠ .openParen := by
  cases op <;> exact ⟨rfl, by decide, by decide⟩

omit inner in
theorem update_reads (op : UpdateOp) (before : Bool) (spelling : String) (place position : Position)
    (enough : 1 ≤ size) (rest : List Word) (follows : (Word.nth rest 0).1.follows = true) :
    Reads (unary expr (size + 1))
      ((Expr.update op before (.identifier spelling place) position).words ++ rest) rest
      (·.bare = .update op before (.identifier spelling {}) {}) := by
  obtain ⟨stops, uncalled, -⟩ := TokenKind.of_follows follows
  obtain ⟨names, other, apart⟩ := updateOp?_token op
  obtain ⟨fewer, rfl⟩ : ∃ fewer, size = fewer + 1 := ⟨size - 1, by omega⟩
  cases before with
  | true =>
      refine .token_bind fun start spelled => ?_
      have kind : start.kind = op.token := congrArg Prod.fst spelled
      rw [kind, names]
      have operand := @unary_of_primary expr fewer (name spelling :: rest) rest
        (·.bare = .identifier spelling {}) (by simp) rfl
        (identifier_reads spelling (fewer + 1) rest uncalled) stops
      refine .ite_neg other (.advance_bind (.map _ operand fun read same => ?_))
      rw [Expr.bare, same]
  | false =>
      refine .token_bind fun start spelled => ?_
      have kind : start.kind = .identifier := congrArg Prod.fst spelled
      rw [kind]
      refine .ite_neg (by decide) (.bind (identifier_reads spelling (fewer + 2) _ apart)
        fun read same => ?_)
      have updated := @updates_reads_one op (sign op.token) rest fewer read names stops
      refine updated.weaken fun value shape => ?_
      obtain ⟨mark, rfl⟩ := shape
      rw [Expr.bare, same]

theorem unary_reads (e : Expr) (printable : e.printable = true)
    (small : e.words.length ≤ size + 1) (rest : List Word) (beside : e.Beside rest)
    (unbound : ∀ spelling mutable value position, e ≠ .declare spelling mutable value position)
    (unassigned : e.isAssignment = false) :
    Reads (unary expr (size + 1)) (e.words ++ rest) rest (·.bare = e.bare) := by
  have stops := (TokenKind.of_follows beside.follows).1
  have plainly (plain : (Word.nth (e.words ++ rest) 0).1 ≠ .minus)
      (operand : updateOp? (Word.nth (e.words ++ rest) 0).1 = none)
      (still : ∀ op before operand position, e ≠ .update op before operand position) :
      Reads (unary expr (size + 1)) (e.words ++ rest) rest (·.bare = e.bare) :=
    unary_of_primary plain operand
      (primary_reads inner e printable small rest beside plain unbound unassigned still) stops
  cases e with
  | missing => cases printable
  | int value position =>
      by_cases negative : value.toInt < 0
      · have shape : (Expr.int value position).words = [sign .minus,
            (.number, toString value.toInt.natAbs)] := by
          rw [Expr.words, Word.int, if_pos negative]
        rw [shape]
        refine .token_bind fun start spelled => .ite_pos (congrArg Prod.fst spelled) ?_
        refine .advance_bind (.token_bind fun number spelled' => .ite_pos (congrArg Prod.fst spelled') ?_)
        have digits : number.lexeme = toString value.toInt.natAbs := congrArg Prod.snd spelled'
        rw [digits]
        refine .advance_bind (integer_reads value start _ rest ?_)
        apply String.toList_injective
        rw [Decimal.toList_ofInt64, if_pos negative, String.toList_append]
        rfl
      · have shape : (Expr.int value position).words = [(.number, toString value.toInt.natAbs)] := by
          rw [Expr.words, Word.int, if_neg negative]
        exact plainly (by rw [shape]; simp) (by rw [shape]; rfl) (by simp)
  | update op before operand position =>
      simp only [Expr.printable, Bool.and_eq_true] at printable
      cases operand with
      | identifier spelling place =>
          refine update_reads op before spelling place position ?_ rest beside.follows
          cases before with
          | true => exact Nat.le_of_succ_le_succ small
          | false => exact Nat.le_of_succ_le_succ small
      | _ => cases printable.1
  | bool value _ => cases value <;> exact plainly (by simp [Expr.words]) rfl (by simp)
  | declare spelling mutable value position =>
      exact absurd rfl (unbound spelling mutable value position)
  | assign spelling value _ => cases unassigned
  | _ => exact plainly (by simp [Expr.words, Word.block]) rfl (by simp)

end

/-! Operators. -/

def Grammar.names (kind : TokenKind) (op : BinaryOp) : List Level → Bool
  | [] => false
  | level :: tighter =>
    match level.lookup kind with
    | some found => found = op && tighter.all fun level => (level.lookup kind).isNone
    | none => names kind op tighter

theorem names_token (op : BinaryOp) (known : op.known = true) : names op.token op levels = true := by
  cases op with
  | unknown code => cases known
  | _ => rfl

section

variable {expr : Parse Expr}

theorem chain_reads (operand : Parse Expr) (level : Level) (budget : Nat) (lhs : Expr)
    (rest : List Word) (stops : level.lookup (Word.nth rest 0).1 = none) :
    Reads (chain operand level (budget + 1) lhs) rest rest (· = lhs) := by
  refine .token_bind fun sign spelled => ?_
  have kind : sign.kind = (Word.nth rest 0).1 := congrArg Prod.fst spelled
  rw [kind, stops]
  exact .pure rfl

theorem joined_of_unary {budget : Nat} {words rest : List Word} {means : Expr → Prop}
    (tighter : List Level) (reads : Reads (unary expr (budget + 1)) words rest means)
    (stops : ∀ level ∈ tighter, level.lookup (Word.nth rest 0).1 = none) :
    Reads (joined expr (budget + 1) tighter) words rest means := by
  induction tighter with
  | nil => exact reads
  | cons level tighter ih =>
      refine .bind (ih fun level member => stops level (List.mem_cons_of_mem _ member))
        fun lhs holds => ?_
      exact (chain_reads _ level budget lhs rest (stops level (by simp))).weaken
        fun _ same => same ▸ holds

theorem joined_pair {budget : Nat} (op : BinaryOp) {first second rest : List Word}
    {means means' : Expr → Prop} (tighter : List Level) (named : names op.token op tighter = true)
    (lhs : Reads (unary expr (budget + 2)) (first ++ sign op.token :: (second ++ rest))
      (sign op.token :: (second ++ rest)) means)
    (rhs : Reads (unary expr (budget + 2)) (second ++ rest) rest means')
    (stops : ∀ level ∈ tighter, level.lookup (Word.nth rest 0).1 = none) :
    Reads (joined expr (budget + 2) tighter) (first ++ sign op.token :: (second ++ rest)) rest
      fun read => ∃ left right place, means left ∧ means' right ∧
        read = .binary op left right place := by
  induction tighter with
  | nil => cases named
  | cons level tighter ih =>
      have later : ∀ level ∈ tighter, level.lookup (Word.nth rest 0).1 = none :=
        fun level member => stops level (List.mem_cons_of_mem _ member)
      have last := stops level (by simp)
      rw [names] at named
      cases found : level.lookup op.token with
      | none =>
          rw [found] at named
          refine .bind (ih named later) fun read holds => ?_
          exact (chain_reads _ level (budget + 1) read rest last).weaken fun _ same => same ▸ holds
      | some other =>
          rw [found] at named
          simp only [Bool.and_eq_true, decide_eq_true_eq, List.all_eq_true,
            Option.isNone_iff_eq_none] at named
          obtain ⟨rfl, absent⟩ := named
          refine .bind (joined_of_unary tighter lhs absent) fun left holds => ?_
          refine .token_bind fun mark spelled => ?_
          have kind : mark.kind = other.token := congrArg Prod.fst spelled
          rw [kind, found]
          refine .advance_bind (.bind (joined_of_unary tighter rhs later) fun right holds' => ?_)
          refine (chain_reads _ level budget _ rest last).weaken fun read same => ?_
          exact ⟨left, right, mark.position, holds, holds', same⟩

theorem expressionOf_of_joined {budget : Nat} {words rest : List Word} {means : Expr → Prop}
    (undeclared : (Word.nth words 0).1 ≠ .letWord ∧ (Word.nth words 0).1 ≠ .mutableWord)
    (unassigned : (Word.nth words 0).1 = .identifier → (Word.nth words 1).1 ≠ .assign)
    (reads : Reads (joined expr budget levels) words rest means) :
    Reads (expressionOf expr budget) words rest means := by
  refine .kind_bind ?_
  cases kind : (Word.nth words 0).1 with
  | letWord => exact absurd kind undeclared.1
  | mutableWord => exact absurd kind undeclared.2
  | identifier =>
      exact .aheadIs_bind (.ite_neg (fun met => unassigned kind (of_decide_eq_true met)) reads)
  | _ => exact reads

theorem expressionOf_readsBack {size : Nat} (inner : ReadsBack expr size) :
    ReadsBack (expressionOf expr (size + 1)) (size + 1) where
  whole e printable small rest before := by
    have stops := TokenKind.lookup_of_separates before.separates
    have follows := TokenKind.follows_of_separates before.separates
    have plainly
        (unbound : ∀ spelling mutable value position, e ≠ .declare spelling mutable value position)
        (unassigned : e.isAssignment = false) :
        Reads (expressionOf expr (size + 1)) (e.words ++ rest) rest (·.bare = e.bare) := by
      refine expressionOf_of_joined (e.words_undeclared printable unbound rest)
        (e.words_second printable unassigned rest (TokenKind.of_follows follows).2.2) ?_
      exact joined_of_unary levels (unary_reads inner e printable small rest
        ⟨follows, fun _ => before⟩ unbound unassigned) stops
    cases e with
    | declare spelling mutable value position =>
        have shape : (Expr.declare spelling mutable value position).words ++ rest =
            Word.declaration mutable ++ name spelling :: sign .assign :: (value.words ++ rest) := by
          simp [Expr.words]
        simp only [Expr.words, List.length_append, List.length_cons] at small
        rw [Expr.printable, Bool.and_eq_true] at printable
        have reads := declaration_reads inner spelling mutable value printable.2 (by omega) rest
          ⟨before.separates, before.noElse⟩
        have holds : ∀ read : ValueDef, (read.name = spelling ∧ read.mutable = mutable ∧
            read.value.bare = value.bare) →
            read.declaration.bare = (Expr.declare spelling mutable value position).bare := by
          rintro read ⟨rfl, rfl, same⟩
          rw [ValueDef.declaration, Expr.bare, Expr.bare, same]
        rw [shape]
        cases mutable with
        | true => exact .kind_bind (.map _ reads holds)
        | false => exact .kind_bind (.map _ reads holds)
    | assign spelling value position =>
        simp only [Expr.words, List.length_cons] at small
        rw [Expr.printable, Bool.and_eq_true] at printable
        refine .kind_bind (.aheadIs_bind (.ite_pos rfl ?_))
        exact assignment_reads inner spelling value printable.2 (by omega) rest
          ⟨before.separates, before.noElse⟩
    | _ => exact plainly (by simp) rfl
  pair op lhs rhs position printable small rest separates := by
    simp only [Expr.printable, Bool.and_eq_true] at printable
    obtain ⟨⟨⟨⟨known, left⟩, right⟩, first⟩, second⟩ := printable
    have single (e : Expr) (operand : e.isOperand = true) : (∀ spelling mutable value position,
        e ≠ .declare spelling mutable value position) ∧ e.isAssignment = false := by
      cases e with
      | declare | assign => cases operand
      | _ => exact ⟨by simp, rfl⟩
    obtain ⟨unbound, unassigned⟩ := single lhs left
    obtain ⟨unbound', unassigned'⟩ := single rhs right
    have positive := lhs.words_length_pos first
    have positive' := rhs.words_length_pos second
    have follows := TokenKind.follows_token op known
    obtain ⟨fewer, rfl⟩ : ∃ fewer, size = fewer + 1 := ⟨size - 1, by omega⟩
    refine expressionOf_of_joined (lhs.words_undeclared first unbound _)
      (lhs.words_second first unassigned _ (TokenKind.of_follows follows).2.2) ?_
    refine (joined_pair op levels (names_token op known)
      (unary_reads inner lhs first (by omega) _ ⟨follows, fun alone => ?_⟩ unbound unassigned)
      (unary_reads inner rhs second (by omega) rest
        ⟨TokenKind.follows_of_separates separates, fun alone => ?_⟩ unbound' unassigned')
      (TokenKind.lookup_of_separates separates)).weaken ?_
    · rw [left] at alone
      cases alone
    · rw [right] at alone
      cases alone
    · rintro read ⟨left, right, place, same, same', rfl⟩
      rw [Expr.bare, same, same']

end

theorem expression_readsBack (budget : Nat) : ReadsBack (expression budget) budget := by
  induction budget with
  | zero =>
      refine ⟨fun e printable small => ?_, fun op lhs rhs position printable small => ?_⟩
      · exact absurd (e.words_length_pos printable) (Nat.not_lt.mpr small)
      · exact absurd small (Nat.not_lt_zero _)
  | succ budget ih => exact expressionOf_readsBack ih

end Koy
