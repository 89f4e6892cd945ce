import Koy.Proofs.RoundTrip

/-! Operators without parentheses. A text of operands with operators between them is read as a tree
with the same operands and operators from left to right, in which operators that bind more tightly
stand further inside, and of those that bind alike the first. There is only one such tree. -/

namespace Koy

open Parse Grammar Word

def BinaryOp.precedence : BinaryOp → Nat
  | .or => 0
  | .and => 1
  | .equal | .notEqual => 2
  | .less | .lessOrEqual | .greater | .greaterOrEqual => 3
  | .add | .subtract => 4
  | .multiply | .divide | .remainder => 5
  | .unknown _ => 6

namespace Expr

def inorder : Expr → List (Expr ⊕ BinaryOp)
  | .binary op lhs rhs _ => inorder lhs ++ .inr op :: inorder rhs
  | operand => [.inl operand.bare]

def Binds (level : Nat) : Expr → Prop
  | .binary op _ _ _ => level ≤ op.precedence
  | _ => True

/-- On the left of every operator are none that bind less tightly, and on its right are only ones that
bind more tightly. -/
def Grouped : Expr → Prop
  | .binary op lhs rhs _ =>
    lhs.Binds op.precedence ∧ rhs.Binds (op.precedence + 1) ∧ Grouped lhs ∧ Grouped rhs
  | _ => True

theorem Grouped.precedence_le {level : Nat} {op : BinaryOp} (tree : Expr) (grouped : tree.Grouped)
    (binds : tree.Binds level) (member : .inr op ∈ tree.inorder) : level ≤ op.precedence := by
  fun_induction inorder tree generalizing level with
  | case1 root lhs rhs place ihl ihr =>
      obtain ⟨left, right, grouped_left, grouped_right⟩ := grouped
      have here : level ≤ root.precedence := binds
      rcases List.mem_append.mp member with inside | inside
      · exact Nat.le_trans here (ihl grouped_left left inside)
      · rcases List.mem_cons.mp inside with same | inside
        · rwa [Sum.inr.inj same]
        · have above := ihr grouped_right right inside
          omega
  | case2 => simp at member

/-- Of all operators in a sequence the root is the last of those that bind least tightly. So two
grouped trees with one sequence have it at one place. -/
theorem split_unique {before after before' after' : List (Expr ⊕ BinaryOp)} {op op' : BinaryOp}
    (left : ∀ other, .inr other ∈ before → op.precedence ≤ other.precedence)
    (right : ∀ other, .inr other ∈ after → op.precedence < other.precedence)
    (left' : ∀ other, .inr other ∈ before' → op'.precedence ≤ other.precedence)
    (right' : ∀ other, .inr other ∈ after' → op'.precedence < other.precedence)
    (same : before ++ .inr op :: after = before' ++ .inr op' :: after') :
    before = before' ∧ op = op' ∧ after = after' := by
  rcases List.append_eq_append_iff.mp same with ⟨between, rfl, rest⟩ | ⟨between, rfl, rest⟩
  · cases between with
    | nil =>
        cases rest
        simp
    | cons piece between =>
        obtain ⟨rfl, rfl⟩ := List.cons.inj rest
        have above := right op' (by simp)
        have below := left' op (by simp)
        omega
  · cases between with
    | nil =>
        cases rest
        simp
    | cons piece between =>
        obtain ⟨rfl, rfl⟩ := List.cons.inj rest
        have above := right' op (by simp)
        have below := left op' (by simp)
        omega

theorem split_ne_single (before after : List (Expr ⊕ BinaryOp)) (op : BinaryOp) (operand : Expr) :
    before ++ .inr op :: after ≠ [.inl operand] := by
  intro same
  have member : .inr op ∈ before ++ .inr op :: after := by simp
  rw [same] at member
  simp at member

theorem bare_eq_of_inorder (tree other : Expr) (grouped : tree.Grouped) (grouped' : other.Grouped)
    (same : tree.inorder = other.inorder) : tree.bare = other.bare := by
  fun_induction inorder tree generalizing other with
  | case1 op lhs rhs place ihl ihr =>
      obtain ⟨left, right, grouped_left, grouped_right⟩ := grouped
      fun_cases inorder other with
      | case1 op' lhs' rhs' place' =>
          obtain ⟨left', right', grouped_left', grouped_right'⟩ := grouped'
          rw [inorder] at same
          obtain ⟨before, rfl, after⟩ := split_unique
            (fun _ => Grouped.precedence_le lhs grouped_left left)
            (fun _ => Grouped.precedence_le rhs grouped_right right)
            (fun _ => Grouped.precedence_le lhs' grouped_left' left')
            (fun _ => Grouped.precedence_le rhs' grouped_right' right') same
          rw [bare, bare, ihl lhs' grouped_left grouped_left' before,
            ihr rhs' grouped_right grouped_right' after]
      | case2 _ single =>
          rw [inorder.eq_2 other single] at same
          exact absurd same (split_ne_single _ _ op other.bare)
  | case2 operand single =>
      fun_cases inorder other with
      | case1 op' lhs' rhs' place' => exact absurd same.symm (split_ne_single _ _ op' operand.bare)
      | case2 _ single' =>
          rw [inorder.eq_2 other single'] at same
          exact Sum.inl.inj (List.cons.inj same).1

end Expr

/-- An operand that is a name, a truth value or a number. -/
inductive Atom where
  | identifier (spelling : String)
  | bool (value : Bool)
  | number (digits : String)
  deriving DecidableEq, Repr

namespace Atom

def valid : Atom → Bool
  | .identifier spelling => printableName spelling
  | .bool _ => true
  | .number digits =>
    !digits.toList.isEmpty && digits.toList.all Char.isDigit &&
      decide (Nat.ofDigitChars 10 digits.toList 0 < Decimal.int64Bound)

def word : Atom → Word
  | .identifier spelling => name spelling
  | .bool value => keyword (if value then .trueWord else .falseWord)
  | .number digits => (.number, digits)

def expr : Atom → Expr
  | .identifier spelling => .identifier spelling {}
  | .bool value => .bool value {}
  | .number digits => .int (Int64.ofInt (Nat.ofDigitChars 10 digits.toList 0)) {}

variable {atom : Atom}

theorem word_ne {kind : TokenKind}
    (other : kind ∉ [.identifier, .trueWord, .falseWord, .number]) : atom.word.1 ≠ kind := by
  rintro rfl
  cases atom with
  | bool value => cases value <;> simp [word] at other
  | _ => simp [word] at other

theorem lexes (valid : atom.valid = true) (mood : Mood) :
    Lexes atom.word.2.toList [atom.word] mood (true, mood.2) Apart := by
  cases atom with
  | identifier spelling => exact .identifier spelling valid mood
  | bool value =>
      cases value with
      | true => exact .name "true" .trueWord (by decide) rfl mood
      | false => exact .name "false" .falseWord (by decide) rfl mood
  | number digits =>
      simp only [Atom.valid, Bool.and_eq_true, Bool.not_eq_true', List.isEmpty_eq_false_iff,
        List.all_eq_true] at valid
      exact .digits digits valid.1.1 valid.1.2 mood

theorem int64?_of_valid {digits : String} (valid : (Atom.number digits).valid = true) :
    Decimal.int64? digits = some (Int64.ofInt (Nat.ofDigitChars 10 digits.toList 0)) := by
  simp only [Atom.valid, Bool.and_eq_true, Bool.not_eq_true', List.isEmpty_eq_false_iff,
    List.all_eq_true, decide_eq_true_eq] at valid
  obtain ⟨⟨present, all⟩, small⟩ := valid
  have counted := Decimal.nat?_digits digits.toList present all
  obtain ⟨c, more, spelled⟩ := List.exists_cons_of_ne_nil present
  have read : Decimal.int? digits.toList = some (Nat.ofDigitChars 10 digits.toList 0 : Int) := by
    rw [spelled] at all counted ⊢
    rw [Decimal.int?_of_digit c more (all c List.mem_cons_self), counted]
    rfl
  have fit : Decimal.fits (Nat.ofDigitChars 10 digits.toList 0 : Int) = true := by
    rw [Decimal.fits, Bool.and_eq_true]
    exact ⟨decide_eq_true (by omega), decide_eq_true (Int.ofNat_lt.mpr small)⟩
  rw [Decimal.int64?, read]
  simp [fit]

theorem reads {expr : Parse Expr} (valid : atom.valid = true) (budget : Nat) (rest : List Word)
    (follows : (Word.nth rest 0).1.follows = true) :
    Reads (unary expr (budget + 1)) (atom.word :: rest) rest (·.bare = atom.expr) := by
  obtain ⟨stops, uncalled, -⟩ := TokenKind.of_follows follows
  refine unary_of_primary (word_ne (by decide)) ?_ ?_ stops
  · cases atom with
    | bool value => cases value <;> rfl
    | _ => rfl
  · cases atom with
    | identifier spelling => exact identifier_reads spelling (budget + 1) rest uncalled
    | bool value =>
        apply Reads.token_bind
        intro start spelled
        have kind : start.kind = if value then .trueWord else .falseWord := congrArg Prod.fst spelled
        rw [kind]
        cases value with
        | true => exact .advance_bind (.pure rfl)
        | false => exact .advance_bind (.pure rfl)
    | number digits =>
        apply Reads.start_bind rfl
        intro start kind lexeme
        rw [kind, lexeme]
        apply Reads.advance_bind
        change Reads (integer digits start) rest rest _
        rw [integer, int64?_of_valid valid]
        exact .pure rfl

end Atom

/-- The operators and operands after a first operand. -/
abbrev Links := List (BinaryOp × Atom)

namespace Links

def text : Atom → Links → String
  | first, [] => first.word.2
  | first, (op, next) :: links => first.word.2 ++ " " ++ op.symbol ++ " " ++ text next links

def words (links : Links) : List Word :=
  links.flatMap fun link => [sign link.1.token, link.2.word]

def pieces (links : Links) : List (Expr ⊕ BinaryOp) :=
  links.flatMap fun link => [.inr link.1, .inl link.2.expr]

def valid (links : Links) : Bool :=
  links.all fun link => link.1.known && link.2.valid

theorem lexes (first : Atom) (links : Links) (valid_first : first.valid = true)
    (valid : links.valid = true) (mood : Mood) :
    Lexes (text first links).toList (first.word :: words links) mood (true, mood.2) Apart := by
  induction links generalizing first mood with
  | nil => exact first.lexes valid_first mood
  | cons link links ih =>
      obtain ⟨op, next⟩ := link
      simp only [Links.valid, List.all_cons, Bool.and_eq_true] at valid
      obtain ⟨⟨known, valid_next⟩, later⟩ := valid
      have rest := (ih next valid_next later (false, mood.2)).space (List.cons_ne_nil _ _)
      have operator := ((Lexes.operator (true, mood.2) op known).append rest
        fun _ _ => rfl).space (List.cons_ne_nil _ _)
      have whole := (first.lexes valid_first mood).upTo operator (by decide)
      have shape : (text first ((op, next) :: links)).toList = first.word.2.toList ++
          ' ' :: (op.symbol.toList ++ ' ' :: (text next links).toList) := by
        simp [text]
      rw [shape]
      exact whole

end Links

/-- The levels hold the operators of the precedences from `rank` on, one level for each. -/
def Grammar.Ranked : Nat → List Level → Prop
  | rank, [] => ∀ op : BinaryOp, op.known = true → op.precedence < rank
  | rank, level :: tighter =>
    (∀ op : BinaryOp, op.known = true →
      level.lookup op.token = if op.precedence = rank then some op else none) ∧
    Ranked (rank + 1) tighter

theorem Grammar.ranked_levels : Ranked 0 levels := by
  refine ⟨?_, ?_, ?_, ?_, ?_, ?_, ?_⟩
  all_goals
    intro op known
    cases op with
    | unknown code => cases known
    | _ => decide

theorem Grammar.Ranked.lookup_eq_none {rank : Nat} {tighter : List Level}
    (ranked : Ranked rank tighter) {op : BinaryOp} (known : op.known = true)
    (looser : op.precedence < rank) : ∀ level ∈ tighter, level.lookup op.token = none := by
  induction tighter generalizing rank with
  | nil => exact nofun
  | cons level tighter ih =>
      obtain ⟨here, rest⟩ := ranked
      refine List.forall_mem_cons.mpr ⟨?_, ih rest (Nat.lt_succ_of_lt looser)⟩
      rw [here op known, if_neg (Nat.ne_of_lt looser)]

structure Word.Closes (tighter : List Level) (rest : List Word) : Prop where
  follows : (Word.nth rest 0).1.follows = true
  stops : ∀ level ∈ tighter, level.lookup (Word.nth rest 0).1 = none

namespace Links

def From (rank : Nat) (links : Links) : Prop :=
  ∀ link ∈ links, link.1.known = true ∧ link.2.valid = true ∧ rank ≤ link.1.precedence

def StartsAt (rank : Nat) (links : Links) : Prop :=
  ∀ link ∈ links.head?, link.1.precedence = rank

/-- Up to the first operator of the rank all bind more tightly. -/
theorem exists_split {rank : Nat} {links : Links} (ranked : links.From rank) :
    ∃ taken left : Links, links = taken ++ left ∧ taken.From (rank + 1) ∧ left.From rank ∧
      left.StartsAt rank := by
  induction links with
  | nil => exact ⟨[], [], rfl, nofun, nofun, nofun⟩
  | cons link links ih =>
      obtain ⟨⟨known, valid, least⟩, later⟩ := List.forall_mem_cons.mp ranked
      by_cases here : link.1.precedence = rank
      · exact ⟨[], link :: links, rfl, nofun, ranked, by simpa [StartsAt] using here⟩
      · obtain ⟨taken, left, rfl, tight, rest, starts⟩ := ih later
        refine ⟨link :: taken, left, rfl, ?_, rest, starts⟩
        exact List.forall_mem_cons.mpr ⟨⟨known, valid, by omega⟩, tight⟩

@[simp] theorem words_append (links more : Links) :
    words (links ++ more) = words links ++ words more :=
  List.flatMap_append

@[simp] theorem pieces_append (links more : Links) :
    pieces (links ++ more) = pieces links ++ pieces more :=
  List.flatMap_append

theorem closes {rank : Nat} {level : Level} {tighter : List Level} (ranked : Ranked (rank + 1) tighter)
    {left : Links} (each : left.From rank) (starts : left.StartsAt rank) {rest : List Word}
    (closes : Word.Closes (level :: tighter) rest) : Word.Closes tighter (words left ++ rest) := by
  cases left with
  | nil => exact ⟨closes.follows, (List.forall_mem_cons.mp closes.stops).2⟩
  | cons link left =>
      have known := (each link List.mem_cons_self).1
      have here : link.1.precedence = rank := starts link rfl
      refine ⟨TokenKind.follows_token link.1 known, ?_⟩
      exact ranked.lookup_eq_none known (by omega)

end Links

structure Expr.Groups (rank : Nat) (pieces : List (Expr ⊕ BinaryOp)) (tree : Expr) : Prop where
  inorder : tree.inorder = pieces
  grouped : tree.Grouped
  binds : tree.Binds rank

theorem Expr.groups_of_bare {read : Expr} {atom : Atom} (same : read.bare = atom.expr) (rank : Nat) :
    read.Groups rank [.inl atom.expr] := by
  have single : ∀ op lhs rhs place, read = .binary op lhs rhs place → False := by
    rintro op lhs rhs place rfl
    cases atom <;> cases same
  refine ⟨?_, ?_, ?_⟩
  · rw [Expr.inorder.eq_2 read single, same]
  · rw [Grouped.eq_2 read single]
    trivial
  · rw [Binds.eq_2 rank read single]
    trivial

theorem Expr.Groups.binary {rank : Nat} {pieces pieces' : List (Expr ⊕ BinaryOp)} {lhs rhs : Expr}
    {op : BinaryOp} {place : Position} (left : lhs.Groups rank pieces)
    (right : rhs.Groups (rank + 1) pieces') (here : op.precedence = rank) :
    (Expr.binary op lhs rhs place).Groups rank (pieces ++ .inr op :: pieces') := by
  subst here
  constructor
  · rw [Expr.inorder, left.inorder, right.inorder]
  · exact ⟨left.binds, right.binds, left.grouped, right.grouped⟩
  · exact Nat.le_refl _

theorem Expr.Groups.loosen {rank : Nat} {pieces : List (Expr ⊕ BinaryOp)} {tree : Expr}
    (groups : tree.Groups (rank + 1) pieces) : tree.Groups rank pieces := by
  refine ⟨groups.inorder, groups.grouped, ?_⟩
  have binds := groups.binds
  unfold Binds at binds ⊢
  split at binds
  · exact Nat.le_of_succ_le binds
  · trivial

theorem chain_reads_links {rank : Nat} {level : Level} {tighter : List Level} {operand : Parse Expr}
    (ranked : Ranked rank (level :: tighter)) (size : Nat)
    (operands : ∀ (first : Atom) (links : Links) (rest : List Word), first.valid = true →
      links.From (rank + 1) → links.length ≤ size → Word.Closes tighter rest →
      Reads operand (first.word :: (links.words ++ rest)) rest
        (Expr.Groups (rank + 1) (.inl first.expr :: links.pieces)))
    (budget : Nat) (lhs : Expr) {pieces : List (Expr ⊕ BinaryOp)} (left : lhs.Groups rank pieces)
    (links : Links) (each : links.From rank) (starts : links.StartsAt rank)
    (small : links.length ≤ size) (enough : links.length < budget) (rest : List Word)
    (closes : Word.Closes (level :: tighter) rest) :
    Reads (chain operand level budget lhs) (links.words ++ rest) rest
      (Expr.Groups rank (pieces ++ links.pieces)) := by
  induction budget generalizing lhs pieces links with
  | zero => cases enough
  | succ budget ih =>
      cases links with
      | nil =>
          have stops := (List.forall_mem_cons.mp closes.stops).1
          apply (chain_reads operand level budget lhs rest stops).weaken
          rintro read rfl
          simpa [Links.pieces] using left
      | cons link links =>
          obtain ⟨op, next⟩ := link
          obtain ⟨⟨known, valid, least⟩, later⟩ := List.forall_mem_cons.mp each
          have here : op.precedence = rank := starts (op, next) rfl
          obtain ⟨taken, left', rfl, tight, loose, starts'⟩ := Links.exists_split later
          simp only [List.length_cons, List.length_append] at small enough
          have shape : Links.words ((op, next) :: (taken ++ left')) ++ rest =
              sign op.token :: next.word :: (taken.words ++ (left'.words ++ rest)) := by
            simp [Links.words]
          have whole : pieces ++ Links.pieces ((op, next) :: (taken ++ left')) =
              (pieces ++ .inr op :: .inl next.expr :: taken.pieces) ++ left'.pieces := by
            simp [Links.pieces]
          rw [shape, whole]
          apply Reads.token_bind
          intro mark spelled
          have kind : mark.kind = op.token := congrArg Prod.fst spelled
          rw [kind, ranked.1 op known, if_pos here]
          apply Reads.advance_bind
          apply Reads.bind (operands next taken (left'.words ++ rest) valid tight (by omega)
            (Links.closes ranked.2 loose starts' closes))
          intro rhs right
          apply ih
          · exact left.binary right here
          · exact loose
          · exact starts'
          · omega
          · omega

theorem joined_reads_links {expr : Parse Expr} (size : Nat) (tighter : List Level) {rank : Nat}
    (ranked : Ranked rank tighter) (first : Atom) (links : Links) (rest : List Word)
    (valid : first.valid = true) (each : links.From rank) (small : links.length ≤ size)
    (closes : Word.Closes tighter rest) :
    Reads (joined expr (size + 1) tighter) (first.word :: (links.words ++ rest)) rest
      (Expr.Groups rank (.inl first.expr :: links.pieces)) := by
  induction tighter generalizing rank first links rest with
  | nil =>
      cases links with
      | nil =>
          exact (first.reads valid size rest closes.follows).weaken fun read same =>
            Expr.groups_of_bare same rank
      | cons link links =>
          obtain ⟨known, -, least⟩ := each link List.mem_cons_self
          exact absurd (ranked link.1 known) (Nat.not_lt.mpr least)
  | cons level tighter ih =>
      obtain ⟨taken, left, rfl, tight, loose, starts⟩ := Links.exists_split each
      rw [List.length_append] at small
      rw [Links.words_append, Links.pieces_append, List.append_assoc]
      apply Reads.bind (ih ranked.2 first taken (left.words ++ rest) valid tight (by omega)
        (Links.closes ranked.2 loose starts closes))
      intro lhs grouped
      exact chain_reads_links ranked size (ih ranked.2) (size + 1) lhs (grouped.loosen) left loose
        starts (by omega) (by omega) rest closes

theorem expression_reads_links (first : Atom) (links : Links) (valid : first.valid = true)
    (each : links.From 0) (budget : Nat) (small : links.length ≤ budget) :
    Reads (expression (budget + 2)) (first.word :: (links.words ++ [sign .semicolon]))
      [sign .semicolon] (Expr.Groups 0 (.inl first.expr :: links.pieces)) := by
  have follows : (Word.nth (links.words ++ [sign .semicolon]) 0).1.follows = true := by
    cases links with
    | nil => rfl
    | cons link links => exact TokenKind.follows_token link.1 (each link List.mem_cons_self).1
  apply expressionOf_of_joined
  · exact ⟨Atom.word_ne (by decide), Atom.word_ne (by decide)⟩
  · exact fun _ => (TokenKind.of_follows follows).2.2
  · exact joined_reads_links (budget + 1) levels ranked_levels first links [sign .semicolon] valid each
      (Nat.le_succ_of_le small) ⟨rfl, TokenKind.lookup_of_separates rfl⟩

/-- A text of operands with operators between them is read as the one tree in which they stand in this
order, grouped by how tightly the operators bind. -/
theorem Expr.parse_links (first : Atom) (links : Links) (valid_first : first.valid = true)
    (valid : links.valid = true) :
    ∃ tree, Expr.parse (Bytes.ofString (links.text first)) = .ok tree ∧
      tree.inorder = .inl first.expr :: links.pieces ∧ tree.Grouped ∧
      ∀ other : Expr, other.inorder = .inl first.expr :: links.pieces → other.Grouped →
        other.bare = tree.bare := by
  have each : links.From 0 := by
    intro link member
    have both := List.all_eq_true.mp valid link member
    rw [Bool.and_eq_true] at both
    exact ⟨both.1, both.2, Nat.zero_le _⟩
  have proper : first.word.1 ≠ .semicolon := Atom.word_ne (by decide)
  obtain ⟨tree, parsed, groups⟩ := exists_parse
    (links.lexes first valid_first valid (false, [])) proper links.length
    fun budget small => expression_reads_links first links valid_first each budget small
  refine ⟨tree, parsed, groups.inorder, groups.grouped, fun other same grouped => ?_⟩
  exact bare_eq_of_inorder other tree grouped groups.grouped (same.trans groups.inorder.symm)

theorem Expr.parse_links_sample :
    ∃ tree, Expr.parse (Bytes.ofString "a - 2 * 007 - b < true") = .ok tree ∧
      tree.bare = .binary .less (.binary .subtract (.binary .subtract (.identifier "a" {})
        (.binary .multiply (.int 2 {}) (.int 7 {}) {}) {}) (.identifier "b" {}) {}) (.bool true {}) {} := by
  let links : Links := [(.subtract, .number "2"), (.multiply, .number "007"),
    (.subtract, .identifier "b"), (.less, .bool true)]
  let expected : Expr := .binary .less (.binary .subtract (.binary .subtract (.identifier "a" {})
    (.binary .multiply (.int 2 {}) (.int 7 {}) {}) {}) (.identifier "b" {}) {}) (.bool true {}) {}
  have grouped : expected.Grouped := by
    simp [expected, Grouped, Binds, BinaryOp.precedence]
  obtain ⟨tree, parsed, -, -, unique⟩ := parse_links (.identifier "a") links (by decide) (by decide)
  exact ⟨tree, parsed, (unique expected rfl grouped).symm⟩

end Koy
