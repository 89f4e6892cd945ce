import Koy.Proofs.Chunks

/-! One reader on two token sequences, the second of which has the tokens of the first at other
places and one semicolon more, right before a word `else`. No reader but that of the else part of a
conditional reads past the word, and that one looks past a semicolon. So where a reader succeeds on
the first sequence it succeeds on the second, with the same tree at the other places: it stops
before the semicolon where it has stopped before the word. There the one reader looks at the word and
the other at the semicolon, which no `Logic` allows. -/

namespace Koy

open Parse Grammar

/-- Two token sequences, the second of which has a semicolon before a word `else`, where the first
has none. -/
structure Interposed where
  move : Position → Position
  items : Items
  others : Items
  gap : Nat
  sooner {n : Nat} (lt : n < gap) {token : Token} (here : items n = .ok token) :
    others n = .ok (token.relocate move)
  semicolon : others.HasAt gap .semicolon
  word : items.HasAt gap .elseWord
  later {n : Nat} (le : gap ≤ n) {token : Token} (here : items n = .ok token) :
    others (n + 1) = .ok (token.relocate move)
  apart {n : Nat} (next : n + 1 = gap) : ¬ items.HasAt n .semicolon

namespace Interposed

variable {α β : Type} {pair : Interposed} {n : Nat} {token : Token}

/-- Where the second sequence stands when the first stands at this item: before the word the second
stands at the semicolon. -/
def seat (pair : Interposed) (n : Nat) : Nat :=
  if n ≤ pair.gap then n else n + 1

theorem seat_of_le (le : n ≤ pair.gap) : pair.seat n = n := if_pos le

theorem seat_of_lt (lt : pair.gap < n) : pair.seat n = n + 1 := if_neg (Nat.not_le_of_lt lt)

theorem ne_gap (here : pair.items n = .ok token) (other : token.kind ≠ .elseWord) :
    n ≠ pair.gap := by
  rintro rfl
  obtain ⟨word, found, is⟩ := pair.word
  rw [here] at found
  cases found
  exact other is

theorem word_of_gap (here : pair.items pair.gap = .ok token) : token.kind = .elseWord := by
  obtain ⟨word, found, is⟩ := pair.word
  rw [here] at found
  cases found
  exact is

theorem others_seat (ne : n ≠ pair.gap) (here : pair.items n = .ok token) :
    pair.others (pair.seat n) = .ok (token.relocate pair.move) := by
  rcases Nat.lt_or_gt_of_ne ne with lt | gt
  · rw [seat_of_le (Nat.le_of_lt lt)]
    exact pair.sooner lt here
  · rw [seat_of_lt gt]
    exact pair.later (Nat.le_of_lt gt) here

theorem exists_others_seat (here : pair.items n = .ok token) :
    ∃ other, pair.others (pair.seat n) = .ok other ∧ ∀ wanted : TokenKind,
      (n = pair.gap → wanted ≠ .semicolon ∧ wanted ≠ .elseWord) →
        (other.kind = wanted ↔ token.kind = wanted) := by
  by_cases at_gap : n = pair.gap
  · subst at_gap
    obtain ⟨mark, there, is⟩ := pair.semicolon
    refine ⟨mark, by rw [seat_of_le (Nat.le_refl _), there], fun wanted plain => ?_⟩
    obtain ⟨notSemicolon, notWord⟩ := plain rfl
    rw [is, pair.word_of_gap here]
    exact iff_of_false notSemicolon.symm notWord.symm
  · exact ⟨_, others_seat at_gap here, fun wanted _ => by rw [Token.relocate_kind]⟩

theorem seat_add (i : Nat) (clear : ∀ j < i, n + j ≠ pair.gap) :
    pair.seat (n + i) = pair.seat n + i := by
  have far : ¬ (n ≤ pair.gap ∧ pair.gap < n + i) := by
    rintro ⟨le, lt⟩
    exact clear (pair.gap - n) (by omega) (by omega)
  unfold seat
  split <;> split <;> omega

theorem seat_succ (ne : n ≠ pair.gap) : pair.seat (n + 1) = pair.seat n + 1 :=
  seat_add 1 fun j lt => by
    obtain rfl : j = 0 := by omega
    exact ne

/-- From an item of the first sequence the reader comes to another, and the other reader comes from
the seat of the one to that of the other, with the changed value. -/
def Crosses (pair : Interposed) (change : α → α) (reader other : Parse α) (n : Nat) : Prop :=
  ∀ stream value after, stream.StandsAt pair.items n → reader stream = .ok (value, after) →
    ∃ m, after.StandsAt pair.items m ∧ ∀ along, along.StandsAt pair.others (pair.seat n) →
      ∃ after', other along = .ok (change value, after') ∧
        after'.StandsAt pair.others (pair.seat m)

def Balks (reader : Parse α) : Prop :=
  ∀ stream, stream.current.kind = .elseWord → ∃ error, reader stream = .error error

theorem Balks.bind {reader : Parse α} {next : α → Parse β} (balks : Balks reader) :
    Balks (reader >>= next) := by
  intro stream word
  obtain ⟨error, failed⟩ := balks stream word
  exact ⟨error, bind_of_error failed⟩

theorem balks_refuse (cause : Token → SyntaxError.Cause) : Balks (refuseHere cause : Parse α) :=
  fun stream _ => ⟨_, refuseHere_apply cause stream⟩

theorem balks_expect {wanted : TokenKind} (other : wanted ≠ .elseWord) : Balks (expect wanted) :=
  fun stream word => ⟨_, expect_of_ne (by rw [word]; exact other.symm)⟩

theorem balks_mark_bind {wanted : TokenKind} {next : Unit → Parse α} (other : wanted ≠ .elseWord) :
    Balks (discard (expect wanted) >>= next) := by
  intro stream word
  rw [Parse.discard_bind]
  exact (balks_expect other).bind stream word

theorem balks_token_bind {next : Token → Parse α}
    (rest : ∀ token, token.kind = .elseWord → Balks (next token)) : Balks (Parse.token >>= next) :=
  fun stream word => rest stream.current word stream word

theorem balks_kind_bind {next : TokenKind → Parse α} (rest : Balks (next .elseWord)) :
    Balks (kind >>= next) := by
  intro stream word
  rw [Parse.kind_bind, word]
  exact rest stream word

namespace Crosses

variable {change : α → α} {change' : β → β} {reader other : Parse α} {next next' : α → Parse β}

theorem refused (refuses : ∀ stream, ∃ error, reader stream = .error error) :
    pair.Crosses change reader other n := by
  intro stream value after _ read
  obtain ⟨error, failed⟩ := refuses stream
  rw [failed] at read
  cases read

theorem of_balks (balks : Balks reader)
    (crosses : n ≠ pair.gap → pair.Crosses change reader other n) :
    pair.Crosses change reader other n := by
  by_cases at_gap : n = pair.gap
  · intro stream value after stands read
    subst at_gap
    obtain ⟨error, failed⟩ := balks stream (pair.word_of_gap stands.current)
    rw [failed] at read
    cases read
  · exact crosses at_gap

theorem pure {value value' : α} (same : value' = change value) :
    pair.Crosses change (pure value) (pure value') n := by
  intro stream found after stands read
  cases read
  rw [same]
  exact ⟨n, stands, fun along stands' => ⟨along, rfl, stands'⟩⟩

theorem bind (first : pair.Crosses change reader other n)
    (second : ∀ m value, pair.Crosses change' (next value) (next' (change value)) m) :
    pair.Crosses change' (reader >>= next) (other >>= next') n := by
  intro stream result last stands read
  obtain ⟨value, middle, begun, finished⟩ := exists_of_bind read
  obtain ⟨m, stands', along⟩ := first stream value middle stands begun
  obtain ⟨k, stands'', along'⟩ := second m value middle result last stands' finished
  refine ⟨k, stands'', fun long longStands => ?_⟩
  obtain ⟨middle', begun', longStands'⟩ := along long longStands
  rw [bind_of_ok begun']
  exact along' middle' longStands'

theorem map {f f' : α → β} (first : pair.Crosses change reader other n)
    (same : ∀ value, f' (change value) = change' (f value)) :
    pair.Crosses change' (do let value ← reader; return f value)
      (do let value ← other; return f' value) n :=
  first.bind fun _ value => .pure (same value)

theorem discard_bind {next next' : Unit → Parse β}
    (crosses : pair.Crosses change' (reader >>= fun _ => next ()) (other >>= fun _ => next' ()) n) :
    pair.Crosses change' (discard reader >>= next) (discard other >>= next') n := by
  intro stream value after stands read
  rw [Parse.discard_bind] at read
  obtain ⟨m, stands', along⟩ := crosses stream value after stands read
  refine ⟨m, stands', fun long longStands => ?_⟩
  rw [Parse.discard_bind]
  exact along long longStands

theorem token_bind {next next' : Token → Parse β}
    (blind : n = pair.gap → ∀ word mark : Token, word.kind = .elseWord → mark.kind = .semicolon →
      next' mark = next' (word.relocate pair.move))
    (rest : ∀ token, pair.items n = .ok token →
      pair.Crosses change' (next token) (next' (token.relocate pair.move)) n) :
    pair.Crosses change' (Parse.token >>= next) (Parse.token >>= next') n := by
  intro stream value after stands read
  have here := stands.current
  obtain ⟨m, stands', along⟩ := rest _ here stream value after stands read
  refine ⟨m, stands', fun long longStands => ?_⟩
  have seen : next' long.current = next' (stream.current.relocate pair.move) := by
    by_cases at_gap : n = pair.gap
    · obtain ⟨mark, there, is⟩ := pair.semicolon
      have standsHere := longStands.current
      rw [at_gap, seat_of_le (Nat.le_refl _), there] at standsHere
      cases standsHere
      exact blind at_gap _ _ (pair.word_of_gap (at_gap ▸ here)) is
    · have there := others_seat at_gap here
      rw [longStands.current] at there
      rw [Except.ok.inj there]
  rw [Parse.token_bind, seen]
  exact along long longStands

theorem kind_bind {next next' : TokenKind → Parse β}
    (blind : n = pair.gap → next' .semicolon = next' .elseWord)
    (rest : ∀ token, pair.items n = .ok token →
      pair.Crosses change' (next token.kind) (next' token.kind) n) :
    pair.Crosses change' (kind >>= next) (kind >>= next') n := by
  have crosses : pair.Crosses change' (Parse.token >>= fun token => next token.kind)
      (Parse.token >>= fun token => next' token.kind) n := by
    refine token_bind (fun at_gap word mark is is' => ?_) rest
    rw [Token.relocate_kind, is, is']
    exact blind at_gap
  exact crosses

theorem ite {reader' other' : Parse α} {condition : Prop} [Decidable condition]
    (holds : condition → pair.Crosses change reader other n)
    (fails : ¬ condition → pair.Crosses change reader' other' n) :
    pair.Crosses change (if condition then reader else reader')
      (if condition then other else other') n := by
  by_cases decided : condition
  · rw [if_pos decided, if_pos decided]
    exact holds decided
  · rw [if_neg decided, if_neg decided]
    exact fails decided

theorem advance_bind {next next' : Unit → Parse β} (ne : n ≠ pair.gap)
    (rest : pair.Crosses change' (next ()) (next' ()) (n + 1)) :
    pair.Crosses change' (advance >>= next) (advance >>= next') n := by
  intro stream value after stands read
  obtain ⟨_, middle, moved, finished⟩ := exists_of_bind read
  have stands' : middle.StandsAt pair.items (n + 1) := stands.of_shift (of_advance moved)
  obtain ⟨m, stands'', along⟩ := rest middle value after stands' finished
  refine ⟨m, stands'', fun long longStands => ?_⟩
  obtain ⟨found, there, -⟩ := exists_others_seat stands'.current
  rw [seat_succ ne] at there along
  obtain ⟨reached, passed, longStands'⟩ := longStands.exists_advance there
  rw [bind_of_ok passed]
  exact along reached longStands'

theorem take_bind {next next' : Token → Parse β} (ne : n ≠ pair.gap)
    (rest : ∀ token, pair.items n = .ok token →
      pair.Crosses change' (next token) (next' (token.relocate pair.move)) (n + 1)) :
    pair.Crosses change' (take >>= next) (take >>= next') n := by
  rw [take_bind_eq, take_bind_eq]
  exact token_bind (absurd · ne) fun token here => advance_bind ne (rest token here)

theorem expect_bind {next next' : Token → Parse β} (wanted : TokenKind)
    (proper : wanted ≠ .elseWord)
    (rest : ∀ token, pair.items n = .ok token → token.kind = wanted →
      pair.Crosses change' (next token) (next' (token.relocate pair.move)) (n + 1)) :
    pair.Crosses change' (expect wanted >>= next) (expect wanted >>= next') n := by
  refine of_balks (balks_expect proper).bind fun ne => ?_
  rw [expect_bind_eq, expect_bind_eq]
  refine kind_bind (absurd · ne) fun token here => ite (fun met => ?_) fun _ => ?_
  · refine take_bind ne fun found here' => ?_
    rw [here] at here'
    cases here'
    exact rest token here met
  · exact refused fun stream => ⟨_, bind_of_error (refuseHere_apply _ stream)⟩

theorem mark_bind {next next' : Unit → Parse β} (wanted : TokenKind) (proper : wanted ≠ .elseWord)
    (rest : pair.Crosses change' (next ()) (next' ()) (n + 1)) :
    pair.Crosses change' (discard (expect wanted) >>= next) (discard (expect wanted) >>= next') n :=
  discard_bind (expect_bind wanted proper fun _ _ _ => rest)

theorem aheadIs_bind {next next' : Bool → Parse β} (i : Nat) (wanted : TokenKind)
    (clear : ∀ j < i + 1, n + j ≠ pair.gap)
    (plain : n + (i + 1) = pair.gap → wanted ≠ .semicolon ∧ wanted ≠ .elseWord)
    (rest : ∀ token, pair.items (n + (i + 1)) = .ok token →
      pair.Crosses change' (next (decide (token.kind = wanted)))
        (next' (decide (token.kind = wanted))) n) :
    pair.Crosses change' (aheadIs i wanted >>= next) (aheadIs i wanted >>= next') n := by
  intro stream value after stands read
  rcases aheadIs_cases stands.sound i wanted with
    ⟨error, -, failed⟩ | ⟨token, looked, found, same, seen⟩
  · rw [bind_of_error failed] at read
    cases read
  rw [bind_of_ok seen] at read
  rw [stands.item] at found
  obtain ⟨m, stands', along⟩ := rest token found looked value after (stands.of_same same) read
  refine ⟨m, stands', fun long longStands => ?_⟩
  obtain ⟨other, there, alike⟩ := exists_others_seat found
  rw [seat_add (i + 1) clear] at there
  obtain ⟨looked', seen', longStands'⟩ := longStands.exists_aheadIs there wanted
  rw [bind_of_ok seen', decide_eq_decide.mpr (alike wanted plain)]
  exact along looked' longStands'

theorem nextIs_bind {next next' : Bool → Parse β} (wanted : TokenKind) (ne : n ≠ pair.gap)
    (plain : n + 1 = pair.gap → wanted ≠ .semicolon ∧ wanted ≠ .elseWord)
    (rest : ∀ token, pair.items (n + 1) = .ok token →
      pair.Crosses change' (next (decide (token.kind = wanted)))
        (next' (decide (token.kind = wanted))) n) :
    pair.Crosses change' (aheadIs 0 wanted >>= next) (aheadIs 0 wanted >>= next') n := by
  refine aheadIs_bind 0 wanted (fun j lt => ?_) plain rest
  obtain rfl : j = 0 := by omega
  exact ne

/-- Semicolons are passed over where nothing starts with the word: there the one more is passed over
too, but what comes then refuses. -/
theorem skipSemicolons_bind {tail tail' : Parse β} (budget : Nat) (balks : Balks tail)
    (rest : ∀ m, m ≠ pair.gap → pair.Crosses change' tail tail' m) (n : Nat) :
    pair.Crosses change' (skipSemicolons budget >>= fun _ => tail)
      (skipSemicolons budget >>= fun _ => tail') n := by
  induction budget generalizing n with
  | zero => exact refused fun stream => ⟨_, bind_of_error (refuseHere_apply _ stream)⟩
  | succ budget ih =>
      have balks' : Balks (skipSemicolons (budget + 1) >>= fun _ => tail) := by
        intro stream word
        rw [skipSemicolons_bind_of_ne budget _ (by rw [word]; decide)]
        exact balks stream word
      refine of_balks balks' fun ne => ?_
      rw [skipSemicolons_bind_eq, skipSemicolons_bind_eq]
      exact kind_bind (absurd · ne) fun token _ =>
        ite (fun _ => advance_bind ne (ih (n + 1))) fun _ => rest n ne

end Crosses

end Interposed

open Interposed

variable {α : Type} {pair : Interposed} {n : Nat}

theorem tooDeep_crosses {change : α → α} {other : Parse α} : pair.Crosses change tooDeep other n :=
  .refused fun stream => ⟨_, refuseHere_apply _ stream⟩

theorem paramNames_crosses (budget : Nat) (seen : List String) (n : Nat) :
    pair.Crosses id (paramNames budget seen) (paramNames budget seen) n := by
  induction budget generalizing seen n with
  | zero => exact tooDeep_crosses
  | succ budget ih =>
      refine .expect_bind .identifier (by decide) fun param _ _ => ?_
      refine .ite (fun _ => .refused fun _ => ⟨_, rfl⟩) fun _ => ?_
      refine .kind_bind (fun _ => rfl) fun token here => .ite (fun comma => ?_) fun _ => .pure rfl
      exact .advance_bind (ne_gap here (by rw [comma]; decide)) (ih _ _)

theorem params_crosses (budget : Nat) (n : Nat) :
    pair.Crosses id (params budget) (params budget) n := by
  have close (names : List String) (m : Nat) :
      pair.Crosses id (do discard <| expect .closeParen; return names)
        (do discard <| expect .closeParen; return names) m :=
    .mark_bind .closeParen (by decide) (.pure rfl)
  refine .mark_bind .openParen (by decide) ?_
  refine .kind_bind (fun _ => rfl) fun token _ => .ite (fun _ => close [] _) fun _ => ?_
  exact (paramNames_crosses budget [] _).bind fun m names => close names m

section

variable {expr : Parse Expr}
  (inner : ∀ n, pair.Crosses (Expr.relocate pair.move) expr expr n) (balks : Balks expr)

include inner

theorem parenthesized_crosses (n : Nat) :
    pair.Crosses (Expr.relocate pair.move) (parenthesized expr) (parenthesized expr) n :=
  .mark_bind .openParen (by decide) <| (inner _).bind fun _ _ =>
    .mark_bind .closeParen (by decide) (.pure rfl)

theorem items_crosses (close : TokenKind) (proper : close ≠ .semicolon ∧ close ≠ .elseWord)
    (budget n : Nat) :
    pair.Crosses (Expr.relocateAll pair.move) (items expr close budget) (items expr close budget)
      n := by
  induction budget generalizing n with
  | zero => exact tooDeep_crosses
  | succ budget ih =>
      refine .kind_bind (fun _ => ?_) fun token _ => .ite (fun _ => .pure rfl) fun _ => ?_
      · rw [if_neg proper.1.symm, if_neg proper.2.symm]
      refine (inner n).bind fun m item => ?_
      refine .kind_bind (fun _ => rfl) fun token here => .ite (fun comma => ?_) fun _ => .pure rfl
      exact .advance_bind (ne_gap here (by rw [comma]; decide)) ((ih _).map fun _ => rfl)

theorem bracketed_crosses (opening close : TokenKind) (proper : opening ≠ .elseWord)
    (proper' : close ≠ .semicolon ∧ close ≠ .elseWord) (budget n : Nat) :
    pair.Crosses (Expr.relocateAll pair.move) (bracketed expr opening close budget)
      (bracketed expr opening close budget) n :=
  .mark_bind opening proper <| (items_crosses inner close proper' budget _).bind fun _ _ =>
    .mark_bind close proper'.2 (.pure rfl)

theorem mappingEntries_crosses (budget n : Nat) :
    pair.Crosses (Expr.relocateEntries pair.move) (mappingEntries expr budget)
      (mappingEntries expr budget) n := by
  induction budget generalizing n with
  | zero => exact tooDeep_crosses
  | succ budget ih =>
      have noKey : Balks (mappingEntries expr (budget + 1)) := by
        refine balks_token_bind fun key word => ?_
        rw [word]
        exact (balks_refuse _).bind
      refine .of_balks noKey fun ne => .token_bind (absurd · ne) fun key _ => ?_
      refine .ite (fun _ => .pure rfl) fun _ => .ite (fun _ => ?_) fun _ => ?_
      · exact .refused fun stream => ⟨_, bind_of_error (refuseHere_apply _ stream)⟩
      refine .advance_bind ne (.mark_bind .colon (by decide) ((inner _).bind fun m value => ?_))
      refine .kind_bind (fun _ => rfl) fun token here => .ite (fun comma => ?_) fun _ => .pure rfl
      exact .advance_bind (ne_gap here (by rw [comma]; decide)) ((ih _).map fun _ => rfl)

theorem mapping_crosses (budget n : Nat) :
    pair.Crosses (Expr.relocate pair.move) (mapping expr budget) (mapping expr budget) n :=
  .expect_bind .openMap (by decide) fun _ _ _ =>
    (mappingEntries_crosses inner budget _).bind fun _ _ =>
      .mark_bind .closeBrace (by decide) (.pure rfl)

theorem arguments_crosses (budget n : Nat) :
    pair.Crosses (Expr.relocateAll pair.move) (arguments expr budget) (arguments expr budget)
      n := by
  induction budget generalizing n with
  | zero => exact tooDeep_crosses
  | succ budget ih =>
      refine (inner n).bind fun m argument => ?_
      refine .kind_bind (fun _ => rfl) fun token here => .ite (fun comma => ?_) fun _ => .pure rfl
      exact .advance_bind (ne_gap here (by rw [comma]; decide)) ((ih _).map fun _ => rfl)

theorem labeledArguments_crosses (budget : Nat) (seen : List String) (n : Nat) :
    pair.Crosses (Expr.relocateEntries pair.move) (labeledArguments expr budget seen)
      (labeledArguments expr budget seen) n := by
  induction budget generalizing seen n with
  | zero => exact tooDeep_crosses
  | succ budget ih =>
      refine .kind_bind (fun _ => rfl) fun token _ => .ite (fun _ => .pure rfl) fun _ => ?_
      refine .expect_bind .identifier (by decide) fun label _ _ => ?_
      refine .ite (fun _ => .refused fun _ => ⟨_, rfl⟩) fun _ => ?_
      refine .mark_bind .assign (by decide) ((inner _).bind fun m value => ?_)
      refine .kind_bind (fun _ => rfl) fun token here => .ite (fun comma => ?_) fun _ => .pure rfl
      exact .advance_bind (ne_gap here (by rw [comma]; decide)) ((ih _ _).map fun _ => rfl)

include balks in
theorem blockElements_crosses (budget n : Nat) :
    pair.Crosses (Expr.relocateAll pair.move) (blockElements expr budget)
      (blockElements expr budget) n := by
  induction budget generalizing n with
  | zero => exact tooDeep_crosses
  | succ budget ih =>
      refine .skipSemicolons_bind (budget + 1) (balks_kind_bind balks.bind) (fun m ne => ?_) n
      refine .kind_bind (absurd · ne) fun token _ => .ite (fun _ => .pure rfl) fun _ => ?_
      refine (inner m).bind fun k element => ?_
      refine .of_balks (balks_kind_bind (balks_refuse _).bind) fun ne => ?_
      refine .kind_bind (absurd · ne) fun token _ => .ite (fun _ => ?_) fun _ => ?_
      · exact .refused fun stream => ⟨_, bind_of_error (refuseHere_apply _ stream)⟩
      · exact (ih k).map fun _ => rfl

include balks in
theorem braced_crosses (budget n : Nat) :
    pair.Crosses (Prod.map (Expr.relocateAll pair.move) pair.move) (braced expr budget)
      (braced expr budget) n :=
  .expect_bind .openBrace (by decide) fun _ _ _ =>
    (blockElements_crosses inner balks budget _).bind fun _ _ =>
      .mark_bind .closeBrace (by decide) (.pure rfl)

include balks in
theorem signature_crosses (budget n : Nat) :
    pair.Crosses (Prod.map id (Body.relocate pair.move)) (signature expr budget)
      (signature expr budget) n :=
  (params_crosses budget n).bind fun _ _ => (braced_crosses inner balks budget _).map fun _ => rfl

theorem declaration_crosses (n : Nat) :
    pair.Crosses (ValueDef.relocate pair.move) (declaration expr) (declaration expr) n := by
  have named (mutable : Bool) (position : Position) (m : Nat) :
      pair.Crosses (ValueDef.relocate pair.move)
        (do
          discard <| expect .letWord
          let name ← expect .identifier
          discard <| expect .assign
          let value ← expr
          return ({ name := name.lexeme, value, mutable, position } : ValueDef))
        (do
          discard <| expect .letWord
          let name ← expect .identifier
          discard <| expect .assign
          let value ← expr
          return ({ name := name.lexeme, value, mutable,
                    position := pair.move position } : ValueDef)) m :=
    .mark_bind .letWord (by decide) <| .expect_bind .identifier (by decide) fun _ _ _ =>
      .mark_bind .assign (by decide) <| (inner _).map fun _ => rfl
  have noWord : Balks (declaration expr) := by
    refine balks_token_bind fun start word => ?_
    rw [word]
    exact balks_mark_bind (by decide)
  refine .of_balks noWord fun ne => .token_bind (absurd · ne) fun start _ => ?_
  exact .ite (fun _ => .advance_bind ne (named _ _ _)) fun _ => named _ _ _

theorem assignment_crosses (n : Nat) :
    pair.Crosses (Expr.relocate pair.move) (assignment expr) (assignment expr) n :=
  .expect_bind .identifier (by decide) fun _ _ _ =>
    .mark_bind .assign (by decide) <| (inner _).map fun _ => rfl

omit inner in
/-- Whether the arguments have labels is told by two tokens ahead, of which the second is looked at
behind a name only. -/
theorem atLabels_bind_crosses {next next' : Bool → Parse Expr}
    (rest : ∀ seen, pair.Crosses (Expr.relocate pair.move) (next seen) (next' seen) n) :
    pair.Crosses (Expr.relocate pair.move) (atLabels >>= next) (atLabels >>= next') n := by
  rw [atLabels_bind_eq, atLabels_bind_eq]
  refine .kind_bind (fun _ => rfl) fun token here => .ite (fun bracket => ?_) fun _ => rest false
  have ne := ne_gap here (by rw [bracket]; decide)
  refine .nextIs_bind .identifier ne (fun _ => by decide) fun name found => ?_
  refine .ite (fun is => ?_) fun _ => rest false
  have ne' := ne_gap found (by rw [of_decide_eq_true is]; decide)
  have near' : ∀ j < 1 + 1, n + j ≠ pair.gap := fun j lt => by
    obtain rfl | rfl : j = 0 ∨ j = 1 := by omega
    · exact ne
    · exact ne'
  exact .aheadIs_bind 1 .assign near' (fun _ => by decide) fun token _ => rest _

theorem call_crosses (budget n : Nat) :
    pair.Crosses (Expr.relocate pair.move) (call expr budget) (call expr budget) n := by
  refine .expect_bind .identifier (by decide) fun callee _ _ => .mark_bind .openParen (by decide) ?_
  refine atLabels_bind_crosses fun seen => .ite (fun _ => ?_) fun _ => ?_
  · refine .mark_bind .openBracket (by decide) ?_
    refine (labeledArguments_crosses inner budget [] _).bind fun m labeled => ?_
    exact .mark_bind .closeBracket (by decide) (.mark_bind .closeParen (by decide) (.pure rfl))
  · have close (positional : List Expr) (m : Nat) :
        pair.Crosses (Expr.relocate pair.move)
          (do discard <| expect .closeParen; return .call callee.lexeme positional callee.position)
          (do
            discard <| expect .closeParen
            return .call callee.lexeme (Expr.relocateAll pair.move positional)
              (pair.move callee.position)) m :=
      .mark_bind .closeParen (by decide) (.pure rfl)
    refine .kind_bind (fun _ => rfl) fun token _ => .ite (fun _ => close [] _) fun _ => ?_
    exact (arguments_crosses inner budget _).bind fun m positional => close positional m

def alternativeHere (expr : Parse Expr) : Parse (Option Expr) := do
  if (← kind) = .elseWord then
    advance
    return some (← expr)
  else return none

omit inner in
theorem alternative_eq : alternative expr = (do
    if (← kind) = .semicolon then
      if ← aheadIs 0 .elseWord then advance >>= fun _ => alternativeHere expr
      else alternativeHere expr
    else alternativeHere expr) := rfl

theorem alternativeHere_crosses (ne : n ≠ pair.gap) :
    pair.Crosses (Expr.relocateAlternative pair.move) (alternativeHere expr) (alternativeHere expr)
      n := by
  refine .kind_bind (absurd · ne) fun token _ => .ite (fun _ => ?_) fun _ => .pure rfl
  exact .advance_bind ne ((inner _).map fun _ => rfl)

omit inner in
theorem alternative_at_gap {along : TokenStream} (stands : along.StandsAt pair.others pair.gap) :
    ∃ reached, reached.StandsAt pair.others (pair.gap + 1) ∧ reached.current.kind = .elseWord ∧
      alternative expr along = alternativeHere expr reached := by
  obtain ⟨word, here, is⟩ := pair.word
  obtain ⟨mark, there, semicolon⟩ := pair.semicolon
  have next := pair.later (Nat.le_refl _) here
  rw [stands.current] at there
  cases there
  obtain ⟨looked, saw, stands'⟩ := stands.exists_aheadIs next .elseWord
  obtain ⟨reached, moved, stands''⟩ := stands'.exists_advance next
  refine ⟨reached, stands'', ?_, ?_⟩
  · have wordHere := stands''.current
    rw [next] at wordHere
    rw [← Except.ok.inj wordHere, Token.relocate_kind, is]
  · rw [Token.relocate_kind, is] at saw
    rw [alternative_eq, kind_bind, if_pos semicolon, bind_of_ok saw, if_pos (decide_eq_true rfl),
      bind_of_ok moved]

/-- The one reader that goes on with the word: where the first sequence has the word right away, it
has the semicolon to pass over in the second. -/
theorem alternative_crosses (n : Nat) :
    pair.Crosses (Expr.relocateAlternative pair.move) (alternative expr) (alternative expr) n := by
  by_cases at_gap : n = pair.gap
  · intro stream value after stands read
    rw [at_gap] at stands ⊢
    have word := pair.word_of_gap stands.current
    rw [alternative_eq, kind_bind, if_neg (by rw [word]; decide), alternativeHere, kind_bind,
      if_pos word] at read
    obtain ⟨_, middle, moved, read⟩ := exists_of_bind read
    have stands' : middle.StandsAt pair.items (pair.gap + 1) := stands.of_shift (of_advance moved)
    have behind := pair.later (Nat.le_succ _) stands'.current
    have part : pair.Crosses (Expr.relocateAlternative pair.move)
        (do return some (← expr)) (do return some (← expr)) (pair.gap + 1) :=
      (inner _).map fun _ => rfl
    obtain ⟨m, stands'', along⟩ := part middle value after stands' read
    refine ⟨m, stands'', fun long longStands => ?_⟩
    rw [seat_of_le (Nat.le_refl _)] at longStands
    rw [seat_of_lt (Nat.lt_succ_self _)] at along
    obtain ⟨reached, reachedStands, word', same⟩ := alternative_at_gap longStands
    obtain ⟨beyond, passed, beyondStands⟩ := reachedStands.exists_advance behind
    rw [same, alternativeHere, kind_bind, if_pos word', bind_of_ok passed]
    exact along beyond beyondStands
  rw [alternative_eq]
  refine .kind_bind (fun here => absurd here at_gap) fun token here => ?_
  refine .ite (fun semicolon => ?_) fun _ => alternativeHere_crosses inner at_gap
  -- The word does not follow a semicolon of the first sequence.
  have ne' : n + 1 ≠ pair.gap := fun next => pair.apart next ⟨token, here, semicolon⟩
  refine .nextIs_bind .elseWord at_gap (absurd · ne') fun word _ => ?_
  exact .ite (fun _ => .advance_bind at_gap (alternativeHere_crosses inner ne')) fun _ =>
    alternativeHere_crosses inner at_gap

theorem branch_crosses (n : Nat) :
    pair.Crosses (Expr.relocate pair.move) (branch expr) (branch expr) n :=
  .expect_bind .ifWord (by decide) fun _ _ _ => (parenthesized_crosses inner _).bind fun _ _ =>
    (inner _).bind fun _ _ => (alternative_crosses inner _).map fun _ => rfl

theorem loop_crosses (n : Nat) :
    pair.Crosses (Expr.relocate pair.move) (loop expr) (loop expr) n :=
  .expect_bind .whileWord (by decide) fun _ _ _ => (parenthesized_crosses inner _).bind fun _ _ =>
    (inner _).map fun _ => rfl

omit inner in
theorem integer_crosses (literal : String) (place : Token) (n : Nat) :
    pair.Crosses (Expr.relocate pair.move) (integer literal place)
      (integer literal (place.relocate pair.move)) n := by
  unfold integer
  cases Decimal.int64? literal with
  | some value => exact .pure rfl
  | none => exact .refused fun _ => ⟨_, rfl⟩

omit inner in
theorem primary_balks (budget : Nat) : Balks (primary expr budget) := by
  refine balks_token_bind fun start word => ?_
  rw [word]
  exact balks_refuse _

include balks in
theorem primary_crosses (budget n : Nat) :
    pair.Crosses (Expr.relocate pair.move) (primary expr budget) (primary expr budget) n := by
  refine .of_balks (primary_balks budget) fun ne => ?_
  refine .token_bind (absurd · ne) fun start here => ?_
  rw [Token.relocate_kind]
  cases start.kind with
  | number => exact .advance_bind ne (integer_crosses start.lexeme start _)
  | text | trueWord | falseWord => exact .advance_bind ne (.pure rfl)
  | identifier =>
      refine .nextIs_bind .openParen ne (fun _ => by decide) fun token _ => ?_
      exact .ite (fun _ => call_crosses inner budget n) fun _ => .advance_bind ne (.pure rfl)
  | openParen => exact parenthesized_crosses inner n
  | openBracket =>
      have content :=
        bracketed_crosses inner .openBracket .closeBracket (by decide) (by decide) budget n
      exact content.map fun _ => rfl
  | openSet =>
      have content :=
        bracketed_crosses inner .openSet .closeBrace (by decide) (by decide) budget n
      exact content.map fun _ => rfl
  | openMap => exact mapping_crosses inner budget n
  | fnWord => exact .advance_bind ne ((signature_crosses inner balks budget _).map fun _ => rfl)
  | openBrace => exact (braced_crosses inner balks budget n).map fun _ => rfl
  | printlnWord => exact .advance_bind ne ((parenthesized_crosses inner _).map fun _ => rfl)
  | ifWord => exact branch_crosses inner n
  | whileWord => exact loop_crosses inner n
  | _ => exact .refused fun stream => ⟨_, refuseHere_apply _ stream⟩

omit inner in
theorem updates_crosses (budget : Nat) (operand : Expr) (n : Nat) :
    pair.Crosses (Expr.relocate pair.move) (updates budget operand)
      (updates budget (operand.relocate pair.move)) n := by
  induction budget generalizing operand n with
  | zero => exact tooDeep_crosses
  | succ budget ih =>
      refine .kind_bind (fun _ => rfl) fun token here => ?_
      cases found : updateOp? token.kind with
      | none => exact .pure rfl
      | some op =>
          have ne := ne_gap here fun word => by rw [word] at found; cases found
          exact .take_bind ne fun taken _ => ih _ (n + 1)

include balks in
theorem unary_crosses (budget n : Nat) :
    pair.Crosses (Expr.relocate pair.move) (unary expr budget) (unary expr budget) n := by
  induction budget generalizing n with
  | zero => exact tooDeep_crosses
  | succ budget ih =>
      have noOperand : Balks (unary expr (budget + 1)) := by
        refine balks_token_bind fun start word => ?_
        rw [word]
        exact (primary_balks (budget + 1)).bind
      refine .of_balks noOperand fun ne => .token_bind (absurd · ne) fun start _ => ?_
      refine .ite (fun _ => .advance_bind ne ?_) fun _ => ?_
      · refine .token_bind (fun _ word mark is is' => ?_) fun operand here => ?_
        · rw [Token.relocate_kind, is, is']
          rfl
        refine .ite (fun number => ?_) fun _ => ?_
        · have ne' := ne_gap here (by rw [number]; decide)
          exact .advance_bind ne' (integer_crosses _ start _)
        · exact (ih _).map fun _ => rfl
      · rw [Token.relocate_kind]
        cases updateOp? start.kind with
        | some op => exact .advance_bind ne ((ih _).map fun _ => rfl)
        | none =>
            exact (primary_crosses inner balks (budget + 1) n).bind fun m operand =>
              updates_crosses (budget + 1) operand m

omit inner in
theorem chain_crosses {operand : Parse Expr} (level : Level)
    (plain : level.lookup .elseWord = none ∧ level.lookup .semicolon = none)
    (part : ∀ n, pair.Crosses (Expr.relocate pair.move) operand operand n)
    (budget : Nat) (lhs : Expr) (n : Nat) :
    pair.Crosses (Expr.relocate pair.move) (chain operand level budget lhs)
      (chain operand level budget (lhs.relocate pair.move)) n := by
  induction budget generalizing lhs n with
  | zero => exact tooDeep_crosses
  | succ budget ih =>
      refine .token_bind (fun _ word mark is is' => ?_) fun sign here => ?_
      · rw [Token.relocate_kind, is, is', plain.1, plain.2]
      rw [Token.relocate_kind]
      cases found : level.lookup sign.kind with
      | none => exact .pure rfl
      | some op =>
          have ne := ne_gap here fun word => by rw [word, plain.1] at found; cases found
          exact .advance_bind ne ((part _).bind fun m rhs => ih _ m)

include balks in
theorem joined_crosses (budget : Nat) (tighter : List Level)
    (plain : ∀ level ∈ tighter, level.lookup .elseWord = none ∧ level.lookup .semicolon = none)
    (n : Nat) :
    pair.Crosses (Expr.relocate pair.move) (joined expr budget tighter) (joined expr budget tighter)
      n := by
  induction tighter generalizing n with
  | nil => exact unary_crosses inner balks budget n
  | cons level tighter ih =>
      have part := ih fun level member => plain level (List.mem_cons_of_mem _ member)
      exact (part n).bind fun m lhs => chain_crosses level (plain level (by simp)) part budget lhs m

include balks in
theorem expressionOf_crosses (budget n : Nat) :
    pair.Crosses (Expr.relocate pair.move) (expressionOf expr budget) (expressionOf expr budget)
      n := by
  have operators := joined_crosses inner balks budget levels (by decide)
  refine .kind_bind (fun _ => rfl) fun token here => ?_
  cases is : token.kind with
  | letWord | mutableWord => exact (declaration_crosses inner n).map fun _ => rfl
  | identifier =>
      have ne := ne_gap here (by rw [is]; decide)
      refine .nextIs_bind .assign ne (fun _ => by decide) fun token _ => ?_
      exact .ite (fun _ => assignment_crosses inner n) fun _ => operators n
  | _ => exact operators n

end

theorem expression_crosses (budget n : Nat) :
    pair.Crosses (Expr.relocate pair.move) (expression budget) (expression budget) n := by
  induction budget generalizing n with
  | zero => exact tooDeep_crosses
  | succ budget ih =>
      exact expressionOf_crosses ih (fun _ => expression_at_else budget) (budget + 1) n

theorem functionDef_crosses (budget n : Nat) :
    pair.Crosses (FunctionDef.relocate pair.move) (functionDef budget) (functionDef budget) n :=
  .expect_bind .fnWord (by decide) fun _ _ _ => .expect_bind .identifier (by decide) fun _ _ _ =>
    have inner := expression_crosses budget
    (signature_crosses inner (fun _ => expression_at_else budget) budget _).map fun _ => rfl

theorem entry_crosses (budget n : Nat) :
    pair.Crosses (Entry.relocate pair.move) (entry budget) (entry budget) n := by
  have value : pair.Crosses (Entry.relocate pair.move)
      (do return .expression (← expression budget)) (do return .expression (← expression budget))
      n :=
    (expression_crosses budget n).map fun _ => rfl
  refine .kind_bind (fun _ => rfl) fun token here => .ite (fun word => ?_) fun _ => value
  have ne := ne_gap here (by rw [word]; decide)
  refine .nextIs_bind .identifier ne (fun _ => by decide) fun token _ => ?_
  exact .ite (fun _ => (functionDef_crosses budget n).map fun _ => rfl) fun _ => value

theorem Elements.crosses {budget : Nat} {entries : List Entry} {stream : TokenStream}
    (listed : Elements (entry budget) stream entries) (stands : stream.StandsAt pair.items n)
    (along : TokenStream) (stands' : along.StandsAt pair.others (pair.seat n)) :
    Elements (entry budget) along (entries.map (Entry.relocate pair.move)) := by
  induction listed generalizing n along with
  | @done stream ended =>
      have there := others_seat (ne_gap stands.current (by rw [ended]; decide)) stands.current
      rw [stands'.current] at there
      refine .done ?_
      rw [Except.ok.inj there, Token.relocate_kind, ended]
  | @skip stream after values semicolon moved _ ih =>
      have ne := ne_gap stands.current (by rw [semicolon]; decide)
      have there := others_seat ne stands.current
      rw [stands'.current] at there
      have next : after.StandsAt pair.items (n + 1) := stands.of_shift (of_advance moved)
      obtain ⟨found, further, -⟩ := exists_others_seat next.current
      rw [seat_succ ne] at further
      obtain ⟨reached, passed, reachedStands⟩ := stands'.exists_advance further
      refine .skip ?_ passed (ih next reached (seat_succ ne ▸ reachedStands))
      rw [Except.ok.inj there, Token.relocate_kind, semicolon]
  | @item stream after value values proper read ended rest ih =>
      obtain ⟨m, next, crossed⟩ := entry_crosses budget n stream value after stands read
      obtain ⟨reached, read', reachedStands⟩ := crossed along stands'
      have first : n ≠ pair.gap := by
        rintro rfl
        exact (Elements.item proper read ended rest).ne_else (pair.word_of_gap stands.current)
      have last : m ≠ pair.gap := by
        rintro rfl
        exact rest.ne_else (pair.word_of_gap next.current)
      have there := others_seat first stands.current
      have there' := others_seat last next.current
      rw [stands'.current] at there
      rw [reachedStands.current] at there'
      refine .item ?_ read' ?_ (ih next reached reachedStands)
      · rw [Except.ok.inj there, Token.relocate_kind]
        exact proper
      · rw [Except.ok.inj there', Token.relocate_kind]
        exact ended

end Koy
