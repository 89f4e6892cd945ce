import Koy.Proofs.MovedTrees
import Koy.Proofs.ReaderComposition

/-! One reader on two token sequences, the second of which has the tokens of the first at other
places. Where the reader succeeds on the first sequence it succeeds on the second, with the same
tree at the other places, if the sequences go together up to the token that it stops at. -/

namespace Koy

open Parse Grammar

/-- Two token sequences. As far as `near` reaches the second has the tokens of the first, at moved
places, and of the tokens right after these either both or none is the word `else`. -/
structure Lanes where
  move : Position → Position
  items : Items
  others : Items
  near : Nat → Prop
  nearer {i j : Nat} (le : i ≤ j) (reached : near j) : near i
  same {n : Nat} (reached : near n) :
    ∃ token, items n = .ok token ∧ others n = .ok (token.relocate move)
  alike {n : Nat} (reached : near n) :
    ∃ token other, items (n + 1) = .ok token ∧ others (n + 1) = .ok other ∧
      (token.kind = .elseWord ↔ other.kind = .elseWord)

namespace Lanes

variable {α β : Type}

theorem others_eq (lanes : Lanes) {n : Nat} {token : Token} (here : lanes.items n = .ok token)
    (reached : lanes.near n) : lanes.others n = .ok (token.relocate lanes.move) := by
  obtain ⟨found, first, second⟩ := lanes.same reached
  rw [here] at first
  cases first
  exact second

/-- From item `n` of the first sequence the reader comes to some item, and the other reader comes on the
second sequence to the item with the same number; what they yield there satisfies `post`. -/
def Follows (lanes : Lanes) (n : Nat) (reader other : Parse α) (post : α → α → Nat → Prop) : Prop :=
  ∀ stream value after, stream.StandsAt lanes.items n → reader stream = .ok (value, after) →
    ∃ value' m, n ≤ m ∧ post value value' m ∧ after.StandsAt lanes.items m ∧
      (lanes.near m → ∀ along, along.StandsAt lanes.others n → ∃ after',
        other along = .ok (value', after') ∧ after'.StandsAt lanes.others m)

namespace Follows

variable {lanes : Lanes} {n : Nat} {post : β → β → Nat → Prop}

theorem bind {reader other : Parse α} {next next' : α → Parse β} {mid : α → α → Nat → Prop}
    (first : lanes.Follows n reader other mid)
    (second : ∀ value value' m, n ≤ m → mid value value' m →
      lanes.Follows m (next value) (next' value') post) :
    lanes.Follows n (reader >>= next) (other >>= next') post := by
  intro stream result last stands read
  obtain ⟨value, middle, begun, finished⟩ := exists_of_bind read
  obtain ⟨value', m, le, met, stands', along⟩ := first stream value middle stands begun
  obtain ⟨result', k, le', met', stands'', along'⟩ :=
    second value value' m le met middle result last stands' finished
  refine ⟨result', k, Nat.le_trans le le', met', stands'', fun near long longStands => ?_⟩
  obtain ⟨middle', begun', longStands'⟩ := along (lanes.nearer le' near) long longStands
  rw [bind_of_ok begun']
  exact along' near middle' longStands'

theorem token_bind {next next' : Token → Parse β}
    (rest : ∀ token, lanes.items n = .ok token →
      lanes.Follows n (next token) (next' (token.relocate lanes.move)) post) :
    lanes.Follows n (token >>= next) (token >>= next') post := by
  intro stream value after stands read
  have here := stands.current
  obtain ⟨value', m, le, met, stands', along⟩ := rest _ here stream value after stands read
  refine ⟨value', m, le, met, stands', fun near long longStands => ?_⟩
  have there := lanes.others_eq here (lanes.nearer le near)
  rw [longStands.current] at there
  rw [Parse.token_bind, Except.ok.inj there]
  exact along near long longStands

theorem advance : lanes.Follows n advance advance fun _ _ m => m = n + 1 := by
  intro stream value after stands read
  refine ⟨(), n + 1, Nat.le_succ n, rfl, stands.of_shift (of_advance read),
    fun near long longStands => ?_⟩
  obtain ⟨token, -, there⟩ := lanes.same near
  exact longStands.exists_advance there

/-- A token ahead is the same in both sequences if it is passed over later. If it is the first that
they do not share it is at least in both, or in none, the word `else`. -/
theorem aheadIs_bind (i : Nat) (wanted : TokenKind) {next next' : Bool → Parse β}
    (rest : ∀ seen, (seen = true → lanes.items.HasAt (n + (i + 1)) wanted) →
      lanes.Follows n (next seen) (next' seen) fun value value' m =>
        post value value' m ∧ (n + i < m ∨ n + i = m ∧ wanted = .elseWord)) :
    lanes.Follows n (aheadIs i wanted >>= next) (aheadIs i wanted >>= next') post := by
  intro stream value after stands read
  rcases aheadIs_cases stands.sound i wanted with
    ⟨error, -, failed⟩ | ⟨token, looked, found, same, seen⟩
  · rw [bind_of_error failed] at read
    cases read
  rw [bind_of_ok seen] at read
  rw [stands.item] at found
  obtain ⟨value', m, le, ⟨met, far⟩, stands', along⟩ :=
    rest _ (fun is => ⟨token, found, of_decide_eq_true is⟩) looked value after (stands.of_same same)
      read
  refine ⟨value', m, le, met, stands', fun near long longStands => ?_⟩
  have there : ∃ other, lanes.others (n + (i + 1)) = .ok other ∧
      (token.kind = wanted ↔ other.kind = wanted) := by
    rcases far with beyond | ⟨rfl, rfl⟩
    · exact ⟨_, lanes.others_eq found (lanes.nearer beyond near), Iff.rfl⟩
    · obtain ⟨token', other, found', there, alike⟩ := lanes.alike near
      rw [Nat.add_assoc, found] at found'
      cases found'
      exact ⟨other, there, alike⟩
  obtain ⟨other, there, alike⟩ := there
  obtain ⟨looked', seen', longStands'⟩ := longStands.exists_aheadIs there wanted
  rw [bind_of_ok seen', ← decide_eq_decide.mpr alike]
  exact along near looked' longStands'

end Follows

def logic (lanes : Lanes) : Logic lanes.items (Token.relocate lanes.move) 0 where
  Holds := lanes.Follows
  kind_eq _ := rfl
  lexeme_eq _ := rfl
  pure {α n value value' post} holds := by
    intro stream found after stands read
    cases read
    exact ⟨value', n, Nat.le_refl n, holds, stands, fun _ along stands' => ⟨along, rfl, stands'⟩⟩
  bind := Follows.bind
  token_bind := Follows.token_bind
  advance_bind _ _ rest := Follows.advance.bind fun _ _ _ _ moved => moved ▸ rest
  aheadIs_bind _ _ i wanted _ rest := Follows.aheadIs_bind i wanted rest
  refuse _ _ _ _ _ _ read := nomatch read
  tooDeep _ _ _ _ _ read := nomatch read

def Carries (lanes : Lanes) (change : α → α) (reader other : Parse α) (n : Nat) : Prop :=
  lanes.Follows n reader other fun value value' m => value' = change value ∧ lanes.items.Whole n m

end Lanes

variable {lanes : Lanes}

theorem expression_carries (budget n : Nat) :
    lanes.Carries (Expr.relocate lanes.move) (expression budget) (expression budget) n := by
  have holds := expression_holds lanes.logic MovedTree.productions (Nat.le_refl budget)
  exact lanes.logic.weaken (holds n (Nat.zero_le _)) fun _ _ _ _ given => given.2

theorem declaration_carries (budget n : Nat) :
    lanes.Carries (ValueDef.relocate lanes.move) (declaration (expression budget))
      (declaration (expression budget)) n := by
  have inner := expression_holds lanes.logic MovedTree.productions (Nat.le_refl budget)
  exact lanes.logic.weaken (declaration_holds lanes.logic inner (Nat.zero_le _)) fun _ _ _ _ given =>
    MovedTree.declared given.2

theorem functionDef_carries {budget budget' : Nat} (larger : budget ≤ budget') (n : Nat) :
    lanes.Carries (FunctionDef.relocate lanes.move) (functionDef budget) (functionDef budget') n := by
  have holds := functionDef_holds lanes.logic MovedTree.productions larger
  exact lanes.logic.weaken (holds n (Nat.zero_le _)) fun _ _ _ _ given => MovedTree.defined given.2

theorem entry_carries (budget n : Nat) :
    lanes.Carries (Entry.relocate lanes.move) (entry budget) (entry budget) n := by
  have holds := entry_holds lanes.logic MovedTree.productions (Nat.le_refl budget)
  exact lanes.logic.weaken (holds n (Nat.zero_le _)) fun _ _ _ _ given => MovedTree.entered given.2

end Koy
