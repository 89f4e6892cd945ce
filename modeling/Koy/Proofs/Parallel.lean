import Koy.Proofs.MovedTrees
import Koy.Proofs.ReaderComposition

/-! Two readers on one text, the second on the text moved down, and with no smaller a budget. They go
along it together, and neither is ever out of budget before the text ends. -/

namespace Koy

structure Shift where
  bytes : Nat
  lines : Nat

def Shift.move (shift : Shift) : Position → Position :=
  .below shift.bytes shift.lines

namespace Parse

variable {α β : Type} {shift : Shift} {items : Items} {stop n : Nat}

/-- What comes of reading a stream and the moved one: both are refused, though not for want of budget,
or both readers come to the same place, which is at `stop` at the latest. -/
inductive Together (shift : Shift) (items : Items) (stop n : Nat) (post : α → α → Nat → Prop) :
    Except SyntaxError (α × TokenStream) → Except SyntaxError (α × TokenStream) → Prop where
  | refused (error : SyntaxError) (roomy : error.cause ≠ .tooDeep) :
      Together shift items stop n post (.error error) (.error (error.relocate shift.move))
  | reached {value value' : α} {after : TokenStream} {m : Nat} (le : n ≤ m) (before : m ≤ stop)
      (stands : after.StandsAt items m) (holds : post value value' m) :
      Together shift items stop n post (.ok (value, after))
        (.ok (value', after.relocate shift.move))

theorem Together.weaken {post post' : α → α → Nat → Prop} {m : Nat}
    {result result' : Except SyntaxError (α × TokenStream)}
    (together : Together shift items stop m post result result') (le : n ≤ m)
    (weaker : ∀ value value' k, post value value' k → post' value value' k) :
    Together shift items stop n post' result result' := by
  cases together with
  | refused error roomy => exact .refused error roomy
  | reached le' before stands holds =>
      exact .reached (Nat.le_trans le le') before stands (weaker _ _ _ holds)

def Parallel (shift : Shift) (items : Items) (stop n : Nat) (reader other : Parse α)
    (post : α → α → Nat → Prop) : Prop :=
  n ≤ stop → ∀ stream, stream.StandsAt items n →
    Together shift items stop n post (reader stream) (other (stream.relocate shift.move))

namespace Parallel

theorem bind {reader other : Parse α} {next next' : α → Parse β} {mid : α → α → Nat → Prop}
    {post : β → β → Nat → Prop} (first : Parallel shift items stop n reader other mid)
    (second : ∀ value value' m, n ≤ m → mid value value' m →
      Parallel shift items stop m (next value) (next' value') post) :
    Parallel shift items stop n (reader >>= next) (other >>= next') post := by
  intro le stream stands
  have together := first le stream stands
  generalize read : reader stream = result at together
  generalize read' : other (stream.relocate shift.move) = result' at together
  cases together with
  | refused error roomy =>
      rw [bind_of_error read, bind_of_error read']
      exact .refused error roomy
  | reached le' before stands' met =>
      rw [bind_of_ok read, bind_of_ok read']
      exact (second _ _ _ le' met before _ stands').weaken le' fun _ _ _ holds => holds

theorem advance (ended : ∀ token, items stop = .ok token → token.kind = .endOfInput)
    {kind : TokenKind} (here : items.HasAt n kind) (proper : kind ≠ .endOfInput) :
    Parallel shift items stop n advance advance fun _ _ m => m = n + 1 := by
  intro le stream stands
  rw [advance_apply, advance_apply, Shift.move, TokenStream.advance_relocate]
  cases moved : stream.advance with
  | error error =>
      exact .refused error (TokenStream.not_tooDeep_of_item (TokenStream.advance_error.mp moved))
  | ok after =>
      have before : n ≠ stop := by
        rintro rfl
        obtain ⟨token, found, is⟩ := here
        exact proper (is.symm.trans (ended token found))
      exact .reached (Nat.le_succ n) (by omega)
        (stands.of_shift (TokenStream.item_of_advance moved)) rfl

theorem aheadIs (i : Nat) (wanted : TokenKind) :
    Parallel shift items stop n (aheadIs i wanted) (aheadIs i wanted) fun seen seen' m =>
      seen' = seen ∧ m = n ∧ (seen = true → items.HasAt (n + (i + 1)) wanted) := by
  intro le stream stands
  rw [aheadIs_apply, aheadIs_apply, Shift.move, TokenStream.peek_relocate]
  cases peeked : stream.peek i with
  | error error =>
      exact .refused error (TokenStream.not_tooDeep_of_item (TokenStream.peek_error peeked))
  | ok seen =>
      obtain ⟨found, same⟩ := TokenStream.peek_ok stands.sound peeked
      refine .reached (Nat.le_refl n) le (stands.of_same same) ⟨rfl, rfl, fun is => ?_⟩
      exact ⟨seen.1, (stands.item _).symm.trans found, of_decide_eq_true is⟩

def logic (shift : Shift) (ended : ∀ token, items stop = .ok token → token.kind = .endOfInput) :
    Logic items (Token.relocate shift.move) (stop + 1) where
  Holds := Parallel shift items stop
  kind_eq _ := rfl
  lexeme_eq _ := rfl
  pure holds before _ stands := .reached (Nat.le_refl _) before stands holds
  bind := bind
  token_bind rest before stream stands := rest stream.current stands.current before stream stands
  advance_bind here proper rest := (advance ended here proper).bind fun _ _ _ _ moved => moved ▸ rest
  aheadIs_bind := by
    intro β n next next' post kind _ _ i wanted _ rest
    refine (aheadIs i wanted).bind fun seen seen' m _ looked => ?_
    obtain ⟨rfl, rfl, found⟩ := looked
    intro before stream stands
    exact (rest seen' found before stream stands).weaken (Nat.le_refl m) fun _ _ _ given => given.1
  refuse {α n k place cause post} _ natural _ _ _ := by
    have moved := congrArg (SyntaxError.mk (shift.move place.position)) (natural.relocate shift.move place)
    exact (congrArg (Together shift items stop n post _ <| .error ·) moved).mpr
      (.refused ⟨place.position, cause place⟩ (natural.roomy place))
  tooDeep spent before := absurd before (Nat.not_le_of_lt spent)

end Parallel

end Parse

end Koy
