import Koy.Proofs.ReaderComposition
import Koy.Proofs.Requests

/-! The pace of readers. Whatever a reader yields it has taken tokens for, whatever it repeats takes a
token each time, and no reader makes a call on the stream at the end of the input. A reader therefore
comes to an end before it has used up a budget that exceeds the number of tokens, and does not ask the
lexer for more than the tokens of the source. -/

namespace Koy

open Parse StreamCall

variable {α β : Type}

/-- Run from the stream, which stands at the place `n`, the reader makes these calls, all of them before
the end of the input. As many as move on take it to a place that satisfies `post` with what it yields,
if it succeeds; if it is out of its budget, to `bound` at the least. -/
structure Run (bound n : Nat) (reader : Parse α) (post : α → Nat → Prop) (stream : TokenStream)
    (calls : List StreamCall) : Prop where
  makes : Makes reader stream calls
  before : stream.BeforeEnd calls
  takes : ∀ value after, reader stream = .ok (value, after) → post value (n + steps calls)
  spends : ∀ error, reader stream = .error error → error.cause = .tooDeep → bound ≤ n + steps calls

def Paced (items : Items) (bound n : Nat) (reader : Parse α) (post : α → Nat → Prop) : Prop :=
  ∀ stream, (∀ i, stream.item i = items (n + i)) → ∃ calls, Run bound n reader post stream calls

namespace Paced

variable {items : Items} {bound n : Nat}

theorem pure {value : α} {post : α → Nat → Prop} (holds : post value n) :
    Paced items bound n (pure value) post := by
  intro stream _
  refine ⟨[], .pure value stream, trivial, fun found after read => ?_, fun _ failed => nomatch failed⟩
  cases read
  exact holds

theorem refuse {position : Position} {cause : SyntaxError.Cause} {post : α → Nat → Prop}
    (due : cause = .tooDeep → bound ≤ n) : Paced items bound n (refuse position cause) post := by
  intro stream _
  refine ⟨[], .refuse position cause stream, trivial, fun _ _ read => (nomatch read), ?_⟩
  intro error failed spent
  cases failed
  exact due spent

theorem bind {reader : Parse α} {next : α → Parse β} {mid : α → Nat → Prop} {post : β → Nat → Prop}
    (first : Paced items bound n reader mid)
    (second : ∀ value m, n ≤ m → mid value m → Paced items bound m (next value) post) :
    Paced items bound n (reader >>= next) post := by
  intro stream stands
  obtain ⟨calls, run⟩ := first stream stands
  cases read : reader stream with
  | error error =>
      refine ⟨calls, .refused run.makes read, run.before, fun value after done => ?_, ?_⟩
      · rw [bind_of_error read] at done
        cases done
      · intro found failed spent
        rw [bind_of_error read] at failed
        cases failed
        exact run.spends error read spent
  | ok pair =>
      obtain ⟨value, middle⟩ := pair
      have made := run.makes.leavesAs.ok value middle read
      have stands' (i : Nat) : middle.item i = items (n + steps calls + i) := by
        rw [TokenStream.item_of_performAll made, stands, Nat.add_assoc]
      obtain ⟨more, run'⟩ := second value _ (Nat.le_add_right n _) (run.takes value middle read) middle
        stands'
      have far : n + steps calls + steps more = n + steps (calls ++ more) := by
        rw [steps_append, Nat.add_assoc]
      refine ⟨calls ++ more, .bind run.makes read run'.makes, ?_, ?_, ?_⟩
      · refine TokenStream.beforeEnd_append.mpr ⟨run.before, fun middle' made' => ?_⟩
        rw [made] at made'
        cases made'
        exact run'.before
      · rw [bind_of_ok read, ← far]
        exact run'.takes
      · rw [bind_of_ok read, ← far]
        exact run'.spends

theorem token_bind {next : Token → Parse β} {post : β → Nat → Prop}
    (rest : ∀ token, items n = .ok token → Paced items bound n (next token) post) :
    Paced items bound n (token >>= next) post := by
  intro stream stands
  have here : items n = .ok stream.current := (stands 0).symm
  obtain ⟨calls, run⟩ := rest stream.current here stream stands
  exact ⟨[] ++ calls, .bind (.token stream) rfl run.makes, run.before, run.takes, run.spends⟩

theorem current_ne_end {stream : TokenStream} (stands : ∀ i, stream.item i = items (n + i))
    {kind : TokenKind} (here : items.HasAt n kind) (proper : kind ≠ .endOfInput) :
    stream.current.kind ≠ .endOfInput := by
  obtain ⟨token, found, is⟩ := here
  obtain rfl : stream.current = token := Except.ok.inj ((stands 0).trans found)
  rwa [is]

theorem advance {kind : TokenKind} (here : items.HasAt n kind) (proper : kind ≠ .endOfInput) :
    Paced items bound n advance fun _ m => m = n + 1 := by
  intro stream stands
  refine ⟨[.advance], .advance stream, ⟨current_ne_end stands here proper, fun _ _ => trivial⟩,
    fun _ _ _ => rfl, ?_⟩
  intro error refused spent
  rcases advance_cases stream with ⟨found, failed, thrown⟩ | ⟨after, -, moved⟩
  · cases refused.symm.trans thrown
    exact absurd spent (TokenStream.not_tooDeep_of_item failed)
  · cases refused.symm.trans moved

/-- The end token may be taken for the token of a place behind it, and for no other kind. -/
theorem aheadIs {kind : TokenKind} (here : items.HasAt n kind) (proper : kind ≠ .endOfInput) (i : Nat)
    {wanted : TokenKind} (other : wanted ≠ .endOfInput) :
    Paced items bound n (aheadIs i wanted) fun seen m =>
      m = n ∧ (seen = true → items.HasAt (n + (i + 1)) wanted) := by
  intro stream stands
  refine ⟨[.peek i], .aheadIs i wanted stream,
    ⟨current_ne_end stands here proper, fun _ _ => trivial⟩, fun seen after read => ?_,
    fun error refused spent => ?_⟩
  · refine ⟨rfl, fun is => ?_⟩
    subst is
    rw [aheadIs_apply] at read
    cases peeked : stream.peek i with
    | error error =>
        rw [peeked] at read
        cases read
    | ok found =>
        rw [peeked] at read
        obtain ⟨is, -⟩ := Prod.mk.inj (Except.ok.inj read)
        obtain ⟨-, there | ⟨ended, -⟩⟩ := TokenStream.peek_ok_or peeked
        · exact ⟨found.1, (stands _).symm.trans there, of_decide_eq_true is⟩
        · exact absurd ((of_decide_eq_true is).symm.trans ended) other
  · rw [aheadIs_apply] at refused
    cases peeked : stream.peek i with
    | error found =>
        rw [peeked] at refused
        cases refused
        exact absurd spent (TokenStream.not_tooDeep_of_item (TokenStream.peek_error peeked))
    | ok seen =>
        rw [peeked] at refused
        cases refused

theorem tooDeep {post : α → Nat → Prop} (spent : bound ≤ n) :
    Paced items bound n Parse.tooDeep post :=
  token_bind fun _ _ => refuse fun _ => spent

def unary (items : Items) (bound : Nat) : Unary items bound where
  Holds := Paced items bound
  pure := pure
  bind := bind
  token_bind := token_bind
  advance := advance
  aheadIs here proper i _ other := aheadIs here proper i other
  refuse _ roomy := refuse fun spent => absurd spent roomy
  tooDeep := tooDeep

end Paced

end Koy
