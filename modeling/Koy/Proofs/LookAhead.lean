import Koy.Proofs.TokenSequence

/-! Look-ahead is transparent. Whatever calls are made on the stream of a source text, the stream holds
the tokens of the source from some place on. A call that moves on drops the first of them, a call that
looks ahead keeps them all, and the tokens become current as if none had been looked at before. -/

namespace Koy

inductive StreamCall where
  | advance
  | peek (n : Nat)
  deriving DecidableEq, Repr

namespace StreamCall

def moves : StreamCall → Bool
  | .advance => true
  | .peek _ => false

def steps (calls : List StreamCall) : Nat :=
  calls.countP moves

@[simp] theorem steps_nil : steps [] = 0 := rfl

@[simp] theorem steps_advance (calls : List StreamCall) :
    steps (.advance :: calls) = steps calls + 1 :=
  List.countP_cons_of_pos rfl

@[simp] theorem steps_peek (n : Nat) (calls : List StreamCall) :
    steps (.peek n :: calls) = steps calls :=
  List.countP_cons_of_neg Bool.false_ne_true

@[simp] theorem steps_append (calls more : List StreamCall) :
    steps (calls ++ more) = steps calls + steps more :=
  List.countP_append

end StreamCall

open StreamCall

namespace TokenStream

def perform (stream : TokenStream) : StreamCall → Except SyntaxError TokenStream
  | .advance => stream.advance
  | .peek n => (stream.peek n).map Prod.snd

def performAll : TokenStream → List StreamCall → Except SyntaxError TokenStream
  | stream, [] => .ok stream
  | stream, call :: calls => do
    let after ← stream.perform call
    after.performAll calls

/-- The tokens that are current one after the other while calls are made, none of which fails. -/
def currents : TokenStream → List StreamCall → Except SyntaxError (List Token)
  | stream, [] => .ok [stream.current]
  | stream, call :: calls => do
    let after ← stream.perform call
    let later ← after.currents calls
    return if call.moves then stream.current :: later else later

variable {stream other after : TokenStream} {call : StreamCall} {calls : List StreamCall}

theorem performAll_cons_ok :
    stream.performAll (call :: calls) = .ok after ↔
      ∃ middle, stream.perform call = .ok middle ∧ middle.performAll calls = .ok after := by
  rw [performAll]
  cases stream.perform call with
  | ok middle =>
      refine ⟨fun made => ⟨middle, rfl, made⟩, fun ⟨_, same, made⟩ => ?_⟩
      cases same
      exact made
  | error error => exact ⟨nofun, fun ⟨_, made, _⟩ => nomatch made⟩

theorem performAll_single (call : StreamCall) : stream.performAll [call] = stream.perform call := by
  rw [performAll]
  cases stream.perform call <;> rfl

theorem performAll_append {middle : TokenStream} (made : stream.performAll calls = .ok middle)
    (more : List StreamCall) : stream.performAll (calls ++ more) = middle.performAll more := by
  induction calls generalizing stream with
  | nil =>
      cases made
      rfl
  | cons call calls ih =>
      obtain ⟨next, first, rest⟩ := performAll_cons_ok.mp made
      rw [List.cons_append, performAll, first]
      exact ih rest

theorem same_of_peek {n : Nat} {token : Token} (peeked : stream.peek n = .ok (token, after)) :
    stream.Same after :=
  (peek_ok_or peeked).1

theorem exists_of_perform_peek {n : Nat} (made : stream.perform (.peek n) = .ok after) :
    ∃ token, stream.peek n = .ok (token, after) := by
  rw [perform] at made
  cases peeked : stream.peek n with
  | error error =>
      rw [peeked] at made
      cases made
  | ok seen =>
      rw [peeked] at made
      cases made
      exact ⟨seen.1, rfl⟩

theorem same_of_perform_peek {n : Nat} (made : stream.perform (.peek n) = .ok after) :
    stream.Same after := by
  obtain ⟨token, peeked⟩ := exists_of_perform_peek made
  exact same_of_peek peeked

theorem exists_advance {token : Token} (found : stream.item 1 = .ok token) :
    ∃ after, stream.advance = .ok after := by
  cases moved : stream.advance with
  | ok after => exact ⟨after, rfl⟩
  | error error =>
      rw [advance_error.mp moved] at found
      cases found

/-- What calls leave of a stream: as many tokens are dropped as there were calls that moved it on. -/
theorem item_of_performAll (made : stream.performAll calls = .ok after) (n : Nat) :
    after.item n = stream.item (steps calls + n) := by
  induction calls generalizing stream with
  | nil =>
      cases made
      rw [steps_nil, Nat.zero_add]
  | cons call calls ih =>
      obtain ⟨middle, first, rest⟩ := performAll_cons_ok.mp made
      rw [ih rest]
      cases call with
      | advance =>
          rw [item_of_advance first, steps_advance]
          congr 1
          omega
      | peek k => rw [same_of_perform_peek first, steps_peek]

theorem Sound.of_performAll (sound : stream.Sound) (made : stream.performAll calls = .ok after) :
    after.Sound := by
  intro n token found ended
  rw [item_of_performAll made] at found ⊢
  exact sound (steps calls + n) token found ended

theorem current_of_advance : stream.advance.map current = stream.item 1 := by
  cases moved : stream.advance with
  | ok after => exact item_of_advance moved 0
  | error error => exact (advance_error.mp moved).symm

theorem token_of_peek (sound : stream.Sound) (n : Nat) :
    (stream.peek n).map Prod.fst = stream.item (n + 1) := by
  cases peeked : stream.peek n with
  | ok seen => exact (peek_ok sound peeked).1.symm
  | error error => exact (peek_error peeked).symm

theorem exists_currents (made : stream.performAll calls = .ok after) :
    ∃ tokens, stream.currents calls = .ok tokens := by
  induction calls generalizing stream with
  | nil => exact ⟨_, rfl⟩
  | cons call calls ih =>
      obtain ⟨middle, first, rest⟩ := performAll_cons_ok.mp made
      obtain ⟨later, found⟩ := ih rest
      rw [currents, first]
      change ∃ tokens, (middle.currents calls >>= _) = .ok tokens
      rw [found]
      exact ⟨_, rfl⟩

theorem currents_filter_of_same {tokens : List Token} (same : stream.Same other)
    (found : stream.currents calls = .ok tokens) :
    other.currents (calls.filter moves) = .ok tokens := by
  have here : other.current = stream.current := Except.ok.inj (same 0)
  induction calls generalizing stream other tokens with
  | nil =>
      cases found
      rw [List.filter_nil, currents, here]
  | cons call calls ih =>
      rw [currents] at found
      cases first : stream.perform call with
      | error error =>
          rw [first] at found
          cases found
      | ok middle =>
          rw [first] at found
          change (middle.currents calls >>= _) = .ok tokens at found
          cases rest : middle.currents calls with
          | error error =>
              rw [rest] at found
              cases found
          | ok later =>
              rw [rest] at found
              cases found
              cases call with
              | advance =>
                  obtain ⟨moved, stepped⟩ : ∃ moved, other.advance = .ok moved :=
                    exists_advance ((same 1).trans (item_of_advance first 0).symm)
                  have still : middle.Same moved := fun n => by
                    rw [item_of_advance stepped, item_of_advance first, same]
                  have again := ih still rest (Except.ok.inj (still 0))
                  rw [List.filter_cons_of_pos rfl, currents, perform, stepped]
                  change (moved.currents _ >>= _) = _
                  rw [again, here]
                  rfl
              | peek n =>
                  have kept := same_of_perform_peek first
                  have still : middle.Same other := fun m => (same m).trans (kept m).symm
                  rw [List.filter_cons_of_neg Bool.false_ne_true]
                  exact ih still rest (Except.ok.inj (still 0))

/-- Look-ahead is transparent. After calls on the stream of a source text, none of which has failed, the
current token, the tokens seen ahead and those that the lexer still has to hand out are the tokens of
the source from the place on to which the stream has been moved. From there a call that moves on drops
exactly the first. A call that looks ahead hands out the token `n + 1` places after the current one,
and changes neither the current token nor the others. And the tokens that have been current, one after
the other, are those that the calls without the looks ahead make current. -/
theorem lookAhead_transparent {source : Bytes} {start : TokenStream}
    (started : ofSource source = .ok start) (made : start.performAll calls = .ok stream) :
    (∀ n, stream.item n = (Lexer.ofSource source).item (steps calls + n)) ∧
    (stream.advance.map current = stream.item 1 ∧
      ∀ after, stream.advance = .ok after → ∀ n, after.item n = stream.item (n + 1)) ∧
    (∀ n, (stream.peek n).map Prod.fst = stream.item (n + 1) ∧
      ∀ token after, stream.peek n = .ok (token, after) →
        after.current = stream.current ∧ ∀ m, after.item m = stream.item m) ∧
    ∃ tokens, start.currents calls = .ok tokens ∧
      start.currents (calls.filter moves) = .ok tokens := by
  have sound : stream.Sound := (sound_ofSource started).of_performAll made
  refine ⟨fun n => ?_, ⟨current_of_advance, fun after moved => item_of_advance moved⟩, fun n => ?_, ?_⟩
  · rw [item_of_performAll made, ofLexer_ok started]
  · refine ⟨token_of_peek sound n, fun token after peeked => ?_⟩
    have same := same_of_peek peeked
    exact ⟨Except.ok.inj (same 0), same⟩
  · obtain ⟨tokens, found⟩ := exists_currents made
    exact ⟨tokens, found, currents_filter_of_same (fun _ => rfl) found⟩

theorem lookAhead_transparent_sample :
    let source := Bytes.ofString "f([a"
    let calls : List StreamCall := [.peek 1, .advance, .advance, .peek 4]
    ∃ start stream, ofSource source = .ok start ∧ start.performAll calls = .ok stream ∧
      stream.ahead.map Token.kind = [.identifier, .endOfInput] ∧
      stream.item 7 = (Lexer.ofSource source).item 9 ∧
      (stream.peek 6).map Prod.fst = stream.item 7 ∧
      ∃ tokens, start.currents calls = .ok tokens ∧
        start.currents [.advance, .advance] = .ok tokens := by
  intro source calls
  have seen : ((ofSource source).toOption.bind fun start =>
      (start.performAll calls).toOption.map fun stream => stream.ahead.map Token.kind) =
      some [.identifier, .endOfInput] := by
    decide +kernel
  cases started : ofSource source with
  | error error =>
      rw [started] at seen
      cases seen
  | ok start =>
      rw [started] at seen
      change (start.performAll calls).toOption.map _ = _ at seen
      cases made : start.performAll calls with
      | error error =>
          rw [made] at seen
          cases seen
      | ok stream =>
          rw [made] at seen
          obtain ⟨places, -, looks, currents⟩ := lookAhead_transparent started made
          exact ⟨start, stream, rfl, made, Option.some.inj seen, places 7, (looks 6).1, currents⟩

end TokenStream

end Koy
