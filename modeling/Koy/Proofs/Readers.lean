import Koy.Grammar
import Koy.Proofs.TokenSequence

/-! What the steps of reading do to a stream, in terms of the sequence of its tokens. -/

namespace Koy

theorem Lexer.Step.lexical {lexer after : Lexer} {error : SyntaxError}
    (step : Step lexer (.error error) after) : ∃ fault, error.cause = .lexical fault := by
  cases step with
  | faultyTrivia fault free failed => exact ⟨fault, rfl⟩
  | faultyToken newline fault free passed quiet failed => exact ⟨fault, rfl⟩

theorem Lexer.lexical_of_item (lexer : Lexer) (n : Nat) (error : SyntaxError)
    (failed : lexer.item n = .error error) : ∃ fault, error.cause = .lexical fault := by
  induction n generalizing lexer with
  | zero =>
      have stepped : lexer.next = (.error error, lexer.next.2) := Prod.ext failed rfl
      exact (step_of_next lexer _ _ stepped).lexical
  | succ n ih =>
      rw [item] at failed
      split at failed
      · rename_i token rest stepped
        exact ih rest failed
      · rename_i rest stepped
        cases failed
        exact (step_of_next lexer _ _ stepped).lexical

theorem TokenStream.lexical_of_item (stream : TokenStream) (n : Nat) (error : SyntaxError)
    (failed : stream.item n = .error error) : ∃ fault, error.cause = .lexical fault := by
  cases n with
  | zero => cases failed
  | succ n =>
      rw [item] at failed
      split at failed
      · cases failed
      · exact Lexer.lexical_of_item _ _ error failed

theorem TokenStream.not_tooDeep_of_item {stream : TokenStream} {n : Nat} {error : SyntaxError}
    (failed : stream.item n = .error error) : error.cause ≠ .tooDeep := by
  obtain ⟨fault, lexical⟩ := stream.lexical_of_item n error failed
  rw [lexical]
  simp

namespace Parse

variable {α β : Type} {reader : Parse α} {next : α → Parse β} {stream after : TokenStream}

theorem bind_of_ok {value : α} (read : reader stream = .ok (value, after)) :
    (reader >>= next) stream = next value after := by
  change (reader stream >>= fun pair => next pair.1 pair.2) = _
  rw [read]
  rfl

theorem bind_of_error {error : SyntaxError} (refused : reader stream = .error error) :
    (reader >>= next) stream = .error error := by
  change (reader stream >>= fun pair => next pair.1 pair.2) = _
  rw [refused]
  rfl

theorem exists_of_bind {result : β × TokenStream} (read : (reader >>= next) stream = .ok result) :
    ∃ value middle, reader stream = .ok (value, middle) ∧ next value middle = .ok result := by
  cases begun : reader stream with
  | error error =>
      rw [bind_of_error begun] at read
      cases read
  | ok pair =>
      rw [bind_of_ok begun] at read
      exact ⟨pair.1, pair.2, rfl, read⟩

theorem token_bind (next : Token → Parse β) (stream : TokenStream) :
    (token >>= next) stream = next stream.current stream := rfl

theorem kind_bind (next : TokenKind → Parse β) (stream : TokenStream) :
    (kind >>= next) stream = next stream.current.kind stream := rfl

theorem refuseHere_apply (cause : Token → SyntaxError.Cause) (stream : TokenStream) :
    (refuseHere cause : Parse α) stream =
      .error { position := stream.current.position, cause := cause stream.current } := rfl

theorem advance_apply (stream : TokenStream) :
    advance stream = (stream.advance >>= fun after => .ok ((), after)) := by
  change ((stream.advance >>= fun after => pure (after, stream)) >>=
    fun pair => pure ((), pair.1)) = _
  rw [bind_assoc]
  rfl

theorem aheadIs_apply (n : Nat) (wanted : TokenKind) (stream : TokenStream) :
    aheadIs n wanted stream =
      (stream.peek n >>= fun seen => .ok (decide (seen.1.kind = wanted), seen.2)) := by
  change ((stream.peek n >>= fun seen => pure (seen, stream)) >>=
    fun pair => pure (decide (pair.1.1.kind = wanted), pair.1.2)) = _
  rw [bind_assoc]
  rfl

theorem discard_bind (reader : Parse α) (next : Unit → Parse β) (stream : TokenStream) :
    (discard reader >>= next) stream = (reader >>= fun _ => next ()) stream := by
  cases read : reader stream with
  | error error =>
      have thrown : (discard reader : Parse Unit) stream = .error error := by
        change (reader stream >>= _) = _
        rw [read]
        rfl
      rw [bind_of_error thrown, bind_of_error read]
  | ok pair =>
      have dropped : (discard reader : Parse Unit) stream = .ok ((), pair.2) := by
        change (reader stream >>= _) = _
        rw [read]
        rfl
      rw [bind_of_ok dropped, bind_of_ok read]

theorem advance_cases (stream : TokenStream) :
    (∃ error, stream.item 1 = .error error ∧ advance stream = .error error) ∨
      ∃ after, (∀ n, after.item n = stream.item (n + 1)) ∧ advance stream = .ok ((), after) := by
  rw [advance_apply]
  cases moved : stream.advance with
  | error error => exact .inl ⟨error, TokenStream.advance_error.mp moved, rfl⟩
  | ok after => exact .inr ⟨after, TokenStream.item_of_advance moved, rfl⟩

theorem take_cases (stream : TokenStream) :
    (∃ error, stream.item 1 = .error error ∧ take stream = .error error) ∨
      ∃ after, (∀ n, after.item n = stream.item (n + 1)) ∧
        take stream = .ok (stream.current, after) := by
  have applied : take stream = (advance >>= fun _ => pure stream.current) stream := rfl
  rw [applied]
  rcases advance_cases stream with ⟨error, failed, refused⟩ | ⟨after, shifted, moved⟩
  · exact .inl ⟨error, failed, bind_of_error refused⟩
  · exact .inr ⟨after, shifted, bind_of_ok moved⟩

theorem take_bind_eq (next : Token → Parse β) :
    (take >>= next) = (token >>= fun taken => advance >>= fun _ => next taken) := by
  simp only [take, bind_assoc, pure_bind]

theorem expect_bind_eq (wanted : TokenKind) (next : Token → Parse β) :
    (expect wanted >>= next) = (kind >>= fun here =>
      if here = wanted then take >>= next else refuseHere (.expected wanted) >>= next) := by
  rw [expect, bind_assoc]
  congr 1
  funext here
  split <;> rfl

theorem of_advance {value : Unit} (read : advance stream = .ok (value, after)) (n : Nat) :
    after.item n = stream.item (n + 1) := by
  rcases advance_cases stream with ⟨error, -, refused⟩ | ⟨moved, shifted, passed⟩
  · rw [refused] at read
    cases read
  · rw [passed] at read
    cases read
    exact shifted n

theorem of_take {found : Token} (read : take stream = .ok (found, after)) :
    found = stream.current ∧ ∀ n, after.item n = stream.item (n + 1) := by
  rcases take_cases stream with ⟨error, -, refused⟩ | ⟨moved, shifted, taken⟩
  · rw [refused] at read
    cases read
  · rw [taken] at read
    cases read
    exact ⟨rfl, shifted⟩

theorem expect_of_eq {wanted : TokenKind} (here : stream.current.kind = wanted) :
    expect wanted stream = take stream := by
  rw [expect, kind_bind, if_pos here]

theorem expect_of_ne {wanted : TokenKind} (other : stream.current.kind ≠ wanted) :
    expect wanted stream = .error { position := stream.current.position,
                                    cause := .expected wanted stream.current } := by
  rw [expect, kind_bind, if_neg other, refuseHere_apply]

theorem of_expect {wanted : TokenKind} {found : Token}
    (read : expect wanted stream = .ok (found, after)) :
    stream.current.kind = wanted ∧ take stream = .ok (found, after) := by
  by_cases here : stream.current.kind = wanted
  · rw [expect_of_eq here] at read
    exact ⟨here, read⟩
  · rw [expect_of_ne here] at read
    cases read

theorem aheadIs_cases (sound : stream.Sound) (n : Nat) (wanted : TokenKind) :
    (∃ error, stream.item (n + 1) = .error error ∧ aheadIs n wanted stream = .error error) ∨
      ∃ token after, stream.item (n + 1) = .ok token ∧ stream.Same after ∧
        aheadIs n wanted stream = .ok (decide (token.kind = wanted), after) := by
  rw [aheadIs_apply]
  cases peeked : stream.peek n with
  | error error => exact .inl ⟨error, TokenStream.peek_error peeked, rfl⟩
  | ok seen =>
      obtain ⟨token, after⟩ := seen
      obtain ⟨found, same⟩ := TokenStream.peek_ok sound peeked
      exact .inr ⟨token, after, found, same, rfl⟩

end Parse

open Parse

/-- The stream stands at the item with this number. -/
structure TokenStream.StandsAt (items : Items) (n : Nat) (stream : TokenStream) : Prop where
  sound : stream.Sound
  item : ∀ i, stream.item i = items (n + i)

namespace TokenStream.StandsAt

variable {items : Items} {n : Nat} {stream after : TokenStream}

theorem current (stands : stream.StandsAt items n) : items n = .ok stream.current :=
  (stands.item 0).symm

theorem of_shift (stands : stream.StandsAt items n)
    (shifted : ∀ i, after.item i = stream.item (i + 1)) : after.StandsAt items (n + 1) := by
  constructor
  · exact stands.sound.of_shift shifted
  · intro i
    rw [shifted, stands.item]
    congr 1
    omega

theorem of_same (stands : stream.StandsAt items n) (same : stream.Same after) :
    after.StandsAt items n := by
  constructor
  · exact stands.sound.of_same same
  · intro i
    rw [same, stands.item]

theorem exists_advance {token : Token} (stands : stream.StandsAt items n)
    (found : items (n + 1) = .ok token) :
    ∃ after, Parse.advance stream = .ok ((), after) ∧ after.StandsAt items (n + 1) := by
  rcases advance_cases stream with ⟨error, failed, -⟩ | ⟨after, shifted, moved⟩
  · rw [stands.item, found] at failed
    cases failed
  · exact ⟨after, moved, stands.of_shift shifted⟩

theorem exists_aheadIs {token : Token} {i : Nat} (stands : stream.StandsAt items n)
    (found : items (n + (i + 1)) = .ok token) (wanted : TokenKind) :
    ∃ looked, aheadIs i wanted stream = .ok (decide (token.kind = wanted), looked) ∧
      looked.StandsAt items n := by
  rcases aheadIs_cases stands.sound i wanted with
    ⟨error, failed, -⟩ | ⟨seen, looked, there, same, saw⟩
  · rw [stands.item, found] at failed
    cases failed
  · rw [stands.item, found] at there
    cases there
    exact ⟨looked, saw, stands.of_same same⟩

end TokenStream.StandsAt

namespace TokenStream

theorem Sound.standsAt {stream : TokenStream} (sound : stream.Sound) :
    stream.StandsAt stream.item 0 := by
  refine ⟨sound, fun i => ?_⟩
  rw [Nat.zero_add]

theorem ofSource_standsAt {source : Bytes} {stream : TokenStream}
    (started : ofSource source = .ok stream) : stream.StandsAt (Lexer.ofSource source).item 0 := by
  refine ⟨sound_ofSource started, fun i => ?_⟩
  rw [Nat.zero_add]
  exact ofLexer_ok started i

end TokenStream

namespace Grammar

variable {α : Type} {reader : Nat → Parse α} {source : Bytes}

theorem exists_of_runOn {value : α} (read : runOn reader source = .ok value) :
    ∃ stream after, TokenStream.ofSource source = .ok stream ∧
      reader (budgetOf source) stream = .ok (value, after) := by
  unfold runOn at read
  cases opened : TokenStream.ofSource source with
  | error error =>
      rw [opened] at read
      cases read
  | ok stream =>
      rw [opened] at read
      change (reader (budgetOf source) stream >>= fun pair => .ok pair.1) = .ok value at read
      cases outcome : reader (budgetOf source) stream with
      | error error =>
          rw [outcome] at read
          cases read
      | ok pair =>
          rw [outcome] at read
          cases read
          exact ⟨stream, pair.2, rfl, outcome⟩

theorem refused_of_runOn {error : SyntaxError} (refused : runOn reader source = .error error) :
    (Lexer.ofSource source).item 0 = .error error ∨
      ∃ stream, TokenStream.ofSource source = .ok stream ∧
        reader (budgetOf source) stream = .error error := by
  unfold runOn at refused
  cases opened : TokenStream.ofSource source with
  | error found =>
      rw [opened] at refused
      cases refused
      exact .inl (TokenStream.ofLexer_error.mp opened)
  | ok stream =>
      rw [opened] at refused
      change (reader (budgetOf source) stream >>= fun pair => .ok pair.1) = .error error at refused
      cases outcome : reader (budgetOf source) stream with
      | error found =>
          rw [outcome] at refused
          cases refused
          exact .inr ⟨stream, rfl, outcome⟩
      | ok pair =>
          rw [outcome] at refused
          cases refused

end Grammar

end Koy
