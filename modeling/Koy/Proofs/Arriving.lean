import Koy.Proofs.ReaderComposition

/-! One reader on one token sequence: the place that it comes to, what it yields there, and how it
refuses a text. -/

namespace Koy

namespace Parse

variable {α β : Type} {items : Items} {wrong : SyntaxError → Prop}

/-- From the place `n` the reader comes to a place that is not before it, and what it yields there
satisfies `post`; or it refuses the text with an error that satisfies `wrong`. -/
structure Arrives (items : Items) (wrong : SyntaxError → Prop) (n : Nat) (reader : Parse α)
    (post : α → Nat → Prop) : Prop where
  yields (stream : TokenStream) (value : α) (after : TokenStream) : stream.StandsAt items n →
    reader stream = .ok (value, after) → ∃ m, n ≤ m ∧ after.StandsAt items m ∧ post value m
  refuses (stream : TokenStream) (error : SyntaxError) : stream.StandsAt items n →
    reader stream = .error error → wrong error

namespace Arrives

variable {n : Nat}

theorem pure {value : α} {post : α → Nat → Prop} (holds : post value n) :
    Arrives items wrong n (pure value) post where
  yields stream _ _ stands read := by
    cases read
    exact ⟨n, Nat.le_refl n, stands, holds⟩
  refuses _ _ _ refused := nomatch refused

theorem refuse {position : Position} {cause : SyntaxError.Cause} {post : α → Nat → Prop}
    (met : wrong { position, cause }) : Arrives items wrong n (refuse position cause) post where
  yields _ _ _ _ read := nomatch read
  refuses _ _ _ refused := by
    cases refused
    exact met

theorem bind {reader : Parse α} {next : α → Parse β} {mid : α → Nat → Prop} {post : β → Nat → Prop}
    (first : Arrives items wrong n reader mid)
    (second : ∀ value m, n ≤ m → mid value m → Arrives items wrong m (next value) post) :
    Arrives items wrong n (reader >>= next) post where
  yields stream result last stands read := by
    obtain ⟨value, middle, begun, ended⟩ := exists_of_bind read
    obtain ⟨m, le, stands', met⟩ := first.yields stream value middle stands begun
    obtain ⟨k, le', stands'', met'⟩ := (second value m le met).yields middle result last stands' ended
    exact ⟨k, Nat.le_trans le le', stands'', met'⟩
  refuses stream error stands refused := by
    cases read : reader stream with
    | error found =>
        rw [bind_of_error read] at refused
        cases refused
        exact first.refuses stream error stands read
    | ok pair =>
        rw [bind_of_ok read] at refused
        obtain ⟨m, le, stands', met⟩ := first.yields stream pair.1 pair.2 stands read
        exact (second pair.1 m le met).refuses pair.2 error stands' refused

theorem token_bind {next : Token → Parse β} {post : β → Nat → Prop}
    (rest : ∀ token, items n = .ok token → Arrives items wrong n (next token) post) :
    Arrives items wrong n (token >>= next) post where
  yields stream value after stands :=
    (rest stream.current stands.current).yields stream value after stands
  refuses stream error stands := (rest stream.current stands.current).refuses stream error stands

theorem advance (faults : ∀ n error, items n = .error error → wrong error) :
    Arrives items wrong n advance fun _ m => m = n + 1 where
  yields stream _ _ stands read := ⟨n + 1, Nat.le_succ n, stands.of_shift (of_advance read), rfl⟩
  refuses stream error stands refused := by
    rcases advance_cases stream with ⟨found, failed, refused'⟩ | ⟨after, -, moved⟩
    · cases refused.symm.trans refused'
      exact faults _ _ ((stands.item 1).symm.trans failed)
    · cases refused.symm.trans moved

theorem aheadIs (faults : ∀ n error, items n = .error error → wrong error) (i : Nat)
    (wanted : TokenKind) :
    Arrives items wrong n (aheadIs i wanted) fun seen m =>
      m = n ∧ (seen = true → items.HasAt (n + (i + 1)) wanted) where
  yields stream seen after stands read := by
    rcases aheadIs_cases stands.sound i wanted with
      ⟨error, -, refused⟩ | ⟨token, moved, found, same, looked⟩
    · cases refused.symm.trans read
    · cases looked.symm.trans read
      refine ⟨n, Nat.le_refl n, stands.of_same same, rfl, fun is => ?_⟩
      exact ⟨token, (stands.item _).symm.trans found, of_decide_eq_true is⟩
  refuses stream error stands refused := by
    rcases aheadIs_cases stands.sound i wanted with
      ⟨found, failed, refused'⟩ | ⟨token, after, -, -, looked⟩
    · cases refused.symm.trans refused'
      exact faults _ _ ((stands.item _).symm.trans failed)
    · cases refused.symm.trans looked

def unary (faults : ∀ n error, items n = .error error → wrong error)
    (refusals : ∀ n token cause, items n = .ok token → wrong { position := token.position, cause }) :
    Unary items 0 where
  Holds := Arrives items wrong
  pure := pure
  bind := bind
  token_bind := token_bind
  advance _ _ := advance faults
  aheadIs _ _ i _ _ := aheadIs faults i _
  refuse here _ := refuse (refusals _ _ _ here)
  tooDeep _ := token_bind fun _ here => refuse (refusals _ _ _ here)

def yielding (items : Items) : Logic items id 0 :=
  (@unary items (fun _ => True) (fun _ _ _ => True.intro) fun _ _ _ _ => True.intro).logic

end Arrives

end Parse

theorem Grammar.yields_of_runOn {α : Type} {reader : Nat → Parse α} {source : Bytes} {value : α}
    {post : α → α → Nat → Prop}
    (holds : ∀ budget, (Parse.Arrives.yielding (Lexer.ofSource source).item).Holds 0 (reader budget)
      (reader budget) post)
    (read : runOn reader source = .ok value) : ∃ value' m, post value value' m := by
  obtain ⟨stream, after, opened, read⟩ := exists_of_runOn read
  obtain ⟨m, -, -, value', met⟩ :=
    (holds _).yields stream value after (TokenStream.ofSource_standsAt opened) read
  exact ⟨value', m, met⟩

end Koy
