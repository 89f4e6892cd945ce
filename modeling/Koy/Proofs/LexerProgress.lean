import Koy.Proofs.LexerRuns
import Koy.Proofs.Places

/-! The lexer makes progress. A call that takes no character hands out a supplied semicolon or the brace
that waited behind one, and for each supplied semicolon there is a token of the source, so that a
source yields at most two tokens a byte before its end. The end, once reached, is never left. -/

namespace Koy

/-- The token is a semicolon that the source does not hold at the place of the token. -/
def Token.SuppliedIn (source : Bytes) (token : Token) : Prop :=
  token.kind = .semicolon ∧ ¬ token.WrittenIn source

namespace Lexer

variable {source : Bytes} {token : Token}

theorem afterCalls_add {lexer after : Lexer} {tokens : List Token}
    (passes : Passes lexer tokens after) (n : Nat) (here : afterCalls source n = lexer) :
    afterCalls source (n + tokens.length) = after := by
  induction passes generalizing n with
  | nil => exact here
  | @cons lexer middle after token tokens first _ _ ih =>
      have onward : afterCalls source (n + 1) = middle := by
        rw [afterCalls, here, first]
      rw [List.length_cons, Nat.add_comm tokens.length, ← Nat.add_assoc]
      exact ih (n + 1) onward

theorem exists_final_call (source : Bytes) : ∃ n < 2 * source.length + 1, Final (call source n) := by
  obtain ⟨tokens, after, passes, final⟩ := exists_passes (ofSource source)
  have here : afterCalls source tokens.length = after := by
    simpa using afterCalls_add passes 0 rfl
  have short := passes.length_le
  have light := weight_ofSource_le source
  refine ⟨tokens.length, by omega, ?_⟩
  rw [call, here]
  exact final

theorem sound_afterCalls (source : Bytes) (n : Nat) : (afterCalls source n).Sound := by
  cases n with
  | zero => exact sound_of_free _ rfl
  | succ n => exact (step_call source n).sound

theorem call_succ_of_end {n : Nat} (handed : call source n = .ok token)
    (ended : token.kind = .endOfInput) : call source (n + 1) = .ok token := by
  have step := step_call source n
  rw [handed] at step
  have again := step.next_of_end (sound_afterCalls source n) ended
  exact congrArg Prod.fst again

theorem call_of_end {n m : Nat} (handed : call source n = .ok token)
    (ended : token.kind = .endOfInput) (later : n ≤ m) : call source m = .ok token := by
  induction later with
  | refl => exact handed
  | step _ ih => exact call_succ_of_end ih ended

theorem suppliedIn_iff {n : Nat} (handed : call source n = .ok token) :
    token.SuppliedIn source ↔
      ∃ before, (afterCalls source n).statementEnd? = some before ∧ token = semicolonAfter before := by
  constructor
  · rintro ⟨kind, unwritten⟩
    cases hands_call source handed with
    | written written => exact absurd written unwritten
    | supplied before ends => exact ⟨before, ends, rfl⟩
    | ended ended =>
        rw [kind] at ended
        cases ended
  · rintro ⟨before, ends, rfl⟩
    refine ⟨rfl, fun written => ?_⟩
    have original := (placed_afterCalls source n).ending before ends
    have semicolon := original.kind_eq_semicolon written rfl rfl
    have ending := (Option.filter_eq_some_iff.mp ends).2
    rw [semicolon] at ending
    cases ending

theorem exists_written_between {i j : Nat} {first second : Token} (order : i < j)
    (handed : call source i = .ok first) (handed' : call source j = .ok second)
    (supplied : first.SuppliedIn source) (supplied' : second.SuppliedIn source) :
    ∃ k token, i < k ∧ k < j ∧ call source k = .ok token ∧ token.WrittenIn source := by
  obtain ⟨before, ends, -⟩ := (suppliedIn_iff handed').mp supplied'
  obtain ⟨m, latest⟩ := latest_of_last source (last_of_statementEnd? ends)
  have written := (placed_afterCalls source j).ending before ends
  refine ⟨m, before, ?_, latest.before, latest.handed, written⟩
  rcases lt_trichotomy i m with less | rfl | greater
  · exact less
  · cases handed.symm.trans latest.handed
    exact absurd written supplied.2
  · obtain ⟨error, failed, -⟩ := latest.since i greater order
    cases handed.symm.trans failed

/-- The lexer makes progress. It comes to the end of a source or to a fault within twice as many calls as
the source has bytes, and one more; it never hands out two supplied semicolons one right after the
other; and once it has handed out the end token, every later call hands out the same. -/
theorem makes_progress (source : Bytes) :
    (∃ n < 2 * source.length + 1, Final (call source n)) ∧
    (∀ n first second, call source n = .ok first → call source (n + 1) = .ok second →
      ¬ (first.SuppliedIn source ∧ second.SuppliedIn source)) ∧
    ∀ n m token, call source n = .ok token → token.kind = .endOfInput → n ≤ m →
      call source m = .ok token := by
  refine ⟨exists_final_call source, ?_, ?_⟩
  · rintro n first second handed handed' ⟨supplied, supplied'⟩
    obtain ⟨k, token, above, below, -⟩ :=
      exists_written_between n.lt_succ_self handed handed' supplied supplied'
    omega
  · intro n m token handed ended later
    exact call_of_end handed ended later

theorem makes_progress_sample :
    let source := Bytes.ofString "f() {x}"
    let x : Token := ⟨.identifier, "x", ⟨5, 1, 6⟩⟩
    let brace : Token := ⟨.closeBrace, "", ⟨6, 1, 7⟩⟩
    let closing : Token := ⟨.endOfInput, "", ⟨7, 1, 8⟩⟩
    (call source 5 = .ok (semicolonAfter x) ∧ call source 6 = .ok brace ∧
      call source 7 = .ok (semicolonAfter brace) ∧ call source 8 = .ok closing) ∧
    (∃ n < 15, Final (call source n)) ∧
    ¬ ((semicolonAfter x).SuppliedIn source ∧ brace.SuppliedIn source) ∧
    call source 1000000 = .ok closing := by
  intro source x brace closing
  have supplied : call source 5 = .ok (semicolonAfter x) := by decide +kernel
  have waiting : call source 6 = .ok brace := by decide +kernel
  have supplied' : call source 7 = .ok (semicolonAfter brace) := by decide +kernel
  have ended : call source 8 = .ok closing := by decide +kernel
  obtain ⟨bounded, apart, stays⟩ := makes_progress source
  exact ⟨⟨supplied, waiting, supplied', ended⟩, bounded,
    apart 5 (semicolonAfter x) brace supplied waiting,
    stays 8 1000000 closing ended rfl (by decide)⟩

end Lexer

end Koy
