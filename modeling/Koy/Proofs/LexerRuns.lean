import Koy.Proofs.TokenSequence

/-! Runs of the lexer. From any place it hands out tokens until it comes to the end token or to a
fault, and the list of all that is read from a source text is such a run. -/

namespace Koy.Lexer

/-- The lexer hands out these tokens, none of which is the end token, and is then another. -/
inductive Passes : Lexer → List Token → Lexer → Prop where
  | nil (lexer : Lexer) : Passes lexer [] lexer
  | cons {lexer middle after : Lexer} {token : Token} {tokens : List Token}
      (first : lexer.next = (.ok token, middle)) (proper : token.kind ≠ .endOfInput)
      (rest : Passes middle tokens after) : Passes lexer (token :: tokens) after

def Final : Except SyntaxError Token → Prop
  | .ok token => token.kind = .endOfInput
  | .error _ => True

variable {lexer middle after : Lexer} {tokens more : List Token}

theorem Passes.single {token : Token} (first : lexer.next = (.ok token, after))
    (proper : token.kind ≠ .endOfInput) : Passes lexer [token] after :=
  .cons first proper (.nil after)

theorem Passes.append (first : Passes lexer tokens middle) (second : Passes middle more after) :
    Passes lexer (tokens ++ more) after := by
  induction first with
  | nil => exact second
  | cons stepped proper _ ih => exact .cons stepped proper (ih second)

theorem Passes.length_le (passes : Passes lexer tokens after) :
    tokens.length + after.weight ≤ lexer.weight := by
  induction passes with
  | nil lexer => simp
  | cons stepped proper _ ih =>
      have lighter := (step_of_next _ _ _ stepped).weight_lt proper
      rw [List.length_cons]
      omega

theorem Passes.sound (passes : Passes lexer tokens after) (sound : lexer.Sound) : after.Sound := by
  induction passes with
  | nil => exact sound
  | cons stepped _ _ ih => exact ih (step_of_next _ _ _ stepped).sound

theorem Passes.proper (passes : Passes lexer tokens after) :
    ∀ token ∈ tokens, token.kind ≠ .endOfInput := by
  induction passes with
  | nil => exact nofun
  | cons _ proper _ ih => exact List.forall_mem_cons.mpr ⟨proper, ih⟩

theorem Passes.item_lt (passes : Passes lexer tokens after) (n : Nat) (inside : n < tokens.length) :
    lexer.item n = .ok tokens[n] := by
  induction passes generalizing n with
  | nil => simp at inside
  | cons stepped _ _ ih =>
      cases n with
      | zero => exact congrArg Prod.fst stepped
      | succ n =>
          rw [item_succ_of_ok stepped]
          exact ih n (by simpa using inside)

theorem Passes.item_add (passes : Passes lexer tokens after) (n : Nat) :
    lexer.item (tokens.length + n) = after.item n := by
  induction passes with
  | nil => simp
  | cons stepped _ _ ih => rw [List.length_cons, Nat.succ_add, item_succ_of_ok stepped, ih]

theorem Passes.item_of_le {token : Token} (passes : Passes lexer tokens after) (sound : lexer.Sound)
    (last : after.next.1 = .ok token) (ended : token.kind = .endOfInput) {n : Nat}
    (beyond : tokens.length ≤ n) : lexer.item n = .ok token := by
  obtain ⟨m, rfl⟩ := Nat.exists_eq_add_of_le beyond
  rw [passes.item_add, item_of_end (passes.sound sound) last ended]

theorem exists_passes (lexer : Lexer) : ∃ tokens after, Passes lexer tokens after ∧
    Final after.next.1 := by
  induction bound : lexer.weight using Nat.strongRecOn generalizing lexer with
  | _ bound ih =>
      subst bound
      cases stepped : lexer.next with
      | mk result middle =>
          cases result with
          | error error => exact ⟨[], lexer, .nil lexer, by rw [stepped]; trivial⟩
          | ok token =>
              by_cases ended : token.kind = .endOfInput
              · exact ⟨[], lexer, .nil lexer, by rw [stepped]; exact ended⟩
              · have lighter := (step_of_next lexer _ _ stepped).weight_lt ended
                obtain ⟨tokens, after, passes, final⟩ := ih middle.weight lighter middle rfl
                exact ⟨token :: tokens, after, .cons stepped ended passes, final⟩

theorem Passes.le_of_end (passes : Passes lexer tokens after) {m : Nat}
    (ended : Items.HasAt lexer.item m .endOfInput) : tokens.length ≤ m := by
  rcases Nat.lt_or_ge m tokens.length with inside | beyond
  · obtain ⟨token, found, is⟩ := ended
    rw [passes.item_lt m inside] at found
    cases found
    exact absurd is (passes.proper _ (List.getElem_mem inside))
  · exact beyond

theorem exists_passes_of_end {m : Nat} (ended : Items.HasAt lexer.item m .endOfInput) :
    ∃ tokens after token, Passes lexer tokens after ∧ after.next.1 = .ok token ∧
      token.kind = .endOfInput := by
  obtain ⟨tokens, after, passes, final⟩ := exists_passes lexer
  cases last : after.next.1 with
  | error error =>
      obtain ⟨n, rfl⟩ := Nat.exists_eq_add_of_le (passes.le_of_end ended)
      obtain ⟨token, found, -⟩ := ended
      rw [passes.item_add, item_of_error last] at found
      cases found
  | ok token =>
      rw [last] at final
      exact ⟨tokens, after, token, passes, last, final⟩

theorem readOn_of_passes (passes : Passes lexer tokens after) (final : Final after.next.1)
    (budget : Nat) (enough : tokens.length < budget) :
    readOn budget 0 lexer = tokens.map .ok ++ [after.next.1] := by
  induction passes generalizing budget with
  | nil lexer =>
      cases budget with
      | zero => cases enough
      | succ budget =>
          cases stepped : lexer.next with
          | mk result rest =>
              rw [stepped] at final
              cases result with
              | error error => simp only [readOn, stepped, List.map_nil, List.nil_append]
              | ok token =>
                  have ended : token.kind = .endOfInput := final
                  simp only [readOn, stepped, ended, if_true, List.map_nil, List.nil_append]
  | cons stepped proper _ ih =>
      cases budget with
      | zero => cases enough
      | succ budget =>
          have rest := ih final budget (by simpa using enough)
          simp only [readOn, stepped, if_neg proper, rest, List.map_cons, List.cons_append]

theorem readAll_of_passes {source : Bytes} (passes : Passes (ofSource source) tokens after)
    (final : Final after.next.1) : readAll source 0 = tokens.map .ok ++ [after.next.1] := by
  have short := passes.length_le
  have light := weight_ofSource_le source
  apply readOn_of_passes passes final
  omega

theorem readAll_eq_iff (source : Bytes) (tokens : List Token) (last : Except SyntaxError Token) :
    readAll source 0 = tokens.map .ok ++ [last] ↔
      ∃ after, Passes (ofSource source) tokens after ∧ after.next.1 = last ∧ Final last := by
  constructor
  · intro read
    obtain ⟨found, after, passes, final⟩ := exists_passes (ofSource source)
    rw [readAll_of_passes passes final] at read
    obtain ⟨same, end_same⟩ := List.append_inj' read rfl
    have tokens_same : found = tokens :=
      (List.map_inj_right fun _ _ => Except.ok.inj).mp same
    have last_same : after.next.1 = last := by simpa using end_same
    subst tokens_same last_same
    exact ⟨after, passes, rfl, final⟩
  · rintro ⟨after, passes, rfl, final⟩
    exact readAll_of_passes passes final

theorem mem_readAll_of_item {source : Bytes} {n : Nat} {token : Token}
    (found : (ofSource source).item n = .ok token) : .ok token ∈ readAll source 0 := by
  obtain ⟨tokens, after, passes, final⟩ := exists_passes (ofSource source)
  rw [readAll_of_passes passes final]
  by_cases inside : n < tokens.length
  · rw [passes.item_lt n inside] at found
    cases found
    exact List.mem_append_left _ (List.mem_map_of_mem (List.getElem_mem inside))
  · obtain ⟨m, rfl⟩ := Nat.exists_eq_add_of_le (Nat.le_of_not_lt inside)
    rw [passes.item_add] at found
    cases last : after.next.1 with
    | error error =>
        rw [item_of_error last] at found
        cases found
    | ok closing =>
        rw [last] at final
        rw [item_of_end (passes.sound (sound_of_free _ rfl)) last final] at found
        cases found
        simp

end Koy.Lexer
