import Koy.Proofs.SourceTokens
import Koy.Proofs.Words

/-! Each token of a source text is spelled in it, or supplied by the lexer. What counts as a name is
spelled like one. -/

namespace Koy

def Token.Named (token : Token) : Prop :=
  token.kind = .identifier → printableName token.lexeme = true

theorem TokenKind.keyword?_of_identifier {word : String}
    (named : (keyword? word).getD .identifier = .identifier) : keyword? word = none := by
  cases found : keyword? word with
  | none => rfl
  | some kind =>
      rw [found, Option.getD_some] at named
      subst named
      unfold keyword? at found
      split at found <;> cases found

/-- A token of a source text is spelled in it, or it is a semicolon, a closing brace or the end. -/
def Token.Sourced (token : Token) : Prop :=
  token.kind = .semicolon ∨ token.kind = .closeBrace ∨ token.kind = .endOfInput ∨
    ∃ span, Lexeme.Spells span token.kind token.lexeme

theorem Lexeme.Spells.named {span : List Char} {kind : TokenKind} {lexeme : String}
    (spells : Spells span kind lexeme) (named : kind = .identifier) :
    printableName lexeme = true := by
  cases spells with
  | name starts continues =>
      have other := TokenKind.keyword?_of_identifier named
      rw [printableName, other, Lexeme.isName, String.toList_ofList]
      simp [starts, continues]
  | number | text => cases named
  | sign listed =>
      subst named
      revert listed
      decide

theorem Token.Sourced.named {token : Token} (sourced : token.Sourced) : token.Named := by
  intro named
  rcases sourced with semicolon | brace | ended | ⟨span, spells⟩
  · simp [named] at semicolon
  · simp [named] at brace
  · simp [named] at ended
  · exact spells.named named

namespace Lexer

theorem Step.sourced {lexer after : Lexer} {token : Token} (step : Step lexer (.ok token) after)
    (sound : lexer.Sound) : token.Sourced := by
  cases step with
  | held _ waiting => exact .inr (.inl (sound token waiting))
  | lineEnd | blockEnd => exact .inl rfl
  | token newline kind lexeme free passed quiet read plain =>
      by_cases ended : kind = .endOfInput
      · exact .inr (.inr (.inl ended))
      · exact .inr (.inr (.inr ⟨_, Lexeme.spells_of_scan _ _ _ read ended⟩))

theorem item_sourced {lexer : Lexer} (sound : lexer.Sound) {n : Nat} {token : Token}
    (found : lexer.item n = .ok token) : token.Sourced := by
  induction n generalizing lexer with
  | zero => exact (step_of_next lexer _ _ (Prod.ext found rfl)).sourced sound
  | succ n ih =>
      rw [item] at found
      split at found
      · rename_i first rest stepped
        exact ih (step_of_next lexer _ _ stepped).sound found
      · cases found

theorem sourced_of_source (source : Bytes) (n : Nat) (token : Token)
    (found : (ofSource source).item n = .ok token) : token.Sourced :=
  item_sourced (sound_of_free _ rfl) found

theorem named_of_source (source : Bytes) (n : Nat) (token : Token)
    (found : (ofSource source).item n = .ok token) : token.Named :=
  (sourced_of_source source n token found).named

end Lexer

end Koy
