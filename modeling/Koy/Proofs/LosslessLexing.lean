import Koy.Proofs.Places
import Koy.Proofs.SemicolonInsertion

/-! Reading tokens loses nothing. A source without a fault is the concatenation of what its tokens are
spelled with and of the gaps between them; the semicolons that are supplied take no part in it. -/

namespace Koy

namespace Token

def isSupplied (before : Option Token) (token : Token) : Bool :=
  token.kind = .semicolon && before.any fun before => before.position = token.position

/-- The tokens but for the supplied ones; `before` is handed out right before them. -/
def written (before : Option Token) : List Token → List Token
  | [] => []
  | token :: tokens =>
    if token.isSupplied before then written (some token) tokens
    else token :: written (some token) tokens

/-- Behind the text `before`, the text is made of these tokens, each spelled at its place, and of a gap
behind each. -/
inductive Tiles : (before : List Char) → List Token → (text : List Char) → Prop where
  | nil {before : List Char} : Tiles before [] []
  | cons {before span gap text : List Char} {token : Token} {tokens : List Token}
      (spells : Lexeme.Spells span token.kind token.lexeme)
      (place : token.position = .behind before) (blank : Trivia.IsGap text gap)
      (more : Tiles (before ++ (span ++ gap)) tokens text) :
      Tiles before (token :: tokens) (span ++ (gap ++ text))

variable {before : Option Token} {token : Token}

theorem isSupplied_of_further
    (further : ∀ other ∈ before, other.position.offset < token.position.offset) :
    token.isSupplied before = false := by
  cases before with
  | none => exact Bool.and_false _
  | some other =>
      have apart : other.position ≠ token.position := fun same =>
        (further other rfl).ne (congrArg Position.offset same)
      simp [isSupplied, apart]

theorem written_cons_of_further (tokens : List Token)
    (further : ∀ other ∈ before, other.position.offset < token.position.offset) :
    written before (token :: tokens) = token :: written (some token) tokens := by
  rw [written, isSupplied_of_further further, if_neg Bool.false_ne_true]

theorem written_after (opened : List TokenKind) (token : Token) (gap : List Char)
    (next : Option TokenKind) (tokens : List Token) :
    ∃ last : Token, last.position = token.position ∧
      written (some token) (Semicolons.after opened token gap next ++ tokens) =
        written (some last) tokens := by
  unfold Semicolons.after
  split
  · refine ⟨{ kind := .semicolon, position := token.position }, rfl, ?_⟩
    rw [List.singleton_append, written, isSupplied]
    simp
  · exact ⟨token, rfl, rfl⟩

end Token

open Semicolons in
theorem Divides.tiles {text : List Char} {pieces : List Piece} (divides : Divides text pieces)
    (opened : List TokenKind) (lead : List Char) (before : Option Token)
    (further : ∀ other ∈ before, other.position.offset < (Position.behind lead).offset) :
    Token.Tiles lead (Token.written before (supply opened (.behind lead) pieces)) text := by
  -- What is handed out before a piece may be the semicolon of the piece before, at the same place.
  induction divides generalizing opened lead before with
  | nil => exact .nil
  | @cons piece rest pieces spells _ gap _ ih =>
      let token : Token := ⟨piece.kind, piece.lexeme, .behind lead⟩
      have onward : (Position.behind lead).offset <
          (Position.behind (lead ++ (piece.span ++ piece.gap))).offset := by
        have positive := Bytes.length_ofChars_pos spells.ne_nil
        rw [Position.offset_behind_append, Bytes.ofChars_append, List.length_append]
        omega
      obtain ⟨last, here, dropped⟩ := Token.written_after (openAfter opened piece.kind) token
        piece.gap (pieces.head?.map Piece.kind)
        (supply (openAfter opened piece.kind)
          ((Position.behind lead).afterAll (piece.span ++ piece.gap)) pieces)
      have more := ih (openAfter opened piece.kind) (lead ++ (piece.span ++ piece.gap)) (some last)
        (by rintro _ ⟨⟩; rw [here]; exact onward)
      rw [Position.behind_append, ← dropped] at more
      rw [supply, Token.written_cons_of_further _ further]
      exact .cons spells rfl gap.holds more

/-- Reading tokens loses nothing. A source without a fault is a gap and then its tokens up to the end,
supplied semicolons left out, each spelled at its place and with a gap behind it. -/
theorem Lexer.tokens_lossless (source : Bytes)
    (faultless : ∀ error, .error error ∉ Lexer.readAll source 0) :
    ∃ tokens lead text, source = Bytes.ofChars (lead ++ text) ∧
      Lexer.readAll source 0 =
        (tokens ++ [(⟨.endOfInput, "", .behind (lead ++ text)⟩ : Token)]).map .ok ∧
      Trivia.IsGap text lead ∧ Token.Tiles lead (Token.written none tokens) text := by
  obtain ⟨text, newline, pieces, decoded, passed, scanned, read⟩ :=
    Lexer.readAll_of_faultless faultless
  obtain ⟨rest, shape, longest, divides⟩ := (Cut.of_iff passed scanned _).mpr rfl
  generalize (Trivia.scan (text.map .char)).span = lead at shape longest read
  subst shape
  rw [Cut.tokens, Position.start_afterAll, Position.start_afterAll] at read
  exact ⟨_, lead, rest, decoded, read, longest.holds, divides.tiles [] lead none nofun⟩

def commentedSample : Bytes :=
  Bytes.ofString "// π\nlet s = \"a\\n\" /* s */\n\x7b s \x7d"

theorem Lexer.tokens_lossless_sample :
    (∀ error, .error error ∉ Lexer.readAll commentedSample 0) ∧
      ∃ tokens lead text, commentedSample = Bytes.ofChars (lead ++ text) ∧
        Lexer.readAll commentedSample 0 =
          (tokens ++ [(⟨.endOfInput, "", .behind (lead ++ text)⟩ : Token)]).map .ok ∧
        Trivia.IsGap text lead ∧ Token.Tiles lead (Token.written none tokens) text := by
  have clean : (Lexer.readAll commentedSample 0).all Except.isOk = true := by decide +kernel
  have faultless : ∀ error, .error error ∉ Lexer.readAll commentedSample 0 := by
    intro error member
    exact absurd (List.all_eq_true.mp clean _ member) Bool.false_ne_true
  exact ⟨faultless, Lexer.tokens_lossless commentedSample faultless⟩

end Koy
