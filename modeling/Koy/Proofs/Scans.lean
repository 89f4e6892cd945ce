import Koy.Token.Lexeme
import Koy.Token.Trivia

/-! What a scan passes over. Every scan, also a failed one, splits its text into the characters
passed over and the text after them, and a token that is read takes at least one character. -/

namespace Koy

namespace Scan

variable {α β : Type}

/-- The scan splits the text into the span and the rest. -/
def Splits (scan : Scan α) (text : List Glyph) : Prop :=
  text = scan.span.map .char ++ scan.rest

theorem splits_nil (result : Except LexicalFault α) (text : List Glyph) :
    Splits ⟨result, [], text⟩ text := rfl

theorem Splits.behind {scan : Scan α} {text : List Glyph} (split : scan.Splits text)
    (passed : List Char) : (scan.behind passed).Splits (passed.map .char ++ text) := by
  rw [Splits, Scan.behind, List.map_append, List.append_assoc, ← split]

theorem Splits.map {scan : Scan α} {text : List Glyph} (split : scan.Splits text) (f : α → β) :
    (scan.map f).Splits text :=
  split

theorem Splits.length_rest {scan : Scan α} {text : List Glyph} (split : scan.Splits text) :
    scan.span.length + scan.rest.length = text.length := by
  have lengths := congrArg List.length split
  simpa using lengths.symm

@[simp] theorem behind_result (passed : List Char) (scan : Scan α) :
    (scan.behind passed).result = scan.result := rfl

@[simp] theorem behind_span (passed : List Char) (scan : Scan α) :
    (scan.behind passed).span = passed ++ scan.span := rfl

theorem behind_behind (scan : Scan α) (first second : List Char) :
    (scan.behind second).behind first = scan.behind (first ++ second) := by
  simp [Scan.behind]

end Scan

theorem Trivia.scanFrom_splits (mode : Mode) (newline : Bool) (text : List Glyph) :
    (scanFrom mode newline text).Splits text := by
  fun_induction scanFrom mode newline text with
  | case1 | case2 | case3 | case4 | case8 => exact Scan.splits_nil _ _
  | case5 newline rest ih => exact ih.behind ['/', '/']
  | case6 newline rest ih => exact ih.behind ['/', '*']
  | case7 _ c _ _ _ _ ih => exact ih.behind [c]
  | case9 _ rest ih => exact ih.behind ['\n']
  | case10 _ c _ _ ih => exact ih.behind [c]
  | case11 newline rest ih => exact ih.behind ['*', '/']
  | case12 _ c _ _ ih => exact ih.behind [c]

theorem Trivia.scan_splits (text : List Glyph) : (scan text).Splits text :=
  scanFrom_splits .plain false text

namespace Lexeme

theorem run_splits (p : Char → Bool) (text : List Glyph) :
    text = (run p text).1.map .char ++ (run p text).2 := by
  fun_induction run p text with
  | case1 c rest holds taken left ran ih =>
      rw [ran] at ih
      rw [List.map_cons, List.cons_append, ← ih]
  | case2 c rest fails => rfl
  | case3 text other => rfl

theorem text_splits (content : List Glyph) : (text content).Splits content := by
  fun_induction text content with
  | case1 | case2 => exact Scan.splits_nil _ _
  | case3 rest => rfl
  | case4 => rfl
  | case5 byte rest => rfl
  | case6 c rest ih => exact (ih.map _).behind ['\\', c]
  | case7 => rfl
  | case8 c rest _ _ _ _ _ ih => exact (ih.map _).behind [c]

theorem name_splits (first : Char) (following : List Glyph) :
    (name first following).Splits (.char first :: following) := by
  have split := run_splits continuesName following
  simp only [Scan.Splits, name, List.map_cons, List.cons_append]
  rw [← split]

theorem number_splits (first : Char) (following : List Glyph) :
    (number first following).Splits (.char first :: following) := by
  have split := run_splits Text.isDecimalDigit following
  unfold number
  generalize run Text.isDecimalDigit following = parts at split
  obtain ⟨more, rest⟩ := parts
  subst split
  dsimp only
  split
  · split <;> simp [Scan.Splits]
  · simp [Scan.Splits]

theorem symbol_splits (first : Char) (following : List Glyph) :
    (symbol first following).Splits (.char first :: following) := by
  unfold symbol
  split <;> simp [Scan.Splits]

theorem scan_splits (content : List Glyph) : (scan content).Splits content := by
  cases content with
  | nil => rfl
  | cons glyph rest =>
      cases glyph with
      | stray byte => rfl
      | char c =>
          rw [scan]
          split
          · exact name_splits c rest
          · split
            · exact number_splits c rest
            · split
              · exact ((text_splits rest).map _).behind [c]
              · exact symbol_splits c rest

theorem keyword_ne_endOfInput (word : String) :
    (TokenKind.keyword? word).getD .identifier ≠ .endOfInput := by
  unfold TokenKind.keyword?
  split <;> simp

theorem sign_ne_endOfInput (first : Char) (second : Option Char) (wide : Bool) :
    sign first second ≠ .ok (.endOfInput, wide) := by
  unfold sign
  split <;> simp

theorem symbol_ne_endOfInput (first : Char) (following : List Glyph) (lexeme : String) :
    (symbol first following).result ≠ .ok (.endOfInput, lexeme) := by
  have never := sign_ne_endOfInput first (Glyph.firstChar? following)
  unfold symbol
  split
  · rename_i kind _ _ found
    intro read
    cases read
    exact never true found
  · rename_i kind wide _ found
    intro read
    cases read
    exact never wide found
  · exact fun read => nomatch read

theorem number_ne_endOfInput (first : Char) (following : List Glyph) (lexeme : String) :
    (number first following).result ≠ .ok (.endOfInput, lexeme) := by
  unfold number
  dsimp only
  split
  · split <;> exact fun read => nomatch read
  · exact fun read => nomatch read

theorem eq_nil_of_scan_endOfInput (content : List Glyph) (lexeme : String)
    (read : (scan content).result = .ok (.endOfInput, lexeme)) : content = [] := by
  cases content with
  | nil => rfl
  | cons glyph rest =>
      cases glyph with
      | stray byte => cases read
      | char c =>
          rw [scan] at read
          split at read
          · have kind := congrArg (Except.map Prod.fst) read
            exact absurd (Except.ok.inj kind) (keyword_ne_endOfInput _)
          · split at read
            · exact absurd read (number_ne_endOfInput c rest lexeme)
            · split at read
              · cases result : (text rest).result with
                | ok content => simp [Scan.map, result, Except.map] at read
                | error fault => simp [Scan.map, result, Except.map] at read
              · exact absurd read (symbol_ne_endOfInput c rest lexeme)

theorem span_ne_nil (c : Char) (rest : List Glyph) : (scan (.char c :: rest)).span ≠ [] := by
  rw [scan]
  split
  · simp [name]
  · split
    · unfold number
      dsimp only
      split
      · split <;> simp
      · simp
    · split
      · simp
      · unfold symbol
        split <;> simp

theorem rest_lt_of_scan (content : List Glyph) (kind : TokenKind) (lexeme : String)
    (read : (scan content).result = .ok (kind, lexeme)) (token : kind ≠ .endOfInput) :
    (scan content).rest.length < content.length := by
  have split := (scan_splits content).length_rest
  have positive : 0 < (scan content).span.length := by
    cases content with
    | nil =>
        cases read
        exact absurd rfl token
    | cons glyph rest =>
        cases glyph with
        | stray byte => cases read
        | char c => exact List.length_pos_iff.mpr (span_ne_nil c rest)
  omega

theorem run_all (p : Char → Bool) (taken rest : List Char) (all : taken.all p = true)
    (stops : ∀ c, rest.head? = some c → p c = false) :
    run p ((taken ++ rest).map .char) = (taken, rest.map .char) := by
  induction taken with
  | nil =>
      cases rest with
      | nil => rfl
      | cons c rest =>
          have stop := stops c rfl
          simp [run, stop]
  | cons c taken ih =>
      rw [List.all_cons, Bool.and_eq_true] at all
      rw [List.cons_append, List.map_cons, run, if_pos all.1, ih all.2]

end Lexeme

end Koy
