import Koy.Proofs.WordLexing

/-! Source text as written tokens and the gaps between them. What a gap is and what spells a token
is said here without a scanner, and a text is cut from its start on: the longest gap, then the
longest token, and so on. Where the scanners find no fault they cut the text in this way, and there
is no other way to cut it. -/

namespace Koy

/-- Of all beginnings of a text that have a property, which may depend on what is left of the text,
this is the longest. -/
structure IsLongest (property : List Char → List Char → Prop) (first left : List Char) : Prop where
  holds : property left first
  longest (other rest : List Char) (same : other ++ rest = first ++ left)
    (held : property rest other) : other.length ≤ first.length

theorem IsLongest.unique {property : List Char → List Char → Prop}
    {first left other rest : List Char} (is : IsLongest property first left)
    (also : IsLongest property other rest) (same : first ++ left = other ++ rest) :
    first = other ∧ left = rest := by
  apply List.append_inj same
  apply Nat.le_antisymm
  · exact also.longest first left same is.holds
  · exact is.longest other rest same.symm also.holds

theorem Scan.Splits.exists_left {α : Type} {scan : Scan α} {text : List Char}
    (split : scan.Splits (text.map .char)) :
    ∃ left : List Char, scan.rest = left.map .char ∧ text = scan.span ++ left := by
  obtain ⟨first, left, shape, spanned, rest⟩ := List.map_eq_append_iff.mp split
  have same : first = scan.span := (List.map_inj_right fun _ _ => Glyph.char.inj).mp spanned
  exact ⟨left, rest.symm, same ▸ shape⟩

namespace Trivia

def CommentBody (body : List Char) : Prop :=
  ¬ ['*', '/'] <:+: body ++ ['*']

/-- White space and comments before the text that is left. Only where nothing is left may a line
comment lack its line end. -/
inductive IsGap (left : List Char) : List Char → Prop where
  | nil : IsGap left []
  | blank {c : Char} {gap : List Char} (blank : Text.isBlank c = true) (more : IsGap left gap) :
      IsGap left (c :: gap)
  | line {body gap : List Char} (inside : '\n' ∉ body) (more : IsGap left gap) :
      IsGap left ('/' :: '/' :: body ++ '\n' :: gap)
  | lastLine {body : List Char} (inside : '\n' ∉ body) (nothing : left = []) :
      IsGap left ('/' :: '/' :: body)
  | block {body gap : List Char} (inside : CommentBody body) (more : IsGap left gap) :
      IsGap left ('/' :: '*' :: body ++ '*' :: '/' :: gap)

theorem commentBody_nil : CommentBody [] := by
  unfold CommentBody
  decide

theorem commentBody_cons (c : Char) (body : List Char) :
    CommentBody (c :: body) ↔ (c = '*' → body.head? ≠ some '/') ∧ CommentBody body := by
  have head : ['*', '/'] <+: c :: (body ++ ['*']) ↔ c = '*' ∧ body.head? = some '/' := by
    cases body with
    | nil => simp
    | cons d body => simp [eq_comm]
  unfold CommentBody
  rw [List.cons_append, List.infix_cons_iff, head, not_or, not_and]

/-! Gaps are passed over. -/

theorem scanFrom_lineBody (newline : Bool) (body : List Char) (rest : List Glyph)
    (inside : '\n' ∉ body) :
    scanFrom .line newline (body.map .char ++ rest) = (scanFrom .line newline rest).behind body := by
  induction body with
  | nil => rfl
  | cons c body ih =>
      rw [List.mem_cons, not_or] at inside
      have other : c ≠ '\n' := fun here => inside.1 here.symm
      rw [List.map_cons, List.cons_append, scanFrom, if_neg other, ih inside.2]
      rfl

theorem scanFrom_commentBody (newline : Bool) (body : List Char) (rest : List Glyph)
    (inside : CommentBody body) : ∃ newline',
      scanFrom .block newline (body.map .char ++ .char '*' :: .char '/' :: rest) =
        (scanFrom .plain newline' rest).behind (body ++ ['*', '/']) := by
  induction body generalizing newline with
  | nil => exact ⟨newline, rfl⟩
  | cons c body ih =>
      obtain ⟨first, inside⟩ := (commentBody_cons c body).mp inside
      obtain ⟨newline', scanned⟩ := ih (newline || c == '\n') inside
      exists newline'
      rw [List.map_cons, List.cons_append, scanFrom, scanned]
      · rfl
      · intro left shape star
        cases body with
        | nil => cases shape
        | cons d body =>
            cases shape
            exact first star rfl

theorem isBlank_slash : Text.isBlank '/' = false := by decide

theorem scanFrom_gap (newline : Bool) (gap left : List Char) (isGap : IsGap left gap) :
    ∃ newline', scanFrom .plain newline ((gap ++ left).map .char) =
      (scanFrom .plain newline' (left.map .char)).behind gap := by
  induction isGap generalizing newline with
  | nil => exact ⟨newline, rfl⟩
  | @blank c gap blank _ ih =>
      have other : c ≠ '/' := by
        rintro rfl
        rw [isBlank_slash] at blank
        cases blank
      obtain ⟨newline', scanned⟩ := ih (newline || c == '\n')
      exists newline'
      rw [List.cons_append, List.map_cons, scanFrom, if_pos blank, scanned]
      · rfl
      · exact fun _ _ here => other here
      · exact fun _ _ here => other here
  | @line body gap inside _ ih =>
      obtain ⟨newline', scanned⟩ := ih true
      exists newline'
      simp only [List.cons_append, List.append_assoc, List.map_cons, List.map_append] at scanned ⊢
      rw [scanFrom, scanFrom_lineBody newline body _ inside, scanFrom, if_pos rfl, scanned]
      simp [Scan.behind_behind]
  | @lastLine body inside nothing =>
      exists true
      have passed := scanFrom_lineBody newline body [] inside
      rw [List.append_nil] at passed
      rw [nothing, List.append_nil, List.map_cons, List.map_cons, scanFrom.eq_5, passed]
      rfl
  | @block body gap inside _ ih =>
      obtain ⟨newline', passed⟩ := scanFrom_commentBody newline body ((gap ++ left).map .char) inside
      obtain ⟨newline'', scanned⟩ := ih newline'
      exists newline''
      simp only [List.cons_append, List.append_assoc, List.map_cons, List.map_append] at passed scanned ⊢
      rw [scanFrom, passed, scanned]
      simp [Scan.behind_behind]

/-! What is passed over is a gap. -/

def Passed (left : List Char) : Mode → List Char → Prop
  | .plain, span => IsGap left span
  | .line, span => ('\n' ∉ span ∧ left = []) ∨
      ∃ body gap, span = body ++ '\n' :: gap ∧ '\n' ∉ body ∧ IsGap left gap
  | .block, span => ∃ body gap, span = body ++ '*' :: '/' :: gap ∧ CommentBody body ∧ IsGap left gap

theorem passed_of_scanFrom (mode : Mode) (newline ended : Bool) (text : List Glyph)
    (left : List Char) (scanned : (scanFrom mode newline text).result = .ok ended)
    (rest : (scanFrom mode newline text).rest = left.map .char) :
    Passed left mode (scanFrom mode newline text).span := by
  -- The text ends (1 to 4), a comment opens (5, 6), white space and its end (7, 8), the inside of a
  -- line comment (9, 10) and of a block comment (11, 12).
  fun_induction scanFrom mode newline text with
  | case1 newline => exact .nil
  | case2 newline =>
      have nothing : left = [] := by simpa using rest.symm
      exact .inl ⟨List.not_mem_nil, nothing⟩
  | case3 | case4 => cases scanned
  | case5 newline text ih =>
      rcases ih scanned rest with ⟨inside, nothing⟩ | ⟨body, gap, shape, inside, more⟩
      · exact .lastLine inside nothing
      · rw [Scan.behind_span, shape]
        exact .line inside more
  | case6 newline text ih =>
      obtain ⟨body, gap, shape, inside, more⟩ := ih scanned rest
      rw [Scan.behind_span, shape]
      exact .block inside more
  | case7 newline c text _ _ blank ih => exact .blank blank (ih scanned rest)
  | case8 newline c text _ _ solid => exact .nil
  | case9 newline text ih =>
      exact .inr ⟨[], _, rfl, List.not_mem_nil, ih scanned rest⟩
  | case10 newline c text other ih =>
      have fresh (body : List Char) (inside : '\n' ∉ body) : '\n' ∉ c :: body := by
        rw [List.mem_cons, not_or]
        exact ⟨fun here => other here.symm, inside⟩
      rcases ih scanned rest with ⟨inside, nothing⟩ | ⟨body, gap, shape, inside, more⟩
      · exact .inl ⟨fresh _ inside, nothing⟩
      · right
        rw [Scan.behind_span, shape]
        exact ⟨c :: body, gap, rfl, fresh body inside, more⟩
  | case11 newline text ih =>
      exact ⟨[], _, rfl, commentBody_nil, ih scanned rest⟩
  | case12 newline c text other ih =>
      obtain ⟨body, gap, shape, inside, more⟩ := ih scanned rest
      have split := scanFrom_splits .block (newline || c == '\n') text
      rw [Scan.behind_span, shape]
      refine ⟨c :: body, gap, rfl, (commentBody_cons c body).mpr ⟨?_, inside⟩, more⟩
      -- A slash right behind this star would have closed the comment.
      intro star slash
      cases body with
      | nil => cases slash
      | cons d body =>
          cases slash
          rw [Scan.Splits, shape] at split
          exact other _ split star

theorem isLongest_of_scan (text : List Glyph) (newline : Bool) (left : List Char)
    (passed : (scan text).result = .ok newline) (rest : (scan text).rest = left.map .char) :
    IsLongest IsGap (scan text).span left := by
  constructor
  · exact passed_of_scanFrom .plain false newline text left passed rest
  · intro other left' same isGap
    have whole : text = (other ++ left').map .char := by
      rw [same, List.map_append, ← rest]
      exact scan_splits text
    obtain ⟨newline', scanned⟩ := scanFrom_gap false other left' isGap
    rw [scan, whole, scanned, Scan.behind_span, List.length_append]
    exact Nat.le_add_right _ _

theorem scan_of_isLongest {gap left : List Char} {newline : Bool} (longest : IsLongest IsGap gap left)
    (passed : (scan ((gap ++ left).map .char)).result = .ok newline) :
    (scan ((gap ++ left).map .char)).span = gap ∧
      (scan ((gap ++ left).map .char)).rest = left.map .char := by
  obtain ⟨rest, rest_eq, whole⟩ := (scan_splits ((gap ++ left).map .char)).exists_left
  have scanned := isLongest_of_scan _ newline rest passed rest_eq
  obtain ⟨gap_eq, left_eq⟩ := longest.unique scanned whole
  rw [rest_eq, ← left_eq]
  exact ⟨gap_eq.symm, rfl⟩

theorem scanFrom_rest (mode : Mode) (newline ended again : Bool) (text : List Glyph)
    (passed : (scanFrom mode newline text).result = .ok ended) :
    scanFrom .plain again (scanFrom mode newline text).rest =
      ⟨.ok again, [], (scanFrom mode newline text).rest⟩ := by
  fun_induction scanFrom mode newline text with
  | case1 | case2 => rfl
  | case3 | case4 => cases passed
  | case8 newline c rest line block solid =>
      rw [scanFrom, if_neg solid]
      · exact line
      · exact block
  | case5 _ _ ih | case6 _ _ ih | case9 _ _ ih | case11 _ _ ih => exact ih passed
  | case7 _ _ _ _ _ _ ih => exact ih passed
  | case10 _ _ _ _ ih | case12 _ _ _ _ ih => exact ih passed

theorem lineEnd_cons (newline : Bool) (c : Char) (span : List Char) :
    (newline || c == '\n' || decide ('\n' ∈ span)) = (newline || decide ('\n' ∈ [c] ++ span)) := by
  by_cases here : c = '\n'
  · simp [here]
  · have other : (c == '\n') = false := by simp [here]
    simp [other, Ne.symm here]

theorem mem_of_scanFrom (mode : Mode) (newline ended : Bool) (text : List Glyph)
    (scanned : (scanFrom mode newline text).result = .ok ended)
    (present : (scanFrom mode newline text).rest ≠ []) :
    ended = (newline || decide ('\n' ∈ (scanFrom mode newline text).span)) := by
  fun_induction scanFrom mode newline text with
  | case1 | case2 => exact absurd rfl present
  | case3 | case4 => cases scanned
  | case8 newline c text _ _ solid =>
      cases scanned
      simp
  | case5 newline text ih => simpa using ih scanned present
  | case6 newline text ih => simpa using ih scanned present
  | case7 newline c text _ _ _ ih => rw [ih scanned present, Scan.behind_span, lineEnd_cons]
  | case9 newline text ih =>
      rw [ih scanned present, Scan.behind_span]
      simp
  | case10 newline c text other ih =>
      rw [ih scanned present, Scan.behind_span]
      simp [Ne.symm other]
  | case11 newline text ih => simpa using ih scanned present
  | case12 newline c text _ ih => rw [ih scanned present, Scan.behind_span, lineEnd_cons]

end Trivia

namespace Lexeme

/-- The inside of a text literal as it is written, and the content it stands for. -/
inductive TextBody : List Char → List Char → Prop where
  | nil : TextBody [] []
  | plain {c : Char} {written content : List Char} (unquoted : c ≠ '"') (bare : c ≠ '\\')
      (sameLine : c ≠ '\n') (more : TextBody written content) :
      TextBody (c :: written) (c :: content)
  | escape {c : Char} {written content : List Char} (more : TextBody written content) :
      TextBody ('\\' :: c :: written) (unescape c :: content)

def signs : List TokenKind :=
  [.assign, .equal, .notEqual, .plus, .minus, .increment, .decrement, .times, .slash, .percent,
   .less, .lessEqual, .greater, .greaterEqual, .andAnd, .orOr, .comma, .semicolon, .colon,
   .openParen, .closeParen, .openBrace, .closeBrace, .openBracket, .closeBracket, .openSet,
   .openMap]

inductive Spells : List Char → TokenKind → String → Prop where
  | name {c : Char} {more : List Char} (starts : startsName c = true)
      (continues : more.all continuesName = true) :
      Spells (c :: more) ((TokenKind.keyword? (String.ofList (c :: more))).getD .identifier)
        (String.ofList (c :: more))
  | number {c : Char} {more : List Char} (unnamed : startsName c = false)
      (digit : Text.isDecimalDigit c = true) (digits : more.all Text.isDecimalDigit = true) :
      Spells (c :: more) .number (String.ofList (c :: more))
  | text {written content : List Char} (body : TextBody written content) :
      Spells ('"' :: written ++ ['"']) .text (String.ofList content)
  | sign {kind : TokenKind} (listed : kind ∈ signs) : Spells kind.name.toList kind ""

def IsToken (_left span : List Char) : Prop :=
  ∃ kind lexeme, Spells span kind lexeme

theorem run_all_of_mem (p : Char → Bool) (text : List Glyph) : (run p text).1.all p = true := by
  fun_induction run p text with
  | case1 c rest holds taken left ran ih =>
      rw [ran] at ih
      simp [holds, ih]
  | case2 | case3 => rfl

theorem run_append_of_all (p : Char → Bool) (taken : List Char) (text : List Glyph)
    (all : taken.all p = true) :
    run p (taken.map .char ++ text) = (taken ++ (run p text).1, (run p text).2) := by
  induction taken with
  | nil => rfl
  | cons c taken ih =>
      rw [List.all_cons, Bool.and_eq_true] at all
      rw [List.map_cons, List.cons_append, run, if_pos all.1, ih all.2]
      rfl

/-! What is read as a token spells it. -/

theorem textBody_of_text (content : List Glyph) (chars : List Char)
    (read : (text content).result = .ok chars) :
    ∃ written, (text content).span = written ++ ['"'] ∧ TextBody written chars := by
  fun_induction text content generalizing chars with
  | case1 | case2 | case4 | case5 | case7 => cases read
  | case3 rest =>
      cases read
      exact ⟨[], rfl, .nil⟩
  | case6 c rest ih =>
      cases inner : (text rest).result with
      | error fault => simp [Scan.map, inner, Except.map] at read
      | ok more =>
          obtain ⟨written, shape, body⟩ := ih more inner
          simp only [Scan.map, inner, Except.map, Scan.behind, Except.ok.injEq] at read ⊢
          subst read
          exact ⟨'\\' :: c :: written, by simp [shape], .escape body⟩
  | case8 c rest quote last stray escape other ih =>
      have bare : c ≠ '\\' := by
        cases rest with
        | nil => exact last rfl
        | cons glyph rest =>
            cases glyph with
            | char d => exact escape d rest rfl
            | stray byte => exact stray byte rest rfl
      cases inner : (text rest).result with
      | error fault => simp [Scan.map, inner, Except.map] at read
      | ok more =>
          obtain ⟨written, shape, body⟩ := ih more inner
          simp only [Scan.map, inner, Except.map, Scan.behind, Except.ok.injEq] at read ⊢
          subst read
          exact ⟨c :: written, by simp [shape], .plain quote bare other body⟩

theorem spelling_of_narrow (first : Char) (second : Option Char) (kind : TokenKind)
    (found : sign first second = .ok (kind, false)) :
    kind ∈ signs ∧ kind.name.toList = [first] := by
  unfold sign at found
  split at found <;> cases found <;> decide

theorem spelling_of_wide (first : Char) (second : Option Char) (kind : TokenKind)
    (found : sign first second = .ok (kind, true)) :
    ∃ d, second = some d ∧ kind ∈ signs ∧ kind.name.toList = [first, d] := by
  unfold sign at found
  split at found <;> cases found <;> exact ⟨_, rfl, by decide, rfl⟩

theorem symbol_narrow (first : Char) (following : List Glyph) (kind : TokenKind)
    (found : sign first (Glyph.firstChar? following) = .ok (kind, false)) :
    symbol first following = ⟨.ok (kind, ""), [first], following⟩ := by
  simp only [symbol, found]

theorem symbol_wide (first second : Char) (rest : List Glyph) (kind : TokenKind)
    (found : sign first (some second) = .ok (kind, true)) :
    symbol first (.char second :: rest) = ⟨.ok (kind, ""), [first, second], rest⟩ := by
  have seen : Glyph.firstChar? (.char second :: rest) = some second := rfl
  simp only [symbol, seen, found]

theorem eq_cons_of_firstChar? {text : List Glyph} {c : Char}
    (seen : Glyph.firstChar? text = some c) : ∃ rest, text = .char c :: rest := by
  unfold Glyph.firstChar? at seen
  split at seen
  · cases seen
    exact ⟨_, rfl⟩
  · cases seen

theorem spells_of_symbol (first : Char) (following : List Glyph) (kind : TokenKind)
    (lexeme : String) (read : (symbol first following).result = .ok (kind, lexeme)) :
    Spells (symbol first following).span kind lexeme := by
  cases found : sign first (Glyph.firstChar? following) with
  | error fault => simp [symbol, found] at read
  | ok pair =>
      obtain ⟨sort, wide⟩ := pair
      cases wide with
      | false =>
          obtain ⟨listed, spelling⟩ := spelling_of_narrow _ _ _ found
          rw [symbol_narrow first following sort found] at read ⊢
          cases read
          rw [← spelling]
          exact .sign listed
      | true =>
          obtain ⟨second, seen, listed, spelling⟩ := spelling_of_wide _ _ _ found
          obtain ⟨rest, rfl⟩ := eq_cons_of_firstChar? seen
          rw [symbol_wide first second rest sort found] at read ⊢
          cases read
          rw [← spelling]
          exact .sign listed

theorem spells_of_name (first : Char) (following : List Glyph) (kind : TokenKind)
    (lexeme : String) (starts : startsName first = true)
    (read : (name first following).result = .ok (kind, lexeme)) :
    Spells (name first following).span kind lexeme := by
  cases read
  exact .name starts (run_all_of_mem continuesName following)

theorem spells_of_number (first : Char) (following : List Glyph) (kind : TokenKind)
    (lexeme : String) (unnamed : startsName first = false)
    (digit : Text.isDecimalDigit first = true)
    (read : (number first following).result = .ok (kind, lexeme)) :
    Spells (number first following).span kind lexeme := by
  have digits := run_all_of_mem Text.isDecimalDigit following
  unfold number at read ⊢
  dsimp only at read ⊢
  split
  · rename_i c beyond shape
    rw [shape] at read
    dsimp only at read
    split at read
    · cases read
    · rename_i well
      cases read
      rw [if_neg well]
      exact .number unnamed digit digits
  · rename_i other
    split at read
    · exact absurd ‹_› (other _ _)
    · cases read
      exact .number unnamed digit digits

theorem spells_of_scan (content : List Glyph) (kind : TokenKind) (lexeme : String)
    (read : (scan content).result = .ok (kind, lexeme)) (proper : kind ≠ .endOfInput) :
    Spells (scan content).span kind lexeme := by
  cases content with
  | nil =>
      cases read
      exact absurd rfl proper
  | cons glyph rest =>
      cases glyph with
      | stray byte => cases read
      | char c =>
          rw [scan] at read ⊢
          split at read
          · rename_i starts
            rw [if_pos starts]
            exact spells_of_name c rest kind lexeme starts read
          · rename_i unnamed
            rw [if_neg unnamed]
            split at read
            · rename_i digit
              rw [if_pos digit]
              exact spells_of_number c rest kind lexeme (by simpa using unnamed) digit read
            · rename_i other
              rw [if_neg other]
              split at read
              · rename_i quote
                rw [if_pos quote]
                cases inner : (text rest).result with
                | error fault => simp [Scan.map, inner, Except.map] at read
                | ok chars =>
                    obtain ⟨written, shape, body⟩ := textBody_of_text rest chars inner
                    simp only [Scan.map, inner, Except.map, Scan.behind] at read ⊢
                    cases read
                    rw [shape, quote]
                    exact .text body
              · rename_i other
                rw [if_neg other]
                exact spells_of_symbol c rest kind lexeme read

/-! No token is read that is shorter than one that is spelled there. -/

/-- The scan reads this token, or a longer one, or it finds a fault. -/
def ReadsAtLeast (span : List Char) (kind : TokenKind) (lexeme : String) (left : List Glyph)
    (scan : Scan (TokenKind × String)) : Prop :=
  scan = ⟨.ok (kind, lexeme), span, left⟩ ∨ span.length < scan.span.length ∨
    ∃ fault, scan.result = .error fault

theorem text_of_textBody (written content : List Char) (body : TextBody written content)
    (left : List Glyph) :
    text (written.map .char ++ .char '"' :: left) = ⟨.ok content, written ++ ['"'], left⟩ := by
  induction body with
  | nil => rfl
  | @plain c written content quote bare sameLine _ ih =>
      rw [List.map_cons, List.cons_append, text, if_neg sameLine, ih]
      · rfl
      · exact quote
      · exact fun _ => bare
      · exact fun _ _ _ => bare
      · exact fun _ _ _ => bare
  | @escape c written content _ ih =>
      rw [List.map_cons, List.map_cons, List.cons_append, List.cons_append, text, ih]
      rfl

theorem scan_of_textBody {written content : List Char} (body : TextBody written content)
    (left : List Char) :
    scan (('"' :: written ++ ['"'] ++ left).map .char) =
      ⟨.ok (.text, String.ofList content), '"' :: written ++ ['"'], left.map .char⟩ := by
  have inner := text_of_textBody written content body (left.map .char)
  simp only [List.cons_append, List.map_cons, List.map_append, List.append_assoc, List.nil_append]
  rw [scan, if_neg (by decide), if_neg (by decide), if_pos rfl, inner]
  rfl

theorem name_readsAtLeast (first : Char) (more : List Char) (left : List Glyph)
    (continues : more.all continuesName = true) :
    ReadsAtLeast (first :: more)
      ((TokenKind.keyword? (String.ofList (first :: more))).getD .identifier)
      (String.ofList (first :: more)) left (name first (more.map .char ++ left)) := by
  have split := run_splits continuesName left
  rw [name, run_append_of_all continuesName more left continues]
  cases beyond : (run continuesName left).1 with
  | nil =>
      left
      rw [beyond, List.map_nil, List.nil_append] at split
      rw [List.append_nil, ← split]
  | cons c beyond =>
      right
      left
      simp

theorem number_readsAtLeast (first : Char) (more : List Char) (left : List Glyph)
    (digits : more.all Text.isDecimalDigit = true) :
    ReadsAtLeast (first :: more) .number (String.ofList (first :: more)) left
      (number first (more.map .char ++ left)) := by
  have split := run_splits Text.isDecimalDigit left
  rw [number, run_append_of_all Text.isDecimalDigit more left digits]
  dsimp only
  cases beyond : (run Text.isDecimalDigit left).1 with
  | nil =>
      rw [beyond, List.map_nil, List.nil_append] at split
      rw [List.append_nil, ← split]
      split
      · split
        · exact .inr (.inr ⟨_, rfl⟩)
        · exact .inl rfl
      · exact .inl rfl
  | cons c beyond =>
      right
      left
      split
      · split <;> simp
      · simp

theorem sign_of_listed (kind : TokenKind) (listed : kind ∈ signs) :
    (∃ c, kind.name.toList = [c] ∧ isMark c = true ∧ sign c none = .ok (kind, false)) ∨
      ∃ c d, kind.name.toList = [c, d] ∧ isMark c = true ∧ sign c (some d) = .ok (kind, true) := by
  cases kind with
  | assign | plus | minus | times | slash | percent | less | greater | comma | semicolon | colon
  | openParen | closeParen | openBrace | closeBrace | openBracket | closeBracket =>
      exact .inl ⟨_, rfl, by decide, rfl⟩
  | equal | notEqual | increment | decrement | lessEqual | greaterEqual | andAnd | orOr | openSet
  | openMap => exact .inr ⟨_, _, rfl, by decide, rfl⟩
  | endOfInput | illegal | identifier | number | text | fnWord | letWord | mutableWord | ifWord
  | elseWord | whileWord | printlnWord | trueWord | falseWord => exact absurd listed (by decide)

/-- A sign of one character may be the start of a wider sign, but of no fault. -/
theorem sign_of_alone (first : Char) (second : Option Char) (kind : TokenKind)
    (alone : sign first none = .ok (kind, false)) :
    sign first second = .ok (kind, false) ∨ ∃ wider, sign first second = .ok (wider, true) := by
  unfold sign at alone ⊢
  split <;> simp_all

theorem sign_readsAtLeast (kind : TokenKind) (listed : kind ∈ signs) (left : List Char) :
    ReadsAtLeast kind.name.toList kind "" (left.map .char)
      (scan ((kind.name.toList ++ left).map .char)) := by
  rcases sign_of_listed kind listed with ⟨c, spelling, mark, alone⟩ | ⟨c, d, spelling, mark, found⟩
  · rw [spelling, List.singleton_append, List.map_cons, scan_mark c _ mark]
    rcases sign_of_alone c (Glyph.firstChar? (left.map .char)) kind alone with narrow | ⟨wider, wide⟩
    · left
      exact symbol_narrow c _ kind narrow
    · right
      left
      obtain ⟨d, seen, -, -⟩ := spelling_of_wide _ _ _ wide
      obtain ⟨rest, shape⟩ := eq_cons_of_firstChar? seen
      rw [seen] at wide
      rw [shape, symbol_wide c d rest wider wide]
      exact Nat.lt_succ_self 1
  · left
    rw [spelling, List.cons_append, List.map_cons, scan_mark c _ mark]
    exact symbol_wide c d (left.map .char) kind found

theorem Spells.readsAtLeast {span : List Char} {kind : TokenKind} {lexeme : String}
    (spells : Spells span kind lexeme) (left : List Char) :
    ReadsAtLeast span kind lexeme (left.map .char) (scan ((span ++ left).map .char)) := by
  cases spells with
  | @name c more starts continues =>
      rw [List.map_append, List.map_cons, List.cons_append, scan, if_pos starts]
      exact name_readsAtLeast c more _ continues
  | @number c more unnamed digit digits =>
      rw [List.map_append, List.map_cons, List.cons_append, scan, if_neg (by simp [unnamed]),
        if_pos digit]
      exact number_readsAtLeast c more _ digits
  | text body => exact .inl (scan_of_textBody body left)
  | sign listed => exact sign_readsAtLeast kind listed left

theorem isLongest_of_scan (content : List Glyph) (kind : TokenKind) (lexeme : String)
    (left : List Char) (read : (scan content).result = .ok (kind, lexeme))
    (proper : kind ≠ .endOfInput) (rest : (scan content).rest = left.map .char) :
    IsLongest IsToken (scan content).span left := by
  constructor
  · exact ⟨kind, lexeme, spells_of_scan content kind lexeme read proper⟩
  · rintro other left' same ⟨kind', lexeme', spells⟩
    have whole : content = (other ++ left').map .char := by
      rw [same, List.map_append, ← rest]
      exact scan_splits content
    have reads := spells.readsAtLeast left'
    rw [← whole] at reads
    rcases reads with here | longer | ⟨fault, failed⟩
    · exact Nat.le_of_eq (congrArg (fun scan => scan.span.length) here.symm)
    · exact Nat.le_of_lt longer
    · rw [failed] at read
      cases read

theorem scan_of_isLongest {span left : List Char} {kind kind' : TokenKind} {lexeme lexeme' : String}
    (spells : Spells span kind lexeme) (longest : IsLongest IsToken span left)
    (read : (scan ((span ++ left).map .char)).result = .ok (kind', lexeme'))
    (proper : kind' ≠ .endOfInput) :
    scan ((span ++ left).map .char) = ⟨.ok (kind, lexeme), span, left.map .char⟩ := by
  obtain ⟨rest, rest_eq, whole⟩ := (scan_splits ((span ++ left).map .char)).exists_left
  have scanned := isLongest_of_scan _ kind' lexeme' rest read proper rest_eq
  obtain ⟨span_eq, -⟩ := longest.unique scanned whole
  rcases spells.readsAtLeast left with here | longer | ⟨fault, failed⟩
  · exact here
  · rw [← span_eq] at longer
    exact absurd longer (Nat.lt_irrefl _)
  · rw [failed] at read
    cases read

theorem Spells.legal {span : List Char} {kind : TokenKind} {lexeme : String}
    (spells : Spells span kind lexeme) : kind ≠ .illegal := by
  cases spells with
  | name =>
      unfold TokenKind.keyword?
      split <;> decide
  | number | text => decide
  | sign listed =>
      rintro rfl
      exact absurd listed (by decide)

theorem Spells.ne_nil {span : List Char} {kind : TokenKind} {lexeme : String}
    (spells : Spells span kind lexeme) : span ≠ [] := by
  cases spells with
  | name | number | text => exact List.cons_ne_nil _ _
  | sign listed =>
      rcases sign_of_listed kind listed with ⟨c, spelling, -, -⟩ | ⟨c, d, spelling, -, -⟩ <;>
        simp [spelling]

end Lexeme

@[ext]
structure Piece where
  span : List Char
  kind : TokenKind
  lexeme : String
  gap : List Char

def Piece.text (pieces : List Piece) : List Char :=
  pieces.flatMap fun piece => piece.span ++ piece.gap

@[simp] theorem Piece.text_cons (piece : Piece) (pieces : List Piece) :
    Piece.text (piece :: pieces) = piece.span ++ piece.gap ++ Piece.text pieces := rfl

/-- The text is cut into these pieces, every token and every gap as long as can be. -/
inductive Divides : List Char → List Piece → Prop where
  | nil : Divides [] []
  | cons {piece : Piece} {rest : List Char} {pieces : List Piece}
      (spells : Lexeme.Spells piece.span piece.kind piece.lexeme)
      (token : IsLongest Lexeme.IsToken piece.span (piece.gap ++ rest))
      (gap : IsLongest Trivia.IsGap piece.gap rest) (more : Divides rest pieces) :
      Divides (piece.span ++ (piece.gap ++ rest)) (piece :: pieces)

theorem Divides.text_eq {text : List Char} {pieces : List Piece} (divides : Divides text pieces) :
    text = Piece.text pieces := by
  induction divides with
  | nil => rfl
  | cons _ _ _ _ ih => rw [Piece.text_cons, List.append_assoc, ← ih]

inductive Scanned : List Glyph → List Piece → Prop where
  | nil : Scanned [] []
  | cons {text rest : List Glyph} {piece : Piece} {newline : Bool} {pieces : List Piece}
      (read : Lexeme.scan text = ⟨.ok (piece.kind, piece.lexeme), piece.span, rest⟩)
      (proper : piece.kind ≠ .endOfInput)
      (passed : (Trivia.scan rest).result = .ok newline)
      (gap : (Trivia.scan rest).span = piece.gap)
      (more : Scanned (Trivia.scan rest).rest pieces) : Scanned text (piece :: pieces)

theorem Scanned.divides {text : List Glyph} {pieces : List Piece} (scanned : Scanned text pieces) :
    ∃ chars : List Char, text = chars.map .char ∧ Divides chars pieces := by
  induction scanned with
  | nil => exact ⟨[], rfl, .nil⟩
  | @cons text rest piece newline pieces read proper passed gap _ ih =>
      obtain ⟨chars, shape, divides⟩ := ih
      have rest_eq : rest = (piece.gap ++ chars).map .char := by
        rw [List.map_append, ← gap, ← shape]
        exact Trivia.scan_splits rest
      have text_eq : text = (piece.span ++ (piece.gap ++ chars)).map .char := by
        rw [List.map_append, ← rest_eq]
        have split := Lexeme.scan_splits text
        rwa [read] at split
      have result : (Lexeme.scan text).result = .ok (piece.kind, piece.lexeme) := by rw [read]
      have span : (Lexeme.scan text).span = piece.span := by rw [read]
      refine ⟨_, text_eq, .cons ?_ ?_ ?_ divides⟩
      · rw [← span]
        exact Lexeme.spells_of_scan text _ _ result proper
      · rw [← span]
        apply Lexeme.isLongest_of_scan text _ _ _ result proper
        rw [read, rest_eq]
      · rw [← gap]
        exact Trivia.isLongest_of_scan rest newline chars passed shape

theorem Scanned.unique {text : List Char} {pieces other : List Piece}
    (scanned : Scanned (text.map .char) pieces) (divides : Divides text other) : other = pieces := by
  induction divides generalizing pieces with
  | nil =>
      cases scanned with
      | nil => rfl
      | cons read proper =>
          have kind := congrArg (fun scan => scan.result.map Prod.fst) read
          exact absurd (Except.ok.inj kind).symm proper
  | @cons piece rest others spells token gap _ ih =>
      generalize whole : (piece.span ++ (piece.gap ++ rest)).map Glyph.char = glyphs at scanned
      cases scanned with
      | nil =>
          have empty := (List.append_eq_nil_iff.mp (List.map_eq_nil_iff.mp whole)).1
          exact absurd empty spells.ne_nil
      | @cons _ after found newline pieces read proper passed gap' more =>
          subst whole
          have same := Lexeme.scan_of_isLongest spells token (by rw [read]) proper
          rw [read] at same
          injection same with result span left
          injection result with pair
          injection pair with kind lexeme
          rw [left] at passed gap' more
          obtain ⟨gap_eq, rest_eq⟩ := Trivia.scan_of_isLongest gap passed
          rw [rest_eq] at more
          have piece_eq : piece = found :=
            Piece.ext span.symm kind.symm lexeme.symm (gap_eq.symm.trans gap')
          rw [ih more, piece_eq]

end Koy
