import Koy.Proofs.SemicolonInsertion
import Koy.Proofs.Places

/-! A space that becomes a line end. Where the space is the last of a gap the text is still cut into
the same tokens. -/

namespace Koy

/-- A token that is read before the one text sees no difference to the other: that starts with the
same character, but for a space that has become a line end. -/
def Alike (text other : List Char) : Prop :=
  other.head? = text.head? ∨ (text.head? = some ' ' ∧ other.head? = some '\n')

namespace Alike

variable {text other : List Char}

theorem append (span : List Char) (alike : Alike text other) :
    Alike (span ++ text) (span ++ other) := by
  cases span with
  | nil => exact alike
  | cons c span => exact .inl rfl

theorem stops (alike : Alike text other) {p : Char → Bool} (lineEnd : p '\n' = false)
    (stops : ∀ c, text.head? = some c → p c = false) : ∀ c, other.head? = some c → p c = false := by
  intro c here
  rcases alike with same | ⟨-, broken⟩
  · exact stops c (same ▸ here)
  · rw [broken] at here
    cases here
    exact lineEnd

end Alike

namespace Lexeme

variable {span text other : List Char} {kind : TokenKind} {lexeme : String}

theorem sign_lineEnd (first : Char) : sign first (some '\n') = sign first (some ' ') := by
  unfold sign
  split <;> simp_all

theorem stops_of_run {p : Char → Bool} (nothing : (run p (text.map .char)).1 = []) :
    ∀ c, text.head? = some c → p c = false := by
  rintro c here
  cases text with
  | nil => cases here
  | cons d text =>
      cases here
      rw [List.map_cons, run] at nothing
      split at nothing
      · cases nothing
      · rename_i fails
        exact Bool.eq_false_iff.mpr fails

theorem name_alike {first : Char} {more : List Char} (alike : Alike text other)
    (continues : more.all continuesName = true)
    (read : name first ((more ++ text).map .char) =
      ⟨.ok (kind, lexeme), first :: more, text.map .char⟩) :
    name first ((more ++ other).map .char) =
      ⟨.ok (kind, lexeme), first :: more, other.map .char⟩ := by
  have taken := congrArg Scan.span read
  rw [List.map_append, name, run_append_of_all continuesName more _ continues] at taken
  have stops := stops_of_run (by simpa using taken)
  rw [name, run_all continuesName more text continues stops] at read
  rw [name, run_all continuesName more other continues (alike.stops (by decide) stops)]
  injection read with result
  rw [← result]

theorem number_of_stops (first : Char) (more : List Char)
    (digits : more.all Text.isDecimalDigit = true)
    (stops : ∀ c, text.head? = some c → Text.isDecimalDigit c = false)
    (well : ∀ c, text.head? = some c → (c == '.' || startsName c) = false) :
    number first ((more ++ text).map .char) =
      ⟨.ok (.number, String.ofList (first :: more)), first :: more, text.map .char⟩ := by
  rw [number, run_all Text.isDecimalDigit more text digits stops]
  cases text with
  | nil => rfl
  | cons c text => simp [well c rfl]

theorem stops_of_number {first : Char} {more : List Char}
    (digits : more.all Text.isDecimalDigit = true)
    (read : number first ((more ++ text).map .char) =
      ⟨.ok (kind, lexeme), first :: more, text.map .char⟩) :
    (∀ c, text.head? = some c → Text.isDecimalDigit c = false) ∧
      ∀ c, text.head? = some c → (c == '.' || startsName c) = false := by
  cases text with
  | nil => exact ⟨nofun, nofun⟩
  | cons c text =>
      have found := run_append_of_all Text.isDecimalDigit more ((c :: text).map .char) digits
      rw [List.map_append, number, found, List.map_cons, run] at read
      by_cases digit : Text.isDecimalDigit c = true
      · have taken := congrArg Scan.span read
        rw [if_pos digit] at taken
        dsimp only at taken
        split at taken
        · split at taken <;> simp at taken
        · simp at taken
      · rw [if_neg digit] at read
        refine ⟨by rintro d ⟨⟩; exact Bool.eq_false_iff.mpr digit, ?_⟩
        rintro d ⟨⟩
        rw [Bool.eq_false_iff]
        intro malformed
        simp [malformed] at read

theorem sign_alike (alike : Alike text other) (listed : kind ∈ signs)
    (read : scan ((kind.name.toList ++ text).map .char) =
      ⟨.ok (kind, ""), kind.name.toList, text.map .char⟩) :
    scan ((kind.name.toList ++ other).map .char) =
      ⟨.ok (kind, ""), kind.name.toList, other.map .char⟩ := by
  have seen (c : Char) : sign c other.head? = sign c text.head? := by
    rcases alike with same | ⟨space, broken⟩
    · rw [same]
    · rw [space, broken, sign_lineEnd]
  rcases sign_of_listed kind listed with ⟨c, spelling, mark, alone⟩ | ⟨c, d, spelling, mark, found⟩
  · rw [spelling, List.singleton_append, List.map_cons, scan_mark c _ mark] at read ⊢
    rcases sign_of_alone c text.head? kind alone with narrow | ⟨wider, wide⟩
    · rw [← seen, ← firstChar?_map] at narrow
      exact symbol_narrow c _ kind narrow
    · -- A wider sign would have been read.
      obtain ⟨d, next, -, -⟩ := spelling_of_wide _ _ _ wide
      rw [next] at wide
      obtain ⟨rest, rfl⟩ := List.head?_eq_some_iff.mp next
      rw [List.map_cons, symbol_wide c d _ wider wide] at read
      cases congrArg Scan.span read
  · rw [spelling, List.cons_append, List.map_cons, scan_mark c _ mark]
    exact symbol_wide c d (other.map .char) kind found

theorem scan_alike (alike : Alike text other) (proper : kind ≠ .endOfInput)
    (read : scan ((span ++ text).map .char) = ⟨.ok (kind, lexeme), span, text.map .char⟩) :
    scan ((span ++ other).map .char) = ⟨.ok (kind, lexeme), span, other.map .char⟩ := by
  have spells := spells_of_scan _ kind lexeme (by rw [read]) proper
  rw [read] at spells
  cases spells with
  | @name c more starts continues =>
      rw [List.cons_append, List.map_cons, scan, if_pos starts] at read ⊢
      exact name_alike alike continues read
  | @number c more unnamed digit digits =>
      rw [List.cons_append, List.map_cons, scan, if_neg (by simp [unnamed]), if_pos digit] at read ⊢
      obtain ⟨stops, well⟩ := stops_of_number digits read
      exact number_of_stops c more digits (alike.stops (by decide) stops)
        (alike.stops (by decide) well)
  | text body => exact scan_of_textBody body other
  | sign listed => exact sign_alike alike listed read

end Lexeme

namespace Trivia

variable {text other left left' gap : List Char}

def Solid (text : List Char) : Prop :=
  ∀ newline, scanFrom .plain newline (text.map .char) = ⟨.ok newline, [], text.map .char⟩

theorem solid_cons_iff (c : Char) : Solid (c :: text) ↔
    Text.isBlank c = false ∧ (c = '/' → text.head? ≠ some '/' ∧ text.head? ≠ some '*') := by
  constructor
  · intro solid
    have nothing := congrArg Scan.span (solid false)
    have opens (d : Char) (marks : d = '/' ∨ d = '*') (slash : c = '/') : text.head? ≠ some d := by
      rintro next
      obtain ⟨rest, rfl⟩ := List.head?_eq_some_iff.mp next
      subst slash
      rw [List.map_cons, List.map_cons] at nothing
      rcases marks with rfl | rfl <;> rw [scanFrom] at nothing <;> cases nothing
    refine ⟨Bool.eq_false_iff.mpr fun blank => ?_, fun slash => ⟨opens _ (.inl rfl) slash,
      opens _ (.inr rfl) slash⟩⟩
    have plain : c ≠ '/' := by
      rintro rfl
      rw [isBlank_slash] at blank
      cases blank
    rw [List.map_cons, scanFrom, if_pos blank] at nothing
    · cases nothing
    · exact fun _ _ here => plain here
    · exact fun _ _ here => plain here
  · rintro ⟨solid, plain⟩ newline
    exact scanFrom_solid newline c text solid plain

theorem Solid.alike {span : List Char} (solid : Solid (span ++ text)) (some : span ≠ [])
    (alike : Alike text other) : Solid (span ++ other) := by
  obtain ⟨c, more, rfl⟩ := List.exists_cons_of_ne_nil some
  rw [List.cons_append, solid_cons_iff] at solid ⊢
  obtain ⟨proper, plain⟩ := solid
  refine ⟨proper, fun slash => ?_⟩
  obtain ⟨line, block⟩ := plain slash
  rcases alike.append more with same | ⟨-, broken⟩
  · rw [same]
    exact ⟨line, block⟩
  · rw [broken]
    decide

theorem solid_of_scan {content : List Glyph} {newline : Bool}
    (passed : (scan content).result = .ok newline) (rest : (scan content).rest = left.map .char) :
    Solid left := by
  intro again
  rw [← rest]
  exact scanFrom_rest .plain false newline again content passed

theorem scan_of_isGap (isGap : IsGap left gap) (solid : Solid left) :
    ∃ newline, scan ((gap ++ left).map .char) = ⟨.ok newline, gap, left.map .char⟩ := by
  obtain ⟨newline, scanned⟩ := scanFrom_gap false gap left isGap
  refine ⟨newline, ?_⟩
  rw [scan, scanned, solid newline, Scan.behind, List.append_nil]

theorem IsGap.elsewhere (isGap : IsGap left gap) (present : left ≠ []) : IsGap left' gap := by
  induction isGap with
  | nil => exact .nil
  | blank blank _ ih => exact .blank blank ih
  | line inside _ ih => exact .line inside ih
  | lastLine _ nothing => exact absurd nothing present
  | block inside _ ih => exact .block inside ih

theorem last_of_append {front more : List Char} {c : Char}
    (shape : gap ++ [' '] = front ++ c :: more) :
    c = ' ' ∨ ∃ first, more = first ++ [' '] ∧ gap = front ++ c :: first := by
  rcases List.eq_nil_or_concat' more with rfl | ⟨first, last, rfl⟩
  · exact .inl (List.cons.inj (List.append_inj' shape rfl).2).1.symm
  · right
    rw [← List.cons_append, ← List.append_assoc] at shape
    obtain ⟨gap_eq, last_eq⟩ := List.append_inj' shape rfl
    exact ⟨first, by rw [last_eq], gap_eq⟩

theorem IsGap.lineEnd (isGap : IsGap left (gap ++ [' '])) (present : left ≠ []) :
    IsGap left (gap ++ ['\n']) := by
  generalize shape : gap ++ [' '] = spaced at isGap
  induction isGap generalizing gap with
  | nil => exact absurd shape (by simp)
  | @blank c more blank _ ih =>
      cases gap with
      | nil =>
          cases shape
          exact .blank (by decide) .nil
      | cons d gap =>
          cases shape
          exact .blank blank (ih rfl)
  | @line body more inside _ ih =>
      have shape' : gap ++ [' '] = ('/' :: '/' :: body) ++ '\n' :: more := shape
      rcases last_of_append shape' with never | ⟨first, rfl, rfl⟩
      · cases never
      · rw [List.append_assoc, List.cons_append]
        exact .line inside (ih rfl)
  | lastLine _ nothing => exact absurd nothing present
  | @block body more inside _ ih =>
      have shape' : gap ++ [' '] = ('/' :: '*' :: body ++ ['*']) ++ '/' :: more := by
        rw [shape, List.append_assoc]
        rfl
      rcases last_of_append shape' with never | ⟨first, rfl, rfl⟩
      · cases never
      · rw [List.append_assoc, List.append_assoc]
        exact .block inside (ih rfl)

end Trivia

namespace Piece

variable {piece : Piece} {pieces more : List Piece} {gap left left' : List Char}

@[simp] theorem text_append (pieces more : List Piece) :
    text (pieces ++ more) = text pieces ++ text more :=
  List.flatMap_append

def withGap (piece : Piece) (gap : List Char) : Piece :=
  { piece with gap }

/-- The scanners cut the piece off the start of a text, of which this is left. -/
structure Begins (piece : Piece) (left : List Char) : Prop where
  read : Lexeme.scan ((piece.span ++ (piece.gap ++ left)).map .char) =
    ⟨.ok (piece.kind, piece.lexeme), piece.span, (piece.gap ++ left).map .char⟩
  proper : piece.kind ≠ .endOfInput
  blank : Trivia.IsGap left piece.gap
  solid : Trivia.Solid left

theorem Begins.spells (begins : piece.Begins left) :
    Lexeme.Spells piece.span piece.kind piece.lexeme := by
  have spells := Lexeme.spells_of_scan _ piece.kind piece.lexeme (by rw [begins.read]) begins.proper
  rwa [begins.read] at spells

theorem Begins.alike (begins : piece.Begins left) (alike : Alike left left') (present : left ≠ [])
    (solid : Trivia.Solid left') : piece.Begins left' where
  read := Lexeme.scan_alike (alike.append piece.gap) begins.proper begins.read
  proper := begins.proper
  blank := begins.blank.elsewhere present
  solid := solid

theorem alike_of_space (gap left : List Char) : Alike (gap ++ ' ' :: left) (gap ++ '\n' :: left) :=
  Alike.append gap (.inr ⟨rfl, rfl⟩)

theorem Begins.broken (begins : (piece.withGap (gap ++ [' '])).Begins left) (present : left ≠ []) :
    (piece.withGap (gap ++ ['\n'])).Begins left where
  read := by
    have read := begins.read
    simp only [withGap, List.append_assoc, List.singleton_append] at read ⊢
    exact Lexeme.scan_alike (alike_of_space gap left) begins.proper read
  proper := begins.proper
  blank := begins.blank.lineEnd present
  solid := begins.solid

end Piece

open Piece

theorem Scanned.text_eq {text : List Char} {pieces : List Piece}
    (scanned : Scanned (text.map .char) pieces) : text = Piece.text pieces := by
  obtain ⟨chars, shape, divides⟩ := scanned.divides
  rw [← divides.text_eq]
  exact (List.map_inj_right fun _ _ => Glyph.char.inj).mp shape

theorem scanned_cons_iff (piece : Piece) (pieces : List Piece) :
    Scanned ((Piece.text (piece :: pieces)).map .char) (piece :: pieces) ↔
      piece.Begins (Piece.text pieces) ∧ Scanned ((Piece.text pieces).map .char) pieces := by
  constructor
  · intro scanned
    generalize whole : (Piece.text (piece :: pieces)).map Glyph.char = content at scanned
    cases scanned with
    | @cons _ rest _ newline _ read proper passed gap more =>
        obtain ⟨chars, left, -⟩ := more.divides
        rw [left] at more
        have same := more.text_eq
        subst same
        have rest_eq : rest = (piece.gap ++ Piece.text pieces).map .char := by
          rw [List.map_append, ← gap, ← left]
          exact Trivia.scan_splits rest
        rw [← whole, rest_eq, text_cons, List.append_assoc] at read
        refine ⟨⟨read, proper, ?_, Trivia.solid_of_scan passed left⟩, more⟩
        rw [← gap]
        exact (Trivia.isLongest_of_scan rest newline _ passed left).holds
  · rintro ⟨begins, more⟩
    obtain ⟨newline, scanned⟩ := Trivia.scan_of_isGap begins.blank begins.solid
    rw [text_cons, List.append_assoc]
    exact .cons begins.read begins.proper (by rw [scanned]) (by rw [scanned]) (by rwa [scanned])

section

variable {pieces more : List Piece} {piece : Piece} {gap : List Char}

theorem text_withGap (pieces more : List Piece) (piece : Piece) (gap : List Char) (c : Char) :
    Piece.text (pieces ++ piece.withGap (gap ++ [c]) :: more) =
      Piece.text pieces ++ piece.span ++ gap ++ c :: Piece.text more := by
  simp [withGap]

theorem alike_broken (pieces more : List Piece) (piece : Piece) (gap : List Char) :
    Alike (Piece.text (pieces ++ piece.withGap (gap ++ [' ']) :: more))
      (Piece.text (pieces ++ piece.withGap (gap ++ ['\n']) :: more)) := by
  rw [text_withGap, text_withGap]
  exact alike_of_space _ _

theorem solid_broken (some : piece.span ≠ [])
    (solid : Trivia.Solid (Piece.text (pieces ++ piece.withGap (gap ++ [' ']) :: more))) :
    Trivia.Solid (Piece.text (pieces ++ piece.withGap (gap ++ ['\n']) :: more)) := by
  rw [text_withGap, List.append_assoc] at solid ⊢
  exact solid.alike (by simp [some]) (alike_of_space _ _)

theorem Scanned.begins (scanned : Scanned ((Piece.text (pieces ++ piece :: more)).map .char)
    (pieces ++ piece :: more)) : piece.Begins (Piece.text more) := by
  induction pieces with
  | nil => exact ((scanned_cons_iff _ _).mp scanned).1
  | cons first pieces ih =>
      rw [List.cons_append, scanned_cons_iff] at scanned
      exact ih scanned.2

theorem Scanned.broken (present : Piece.text more ≠ [])
    (scanned : Scanned ((Piece.text (pieces ++ piece.withGap (gap ++ [' ']) :: more)).map .char)
      (pieces ++ piece.withGap (gap ++ [' ']) :: more)) :
    Scanned ((Piece.text (pieces ++ piece.withGap (gap ++ ['\n']) :: more)).map .char)
      (pieces ++ piece.withGap (gap ++ ['\n']) :: more) := by
  have some : piece.span ≠ [] := scanned.begins.spells.ne_nil
  induction pieces with
  | nil =>
      obtain ⟨begins, rest⟩ := (scanned_cons_iff _ _).mp scanned
      exact (scanned_cons_iff _ _).mpr ⟨begins.broken present, rest⟩
  | cons first pieces ih =>
      rw [List.cons_append, scanned_cons_iff] at scanned ⊢
      obtain ⟨begins, rest⟩ := scanned
      refine ⟨?_, ih rest⟩
      exact begins.alike (alike_broken pieces more piece gap) (by rw [text_withGap]; simp)
        (solid_broken some begins.solid)

def Cut.text (cut : Cut) : List Char :=
  cut.lead ++ Piece.text cut.pieces

structure Cut.Scans (cut : Cut) : Prop where
  blank : Trivia.IsGap (Piece.text cut.pieces) cut.lead
  solid : Trivia.Solid (Piece.text cut.pieces)
  scanned : Scanned ((Piece.text cut.pieces).map .char) cut.pieces

theorem Cut.Scans.exists_passes {cut : Cut} (scans : cut.Scans) :
    ∃ after, Lexer.Passes (.ofSource (Bytes.ofChars cut.text)) cut.tokens after ∧
      after.next.1 = .ok ⟨.endOfInput, "", .behind cut.text⟩ := by
  obtain ⟨newline, scan⟩ := Trivia.scan_of_isGap scans.blank scans.solid
  have decoded : (Lexer.ofSource (Bytes.ofChars cut.text)).rest = cut.text.map .char :=
    Glyph.decode_ofChars cut.text
  rw [← Cut.text, ← decoded] at scan
  have place : (Lexer.ofSource (Bytes.ofChars cut.text)).pastTrivia.position =
      Position.start.afterAll cut.lead := by
    rw [Lexer.pastTrivia, scan]
    rfl
  obtain ⟨after, passes, ended⟩ := Lexer.passes_pieces rfl (by rw [scan])
    (by rw [scan]; exact scans.scanned)
  rw [place] at passes ended
  refine ⟨after, passes, ?_⟩
  rw [ended, ← Position.afterAll_append, Position.start_afterAll]
  rfl

theorem Lexer.Faultless.exists_scans {source : Bytes} (faultless : (ofSource source).Faultless) :
    ∃ cut : Cut, cut.Scans ∧ source = Bytes.ofChars cut.text := by
  obtain ⟨newline, passed⟩ := faultless.trivia rfl
  obtain ⟨pieces, scanned⟩ := faultless.scanned rfl
  obtain ⟨text, rfl⟩ := faultless.exists_text
  have decoded : (ofSource (Bytes.ofChars text)).rest = text.map .char := Glyph.decode_ofChars text
  rw [decoded] at passed scanned
  obtain ⟨chars, left, -⟩ := scanned.divides
  rw [left] at scanned
  have same := scanned.text_eq
  subst same
  refine ⟨⟨_, pieces⟩, ⟨(Trivia.isLongest_of_scan _ newline _ passed left).holds,
    Trivia.solid_of_scan passed left, scanned⟩, congrArg Bytes.ofChars ?_⟩
  have split := Trivia.scan_splits (text.map .char)
  rw [Scan.Splits, left, ← List.map_append] at split
  exact (List.map_inj_right fun _ _ => Glyph.char.inj).mp split

end

/-- A gap inside a text that is cut: the pieces before it, the piece that it is behind, the gap up
to its last character, and the pieces that come next. -/
structure Seam where
  lead : List Char
  pieces : List Piece
  piece : Piece
  gap : List Char
  next : Piece
  more : List Piece

namespace Seam

variable (seam : Seam)

def cut (c : Char) : Cut :=
  ⟨seam.lead, seam.pieces ++ seam.piece.withGap (seam.gap ++ [c]) :: seam.next :: seam.more⟩

def before : List Char :=
  seam.lead ++ Piece.text seam.pieces ++ (seam.piece.span ++ seam.gap)

def behind : List Char :=
  Piece.text (seam.next :: seam.more)

theorem text_cut (c : Char) : (seam.cut c).text = seam.before ++ c :: seam.behind := by
  simp [Cut.text, cut, before, behind, withGap]

variable {seam}

theorem next_begins {c : Char} (scans : (seam.cut c).Scans) :
    seam.next.Begins (Piece.text seam.more) := by
  have scanned := scans.scanned
  dsimp only [cut] at scanned
  rw [List.append_cons] at scanned
  exact scanned.begins

theorem scans_lineEnd (scans : (seam.cut ' ').Scans) : (seam.cut '\n').Scans := by
  have some : seam.piece.span ≠ [] := scans.scanned.begins.spells.ne_nil
  have present : Piece.text (seam.next :: seam.more) ≠ [] := by
    simp [(next_begins scans).spells.ne_nil]
  refine ⟨scans.blank.elsewhere ?_, solid_broken some scans.solid, scans.scanned.broken present⟩
  dsimp only [cut]
  rw [text_withGap]
  simp

end Seam

end Koy
