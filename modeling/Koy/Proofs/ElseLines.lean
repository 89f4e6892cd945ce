import Koy.Proofs.Interposed
import Koy.Proofs.LineBreaks

/-! The word `else` at the start of a line. Where a line end takes the place of the space before it,
all that comes behind is one line further down, and at most one semicolon is supplied, right before
the word. So the text is read as before. -/

namespace Koy

namespace Position

/-- Where a place of the text is when the character at the given place has become a line end. -/
def brokenAt (place position : Position) : Position :=
  if position.offset ≤ place.offset then position
  else ⟨position.offset, position.line + 1,
    if position.line = place.line then position.column - place.column else position.column⟩

structure Breaks (place position broken : Position) : Prop where
  offset : broken.offset = position.offset
  line : broken.line = position.line + 1
  further : place.offset < position.offset
  column : position.line = place.line ∧ position.column = place.column + broken.column ∨
    place.line < position.line ∧ position.column = broken.column

variable {place position broken : Position}

theorem Breaks.brokenAt_eq (breaks : Breaks place position broken) :
    place.brokenAt position = broken := by
  obtain ⟨offset, line, further, column⟩ := breaks
  rw [brokenAt, if_neg (Nat.not_le_of_lt further), ← offset, ← line]
  rcases column with ⟨same, shifted⟩ | ⟨below, kept⟩
  · rw [if_pos same, shifted, Nat.add_sub_cancel_left]
  · rw [if_neg (Nat.ne_of_gt below), kept]

theorem Breaks.after (breaks : Breaks place position broken) (c : Char) :
    Breaks place (position.after c) (broken.after c) := by
  obtain ⟨offset, line, further, column⟩ := breaks
  unfold Position.after
  by_cases here : c = '\n'
  · rw [if_pos here, if_pos here]
    exact ⟨by rw [offset], by rw [line], by dsimp only; omega, .inr ⟨by dsimp only; omega, rfl⟩⟩
  · rw [if_neg here, if_neg here]
    refine ⟨by rw [offset], line, by dsimp only; omega, ?_⟩
    dsimp only
    omega

theorem Breaks.afterAll (breaks : Breaks place position broken) (text : List Char) :
    Breaks place (position.afterAll text) (broken.afterAll text) := by
  induction text generalizing position broken with
  | nil => exact breaks
  | cons c text ih => exact ih (breaks.after c)

theorem breaks_after (place : Position) : Breaks place (place.after ' ') (place.after '\n') :=
  ⟨rfl, rfl, Nat.lt_add_of_pos_right (by decide), .inl ⟨rfl, rfl⟩⟩

theorem brokenAt_behind (first text : List Char) :
    (behind first).brokenAt (behind (first ++ ' ' :: text)) = behind (first ++ '\n' :: text) := by
  rw [behind_append, behind_append, afterAll_cons, afterAll_cons]
  exact ((breaks_after (behind first)).afterAll text).brokenAt_eq

theorem brokenAt_of_prefix (first text : List Char) :
    (behind (first ++ text)).brokenAt (behind first) = behind first := by
  rw [brokenAt, if_pos]
  rw [offset_behind_append]
  exact Nat.le_add_right _ _

end Position

namespace Semicolons

variable {opened : List TokenKind} {token : Token} {gap : List Char} {next : Option TokenKind}

theorem after_relocate (move : Position → Position) (opened : List TokenKind) (token : Token)
    (gap : List Char) (next : Option TokenKind) :
    (after opened token gap next).map (Token.relocate move) =
      after opened (token.relocate move) gap next := by
  unfold after
  rw [Token.relocate_kind]
  split <;> rfl

theorem eq_of_mem_after {supplied : Token} (member : supplied ∈ after opened token gap next) :
    supplied = { kind := .semicolon, position := token.position } := by
  unfold after at member
  split at member
  · exact List.mem_singleton.mp member
  · cases member

theorem supply_relocate {move : Position → Position} (opened : List TokenKind)
    {position moved : Position} (pieces : List Piece)
    (places : ∀ text, move (position.afterAll text) = moved.afterAll text) :
    (supply opened position pieces).map (Token.relocate move) = supply opened moved pieces := by
  induction pieces generalizing opened position moved with
  | nil => rfl
  | cons piece pieces ih =>
      have here : move position = moved := places []
      have later (text : List Char) : move ((position.afterAll (piece.span ++ piece.gap)).afterAll
          text) = (moved.afterAll (piece.span ++ piece.gap)).afterAll text := by
        rw [← Position.afterAll_append, ← Position.afterAll_append]
        exact places _
      have more := ih (openAfter opened piece.kind) later
      rw [supply, List.map_cons, List.map_append, after_relocate, more, ← here]
      rfl

theorem exists_piece_of_mem_supply {front : List Char} {pieces : List Piece}
    (member : token ∈ supply opened (.behind front) pieces) (other : token.kind ≠ .semicolon) :
    ∃ earlier piece more, pieces = earlier ++ piece :: more ∧ token.kind = piece.kind ∧
      token.position = .behind (front ++ Piece.text earlier) := by
  induction pieces generalizing opened front with
  | nil => cases member
  | cons piece pieces ih =>
      rw [supply, List.mem_cons, List.mem_append] at member
      rcases member with rfl | supplied | later
      · exact ⟨[], piece, pieces, rfl, rfl, by rw [Piece.text, List.flatMap_nil, List.append_nil]⟩
      · rw [eq_of_mem_after supplied] at other
        exact absurd rfl other
      · rw [← Position.behind_append] at later
        obtain ⟨earlier, found, more, shape, kind, place⟩ := ih later
        refine ⟨piece :: earlier, found, more, by rw [shape]; rfl, kind, ?_⟩
        rw [place, Piece.text_cons, List.append_assoc]

theorem exists_supply_append (opened : List TokenKind) (front : List Char) (pieces : List Piece)
    (next : TokenKind) : ∃ tokens opened',
      (∀ token ∈ tokens, ∃ first more, front ++ Piece.text pieces = first ++ more ∧
        token.position = .behind first) ∧
      ∀ piece more, piece.kind = next → supply opened (.behind front) (pieces ++ piece :: more) =
        tokens ++ supply opened' (.behind (front ++ Piece.text pieces)) (piece :: more) := by
  induction pieces generalizing opened front with
  | nil =>
      refine ⟨[], opened, nofun, fun piece more _ => ?_⟩
      rw [Piece.text, List.flatMap_nil, List.append_nil]
      rfl
  | cons piece pieces ih =>
      let token : Token := ⟨piece.kind, piece.lexeme, .behind front⟩
      obtain ⟨tokens, opened', places, whole⟩ :=
        ih (openAfter opened piece.kind) (front ++ (piece.span ++ piece.gap))
      have text_eq : front ++ (piece.span ++ piece.gap) ++ Piece.text pieces =
          front ++ Piece.text (piece :: pieces) := by
        rw [Piece.text_cons, List.append_assoc]
      rw [text_eq] at places whole
      let supplied := after (openAfter opened piece.kind) token piece.gap
        (some ((pieces.head?.map Piece.kind).getD next))
      refine ⟨token :: (supplied ++ tokens), opened', fun found member => ?_,
        fun last more is => ?_⟩
      · rw [List.mem_cons, List.mem_append] at member
        rcases member with rfl | member | member
        · exact ⟨front, _, rfl, rfl⟩
        · exact ⟨front, _, rfl, by rw [eq_of_mem_after member]⟩
        · exact places found member
      · have following : (pieces ++ last :: more).head?.map Piece.kind =
            some ((pieces.head?.map Piece.kind).getD next) := by
          cases pieces with
          | nil => exact congrArg some is
          | cons => rfl
        rw [List.cons_append, supply, following, ← Position.behind_append, whole last more is,
          List.cons_append, List.append_assoc]

theorem Wanted.lineEnd {kind : TokenKind} (wanted : Wanted opened kind (gap ++ [' ']) next) :
    Wanted opened kind (gap ++ ['\n']) next := by
  obtain ⟨ends, ⟨lineEnd | inputEnd, lines⟩ | closing⟩ := wanted
  · exact ⟨ends, .inl ⟨.inl (by simp), lines⟩⟩
  · exact ⟨ends, .inl ⟨.inr inputEnd, lines⟩⟩
  · exact ⟨ends, .inr closing⟩

/-- The line end may stand for a semicolon where the space does not, but then it stands behind a
token that ends a statement. -/
theorem after_lineEnd (opened : List TokenKind) (token : Token) (gap : List Char)
    (next : Option TokenKind) :
    after opened token (gap ++ ['\n']) next = after opened token (gap ++ [' ']) next ∨
      after opened token (gap ++ [' ']) next = [] ∧ token.kind ≠ .semicolon ∧
        after opened token (gap ++ ['\n']) next =
          [{ kind := .semicolon, position := token.position }] := by
  unfold after
  by_cases wanted : Wanted opened token.kind (gap ++ [' ']) next
  · left
    rw [if_pos wanted, if_pos wanted.lineEnd]
  · by_cases more : Wanted opened token.kind (gap ++ ['\n']) next
    · right
      refine ⟨if_neg wanted, fun semicolon => ?_, if_pos more⟩
      have ends := more.1
      rw [semicolon] at ends
      exact absurd ends (by decide)
    · left
      rw [if_neg wanted, if_neg more]

end Semicolons

theorem Token.relocate_eq {move : Position → Position} {token : Token}
    (stays : move token.position = token.position) : token.relocate move = token := by
  rw [relocate, stays]

/-- Two lists of tokens, the second of which has those of the first at other places and a semicolon
more, right before a word `else`. -/
structure Parted (move : Position → Position) (tokens others front back : List Token)
    (mark word : Token) : Prop where
  first : tokens = front ++ word :: back
  second : others =
    front.map (Token.relocate move) ++ mark :: (word :: back).map (Token.relocate move)
  semicolon : mark.kind = .semicolon
  isWord : word.kind = .elseWord
  apart : ∀ last, front.getLast? = some last → last.kind ≠ .semicolon

namespace Seam

variable {seam : Seam}

open Semicolons in
/-- With a line end for the space before a word `else` the tokens are at their new places, and a
semicolon may have come before the word. -/
theorem tokens_lineEnd (isWord : seam.next.kind = .elseWord) {move : Position → Position}
    (moves : move = (Position.behind seam.before).brokenAt) :
    (seam.cut '\n').tokens = (seam.cut ' ').tokens.map (Token.relocate move) ∨
      ∃ front back mark word,
        Parted move (seam.cut ' ').tokens (seam.cut '\n').tokens front back mark word := by
  let earlier := seam.lead ++ Piece.text seam.pieces
  obtain ⟨front, opened, places, whole⟩ :=
    exists_supply_append [] seam.lead seam.pieces seam.piece.kind
  let token : Token := ⟨seam.piece.kind, seam.piece.lexeme, .behind earlier⟩
  let opened' := openAfter opened seam.piece.kind
  let supplied (c : Char) := after opened' token (seam.gap ++ [c]) (some seam.next.kind)
  let place (c : Char) := (Position.behind earlier).afterAll (seam.piece.span ++ (seam.gap ++ [c]))
  let behind (c : Char) := supply opened' (place c) (seam.next :: seam.more)
  have shape (c : Char) :
      (seam.cut c).tokens = (front ++ [token]) ++ (supplied c ++ behind c) := by
    rw [Cut.tokens, Position.start_afterAll, ← List.append_cons]
    exact whole (seam.piece.withGap (seam.gap ++ [c])) (seam.next :: seam.more) rfl
  have later : (behind ' ').map (Token.relocate move) = behind '\n' := by
    apply supply_relocate
    intro text
    have moved := Position.brokenAt_behind (earlier ++ (seam.piece.span ++ seam.gap)) text
    rw [moves]
    simpa [Seam.before, earlier, place, Position.behind_append, Position.afterAll_append]
      using moved
  have stays (found : Token) (member : found ∈ front ++ [token]) : found.relocate move = found := by
    apply Token.relocate_eq
    rw [moves, Seam.before]
    rcases List.mem_append.mp member with member | member
    · obtain ⟨first, rest, split, there⟩ := places found member
      rw [there, split, List.append_assoc]
      exact Position.brokenAt_of_prefix first _
    · rw [List.mem_singleton.mp member]
      exact Position.brokenAt_of_prefix _ _
  have kept : (front ++ [token]).map (Token.relocate move) = front ++ [token] := by
    rw [List.map_congr_left stays]
    exact List.map_id _
  rw [shape, shape]
  rcases after_lineEnd opened' token seam.gap (some seam.next.kind) with same | ⟨none, other, one⟩
  · left
    have still : (supplied ' ').map (Token.relocate move) = supplied '\n' := by
      rw [after_relocate, stays token (by simp)]
      exact same.symm
    rw [List.map_append, kept, List.map_append, still, later]
  · right
    let mark : Token := { kind := .semicolon, position := token.position }
    obtain ⟨found, back, split, is⟩ : ∃ found back, behind ' ' = found :: back ∧
        found.kind = .elseWord := ⟨_, _, rfl, isWord⟩
    have nothing : supplied ' ' = [] := none
    have mark_eq : supplied '\n' = [mark] := one
    refine ⟨front ++ [token], back, mark, found, ?_, ?_, rfl, is, ?_⟩
    · rw [nothing, List.nil_append, split]
    · rw [mark_eq, ← split, later, kept]
      rfl
    · intro last ends
      rw [List.getLast?_append] at ends
      cases ends
      exact other

end Seam

def Items.Are (items : Items) (tokens : List Token) (last : Token) : Prop :=
  ∀ n, items n = .ok (tokens[n]?.getD last)

theorem Lexer.Passes.are {lexer after : Lexer} {tokens : List Token} {last : Token}
    (passes : Passes lexer tokens after) (sound : lexer.Sound) (next : after.next.1 = .ok last)
    (ended : last.kind = .endOfInput) : Items.Are lexer.item tokens last := by
  intro n
  rcases Nat.lt_or_ge n tokens.length with inside | beyond
  · rw [passes.item_lt n inside, List.getElem?_eq_getElem inside, Option.getD_some]
  · rw [passes.item_of_le sound next ended beyond, List.getElem?_eq_none beyond, Option.getD_none]

section

variable {move : Position → Position} {tokens others front back : List Token}
  {mark word last : Token} {first second : Items}

theorem Items.Are.relocate (are : first.Are tokens last)
    (also : second.Are (tokens.map (Token.relocate move)) (last.relocate move)) (n : Nat) :
    ∃ token, first n = .ok token ∧ second n = .ok (token.relocate move) := by
  refine ⟨_, are n, ?_⟩
  rw [also, List.getElem?_map, Option.getD_map]

def Parted.interposed (parted : Parted move tokens others front back mark word)
    (are : first.Are tokens last) (also : second.Are others (last.relocate move)) : Interposed where
  move := move
  items := first
  others := second
  gap := front.length
  sooner {n} lt {token} here := by
    rw [are, parted.first, List.getElem?_append_left lt] at here
    rw [also, parted.second, List.getElem?_append_left (by rwa [List.length_map]),
      List.getElem?_map, Option.getD_map, Except.ok.inj here]
  semicolon := ⟨mark, by rw [also, parted.second]; simp, parted.semicolon⟩
  word := ⟨word, by rw [are, parted.first]; simp, parted.isWord⟩
  later {n} le {token} here := by
    obtain ⟨k, rfl⟩ := Nat.exists_eq_add_of_le le
    rw [are, parted.first, List.getElem?_append_right le, Nat.add_sub_cancel_left] at here
    rw [also, parted.second, List.getElem?_append_right (by rw [List.length_map]; omega),
      List.length_map, Nat.add_assoc, Nat.add_sub_cancel_left, List.getElem?_cons_succ,
      List.getElem?_map, Option.getD_map, Except.ok.inj here]
  apart {n} next := by
    rintro ⟨token, here, semicolon⟩
    have inside : n < front.length := by omega
    have ends : front.getLast? = some token := by
      rw [are, parted.first, List.getElem?_append_left inside, List.getElem?_eq_getElem inside,
        Option.getD_some] at here
      rw [List.getLast?_eq_getElem?, ← next, Nat.add_sub_cancel, List.getElem?_eq_getElem inside,
        Except.ok.inj here]
    exact parted.apart token ends semicolon

theorem Elements.broken {budget : Nat} {entries : List Entry} {short long : TokenStream}
    (listed : Elements (Grammar.entry budget) short entries)
    (stands : short.StandsAt first 0) (stands' : long.StandsAt second 0)
    (are : first.Are tokens last) (also : second.Are others (last.relocate move))
    (compared : others = tokens.map (Token.relocate move) ∨
      ∃ front back mark word, Parted move tokens others front back mark word) :
    Elements (Grammar.entry budget) long (entries.map (Entry.relocate move)) := by
  rcases compared with rfl | ⟨front, back, mark, word, parted⟩
  · exact .moved (are.relocate also) (entry_carries budget) listed stands long stands'
  · let pair := parted.interposed are also
    have start : pair.seat 0 = 0 := Interposed.seat_of_le (Nat.zero_le _)
    have shortStands : short.StandsAt pair.items 0 := stands
    have longStands : long.StandsAt pair.others (pair.seat 0) := by rwa [start]
    exact listed.crosses shortStands long longStands

end

theorem Bytes.exists_of_ofChars_eq {text : List Char} {before : Bytes} {byte : UInt8} {c : Char}
    (single : String.utf8EncodeChar c = [byte]) (shape : ofChars text = before ++ [byte]) :
    ∃ first, text = first ++ [c] ∧ before = ofChars first := by
  rcases List.eq_nil_or_concat' text with rfl | ⟨first, d, rfl⟩
  · simp at shape
  · rcases List.eq_nil_or_concat' (String.utf8EncodeChar d) with none | ⟨early, final, split⟩
    · exact absurd none String.utf8EncodeChar_ne_nil
    · rw [ofChars_append, ofChars_cons, ofChars_nil, List.append_nil, split,
        ← List.append_assoc] at shape
      obtain ⟨same, last⟩ := List.append_inj' shape rfl
      cases last
      obtain ⟨rfl, rfl⟩ := Glyph.encodeChar_of_single single d early [] split
      exact ⟨first, rfl, by rw [← same, List.append_nil]⟩

theorem Lexeme.Spells.getLast?_ne_space {span : List Char} {kind : TokenKind} {lexeme : String}
    (spells : Spells span kind lexeme) : span.getLast? ≠ some ' ' := by
  intro ends
  have member := List.mem_of_getLast? ends
  cases spells with
  | @name c more starts continues =>
      have named : continuesName ' ' = true := by
        rcases List.mem_cons.mp member with rfl | member
        · exact continuesName_of_startsName ' ' starts
        · exact List.all_eq_true.mp continues _ member
      exact absurd named (by decide)
  | @number c more unnamed digit digits =>
      have digit : Text.isDecimalDigit ' ' = true := by
        rcases List.mem_cons.mp member with rfl | member
        · exact digit
        · exact List.all_eq_true.mp digits _ member
      exact absurd digit (by decide)
  | text =>
      rw [List.getLast?_append] at ends
      cases ends
  | sign listed =>
      have each : ∀ kind ∈ signs, kind.name.toList.getLast? ≠ some ' ' := by decide
      exact each kind listed ends

theorem Piece.Begins.exists_gap {piece : Piece} {left front text : List Char}
    (begins : piece.Begins left) (shape : front ++ (piece.span ++ piece.gap) = text ++ [' ']) :
    ∃ gap, piece.gap = gap ++ [' '] ∧ text = front ++ (piece.span ++ gap) := by
  rcases List.eq_nil_or_concat' piece.gap with none | ⟨gap, c, split⟩
  · obtain ⟨early, d, ends⟩ :=
      (List.eq_nil_or_concat' piece.span).resolve_left begins.spells.ne_nil
    rw [none, List.append_nil, ends, ← List.append_assoc] at shape
    have last := (List.append_inj' shape rfl).2
    cases last
    exact absurd (by rw [ends, List.getLast?_concat]) begins.spells.getLast?_ne_space
  · rw [split, ← List.append_assoc, ← List.append_assoc] at shape
    obtain ⟨same, last⟩ := List.append_inj' shape rfl
    cases last
    exact ⟨gap, split, by rw [← same, List.append_assoc]⟩

theorem Cut.Scans.exists_seam {cut : Cut} {before rest : Bytes} {token : Token}
    (scans : cut.Scans) (source : Bytes.ofChars cut.text = before ++ 32 :: rest)
    (member : token ∈ cut.tokens) (proper : token.kind ≠ .semicolon)
    (there : token.position.offset = before.length + 1)
    (further : ∀ piece, cut.pieces.head? = some piece → piece.kind ≠ token.kind) :
    ∃ seam : Seam, cut = seam.cut ' ' ∧ seam.next.kind = token.kind ∧
      before = Bytes.ofChars seam.before ∧ rest = Bytes.ofChars seam.behind := by
  obtain ⟨lead, all⟩ := cut
  rw [Cut.tokens, Position.start_afterAll] at member
  obtain ⟨earlier, word, more, split, kind, place⟩ :=
    Semicolons.exists_piece_of_mem_supply member proper
  dsimp only at split further
  subst split
  -- Up to the token the text has the bytes before the space, and the space.
  have parts : Bytes.ofChars (lead ++ Piece.text earlier) ++
      Bytes.ofChars (Piece.text (word :: more)) = before ++ [32] ++ rest := by
    rw [← Bytes.ofChars_append, List.append_assoc, ← Piece.text_append, List.append_assoc]
    exact source
  have length : (Bytes.ofChars (lead ++ Piece.text earlier)).length = (before ++ [32]).length := by
    rw [place] at there
    rw [List.length_append, List.length_singleton]
    exact there
  obtain ⟨ends, rest_eq⟩ := List.append_inj parts length
  have space : String.utf8EncodeChar ' ' = [32] := by simp [String.utf8EncodeChar]
  obtain ⟨text, shape, before_eq⟩ := Bytes.exists_of_ofChars_eq space ends
  rcases List.eq_nil_or_concat' earlier with rfl | ⟨pieces, piece, rfl⟩
  · exact absurd kind.symm (further word rfl)
  · rw [List.append_assoc, List.singleton_append] at scans
    have shape' : lead ++ Piece.text pieces ++ (piece.span ++ piece.gap) = text ++ [' '] := by
      rw [← shape]
      simp [Piece.text]
    obtain ⟨gap, gap_eq, text_eq⟩ := scans.scanned.begins.exists_gap shape'
    refine ⟨⟨lead, pieces, piece, gap, word, more⟩, ?_, kind.symm, ?_, rest_eq.symm⟩
    · rw [Seam.cut, List.append_assoc, List.singleton_append, ← gap_eq]
      rfl
    · rw [before_eq, text_eq]
      rfl

namespace Entry

variable {seam : Seam} {entries : List Entry}

theorem parseAll_lineEnd (isWord : seam.next.kind = .elseWord) (scans : (seam.cut ' ').Scans)
    (read : parseAll (Bytes.ofChars (seam.cut ' ').text) = .ok entries) :
    parseAll (Bytes.ofChars (seam.cut '\n').text) =
      .ok (entries.map (relocate (.brokenAt (.behind seam.before)))) := by
  let move := (Position.behind seam.before).brokenAt
  obtain ⟨short, stands, listed⟩ := exists_elements (Nat.le_refl _) read
  obtain ⟨after, passes, next⟩ := scans.exists_passes
  obtain ⟨after', passes', next'⟩ := (Seam.scans_lineEnd scans).exists_passes
  have are := passes.are (Lexer.sound_of_free _ rfl) next rfl
  have also := passes'.are (Lexer.sound_of_free _ rfl) next' rfl
  have last : (⟨.endOfInput, "", .behind (seam.cut '\n').text⟩ : Token) =
      Token.relocate move ⟨.endOfInput, "", .behind (seam.cut ' ').text⟩ := by
    rw [Token.relocate, Seam.text_cut, Seam.text_cut]
    exact congrArg (Token.mk _ _) (Position.brokenAt_behind seam.before seam.behind).symm
  rw [last] at also
  obtain ⟨long, started, sound, each⟩ := exists_stream _ 0 _ (also 0)
  have stands' : long.StandsAt (Lexer.ofSource (Bytes.ofChars (seam.cut '\n').text)).item 0 :=
    ⟨sound, fun i => by rw [each, Nat.zero_add]⟩
  have room : Grammar.budgetOf (Bytes.ofChars (seam.cut '\n').text) ≤
      Grammar.budgetOf (Bytes.ofChars (seam.cut ' ').text) := by
    have sizes : '\n'.utf8Size = ' '.utf8Size := by decide
    rw [Seam.text_cut, Seam.text_cut, Grammar.budgetOf, Grammar.budgetOf]
    simp [String.length_utf8EncodeChar, sizes]
  exact parseAll_of_elements room started
    (listed.broken stands stands' are also (Seam.tokens_lineEnd isWord rfl))

/-- A line end before `else` is neutral. Where interactive input has the word behind a space, the
same input with a line end for that space is read too, with the same entries but for the places:
those behind the line end are one line further down. -/
theorem parseAll_lineEnd_before_else (before after : Bytes) (entries : List Entry) (token : Token)
    (read : parseAll (before ++ Bytes.ofString " else " ++ after) = .ok entries)
    (lexed : .ok token ∈ Lexer.readAll (before ++ Bytes.ofString " else " ++ after) 0)
    (isWord : token.kind = .elseWord) (there : token.position.offset = before.length + 1) :
    ∃ text, before = Bytes.ofChars text ∧
      parseAll (before ++ Bytes.ofString "\nelse " ++ after) =
        .ok (entries.map (relocate (.brokenAt (.behind text)))) := by
  obtain ⟨stream, stands, listed⟩ := exists_elements (Nat.le_refl _) read
  obtain ⟨_, _, completes⟩ := Elements.exists_completes (entry_carries _) listed stands
  obtain ⟨cut, scans, source⟩ := completes.faultless.exists_scans
  obtain ⟨reached, passes, next⟩ := scans.exists_passes
  rw [← source] at passes
  have member : token ∈ cut.tokens := by
    rw [Lexer.readAll_of_passes passes (by rw [next]; rfl), next] at lexed
    simp only [List.mem_append, List.mem_map, List.mem_singleton] at lexed
    rcases lexed with ⟨_, member, same⟩ | last
    · cases same
      exact member
    · cases last
      cases isWord
  have further (piece : Piece) (first : cut.pieces.head? = some piece) :
      piece.kind ≠ token.kind := by
    obtain ⟨pieces, shape⟩ := List.head?_eq_some_iff.mp first
    have here := stands.current
    rw [passes.are (Lexer.sound_of_free _ rfl) next rfl, Cut.tokens, shape] at here
    have first_kind : stream.current.kind = piece.kind := by
      rw [← Except.ok.inj here]
      rfl
    rw [isWord, ← first_kind]
    exact listed.ne_else
  have split : Bytes.ofChars cut.text = before ++ 32 :: (Bytes.ofString "else " ++ after) := by
    rw [← source, List.append_assoc]
    rfl
  obtain ⟨seam, rfl, kind, before_eq, rest_eq⟩ :=
    scans.exists_seam split member (by rw [isWord]; decide) there further
  rw [source] at read
  have moved := parseAll_lineEnd (kind.trans isWord) scans read
  refine ⟨seam.before, before_eq, ?_⟩
  have same : Bytes.ofChars (seam.cut '\n').text = before ++ Bytes.ofString "\nelse " ++ after := by
    rw [Seam.text_cut, Bytes.ofChars_append, Bytes.ofChars_cons, ← before_eq, ← rest_eq,
      List.append_assoc]
    rfl
  rwa [same] at moved

def assignedSample : Bytes :=
  Bytes.ofString "x = if (a) b++"

def assignedEntry : Entry :=
  .expression <| .assign "x"
    (.branch (.identifier "a" ⟨8, 1, 9⟩)
      (.update .increment false (.identifier "b" ⟨11, 1, 12⟩) ⟨12, 1, 13⟩)
      (some (.identifier "d" ⟨20, 1, 21⟩)) ⟨4, 1, 5⟩) ⟨0, 1, 1⟩

theorem parseAll_lineEnd_before_else_sample :
    parseAll (assignedSample ++ Bytes.ofString " else " ++ Bytes.ofString "d") =
        .ok [assignedEntry] ∧
      .ok ⟨.elseWord, "else", ⟨15, 1, 16⟩⟩ ∈
        Lexer.readAll (assignedSample ++ Bytes.ofString " else " ++ Bytes.ofString "d") 0 ∧
      ∃ text, assignedSample = Bytes.ofChars text ∧
        parseAll (assignedSample ++ Bytes.ofString "\nelse " ++ Bytes.ofString "d") =
          .ok ([assignedEntry].map (relocate (.brokenAt (.behind text)))) := by
  have read : parseAll (assignedSample ++ Bytes.ofString " else " ++ Bytes.ofString "d") =
      .ok [assignedEntry] := by decide +kernel
  have lexed : .ok ⟨.elseWord, "else", ⟨15, 1, 16⟩⟩ ∈
      Lexer.readAll (assignedSample ++ Bytes.ofString " else " ++ Bytes.ofString "d") 0 := by
    apply List.mem_of_getElem? (i := 8)
    decide +kernel
  exact ⟨read, lexed, parseAll_lineEnd_before_else assignedSample (Bytes.ofString "d")
    [assignedEntry] ⟨.elseWord, "else", ⟨15, 1, 16⟩⟩ read lexed rfl rfl⟩

end Entry

end Koy
