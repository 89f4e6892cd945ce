import Koy.Proofs.MovedReading
import Koy.Proofs.TextLines
import Koy.SourceFile

/-! The first line of a program file. A line that starts with a number sign and an exclamation mark is
for the system that runs the file. A program behind such a line is read as behind a comment in its
place: only the bytes before it are counted otherwise. -/

namespace Koy

theorem Bytes.length_ofString (text : String) : (ofString text).length = text.utf8ByteSize := by
  rw [← String.size_toByteArray, ← String.utf8Encode_toList, List.utf8Encode,
    List.size_toByteArray]
  rfl

namespace Trivia

theorem atStop_of_scanFrom (mode : Mode) (newline : Bool) (text : List Glyph) {fault : LexicalFault}
    (failed : (scanFrom mode newline text).result = .error fault) : fault.atStop = true := by
  fun_induction scanFrom mode newline text with
  | case1 | case2 | case8 => cases failed
  | case3 | case4 =>
      cases failed
      rfl
  | case5 _ _ ih | case6 _ _ ih | case9 _ _ ih | case11 _ _ ih => exact ih failed
  | case10 _ _ _ _ ih | case12 _ _ _ _ ih => exact ih failed
  | case7 _ _ _ _ _ _ ih => exact ih failed

theorem scan_emptyLine (rest : List Glyph) :
    scan (.char '\n' :: rest) = (scanFrom .plain true rest).behind ['\n'] := by
  rw [scan, scanFrom, if_pos (by decide)]
  · rfl
  · simp
  · simp

/-- Behind a comment that fills a line the next line is reached as behind an empty line. -/
theorem scan_commentLine (body : List Char) (rest : List Glyph) (inside : '\n' ∉ body) :
    scan (.char '/' :: .char '/' :: (body.map .char ++ .char '\n' :: rest)) =
      (scanFrom .plain true rest).behind ('/' :: '/' :: (body ++ ['\n'])) := by
  have ended : scanFrom .line false (.char '\n' :: rest) =
      (scanFrom .plain true rest).behind ['\n'] := by
    rw [scanFrom, if_pos rfl]
  rw [scan, scanFrom, scanFrom_lineBody false body _ inside, ended]
  simp [Scan.behind]

end Trivia

section

variable {line : String} (single : '\n' ∉ line.toList) (rest : Bytes)

include single

theorem programText_firstLine :
    programText (Bytes.ofString ("#!" ++ line ++ "\n") ++ rest) = 10 :: rest := by
  have inside : ∀ byte ∈ Bytes.ofString line, decide (byte ≠ 10) = true := by
    intro byte member
    refine decide_eq_true ?_
    rintro rfl
    exact single ((Text.lineEnd_mem_ofString line).mp member)
  have shape : Bytes.ofString ("#!" ++ line ++ "\n") ++ rest =
      35 :: 33 :: (Bytes.ofString line ++ 10 :: rest) := by
    rw [Bytes.ofString_append, Bytes.ofString_append, List.append_assoc, List.append_assoc]
    rfl
  calc
    programText (Bytes.ofString ("#!" ++ line ++ "\n") ++ rest) =
        (35 :: 33 :: (Bytes.ofString line ++ 10 :: rest)).dropWhile (· ≠ 10) := by
      rw [shape, programText]
    _ = (Bytes.ofString line ++ 10 :: rest).dropWhile (· ≠ 10) := rfl
    _ = (10 :: rest).dropWhile (· ≠ 10) := List.dropWhile_append_of_pos inside
    _ = 10 :: rest := rfl

/-- The first line as a comment ends lower in bytes than its end alone, and in nothing else. -/
theorem Position.afterAll_commentLine :
    start.afterAll ('/' :: '/' :: (line.toList ++ ['\n'])) =
      (start.afterAll ['\n']).below (2 + line.utf8ByteSize) 0 := by
  let text := '/' :: '/' :: (line.toList ++ ['\n'])
  have ends : text.getLast? = some '\n' :=
    List.getLast?_eq_some_iff.mpr ⟨'/' :: '/' :: line.toList, rfl⟩
  have encoded : Bytes.ofChars text = 47 :: 47 :: (Bytes.ofString line ++ [10]) := by
    rw [Bytes.ofChars_cons, Bytes.ofChars_cons, Bytes.ofChars_append]
    rfl
  have bytes : (Bytes.ofChars text).length = 3 + line.utf8ByteSize := by
    rw [encoded, ← Bytes.length_ofString]
    simp +arith
  have lines : (Bytes.ofChars text).count 10 = 1 := by
    have absent : (Bytes.ofString line).count 10 = 0 :=
      List.count_eq_zero.mpr fun member => single ((Text.lineEnd_mem_ofString line).mp member)
    simp [encoded, absent]
  calc
    start.afterAll text = start.below (3 + line.utf8ByteSize) 1 := by
      rw [start_below_eq text ends, bytes, lines]
    _ = (start.afterAll ['\n']).below (2 + line.utf8ByteSize) 0 := by
      have ended : start.afterAll ['\n'] = ⟨1, 2, 1⟩ := rfl
      rw [ended]
      simp +arith [below, start]

abbrev Lexer.belowComment (line : String) : Position → Position :=
  .below (2 + line.utf8ByteSize) 0

namespace Lexer

omit single in
theorem scan_emptyLine : Trivia.scan (ofSource (10 :: rest)).rest =
    (Trivia.scanFrom .plain true (Glyph.decode rest)).behind ['\n'] := by
  have decoded : (ofSource (10 :: rest)).rest = .char '\n' :: Glyph.decode rest :=
    Glyph.decode_encodeChar_append '\n' rest
  rw [decoded, Trivia.scan_emptyLine]

theorem scan_commentLine :
    Trivia.scan (ofSource (Bytes.ofString ("//" ++ line ++ "\n") ++ rest)).rest =
      (Trivia.scanFrom .plain true (Glyph.decode rest)).behind
        ('/' :: '/' :: (line.toList ++ ['\n'])) := by
  have decoded : (ofSource (Bytes.ofString ("//" ++ line ++ "\n") ++ rest)).rest =
      .char '/' :: .char '/' :: (line.toList.map .char ++ .char '\n' :: Glyph.decode rest) := by
    change Glyph.decode (Bytes.ofChars _ ++ rest) = _
    rw [Glyph.decode_ofChars_append]
    simp
  rw [decoded, Trivia.scan_commentLine _ _ single]

theorem pastTrivia_commentLine :
    (ofSource (Bytes.ofString ("//" ++ line ++ "\n") ++ rest)).pastTrivia =
      (ofSource (10 :: rest)).pastTrivia.relocate (belowComment line) := by
  let span := (Trivia.scanFrom .plain true (Glyph.decode rest)).span
  have reached : Position.start.afterAll ('/' :: '/' :: (line.toList ++ ['\n']) ++ span) =
      (Position.start.afterAll (['\n'] ++ span)).below (2 + line.utf8ByteSize) 0 := by
    rw [Position.afterAll_append, Position.afterAll_append, Position.afterAll_commentLine single,
      ← Position.below_afterAll]
  rw [pastTrivia, pastTrivia, scan_commentLine single, scan_emptyLine, relocate, moveOn, moveOn]
  exact congrArg (fun place => Lexer.mk _ place none none []) reached

theorem next_commentLine :
    (ofSource (Bytes.ofString ("//" ++ line ++ "\n") ++ rest)).next =
      Prod.map (relocateResult (belowComment line) (Token.relocate (belowComment line)))
        (relocate (belowComment line)) (ofSource (10 :: rest)).next := by
  let empty := ofSource (10 :: rest)
  let comment := ofSource (Bytes.ofString ("//" ++ line ++ "\n") ++ rest)
  have behind : comment.pastTrivia = empty.pastTrivia.relocate (belowComment line) :=
    pastTrivia_commentLine single rest
  have same : (Trivia.scan comment.rest).result = (Trivia.scan empty.rest).result := by
    rw [scan_commentLine single, scan_emptyLine]
    rfl
  cases passed : (Trivia.scan empty.rest).result with
  | error fault =>
      have atStop := Trivia.atStop_of_scanFrom .plain false empty.rest passed
      rw [next_of_faultyTrivia comment rfl (same.trans passed),
        next_of_faultyTrivia empty rfl passed, behind]
      simp [report, atStop, relocateResult, SyntaxError.relocate, SyntaxError.Cause.relocate, relocate]
  | ok newline =>
      calc
        comment.next = comment.pastTrivia.readToken := next_ofSource (same.trans passed)
        _ = (empty.pastTrivia.relocate (belowComment line)).readToken := by rw [behind]
        _ = _ := by rw [readToken_relocate, next_ofSource passed]

end Lexer

theorem Program.parse_commentLine :
    Program.parse (Bytes.ofString ("//" ++ line ++ "\n") ++ rest) =
      relocateResult (.below (2 + line.utf8ByteSize) 0)
        (Program.relocate (.below (2 + line.utf8ByteSize) 0)) (Program.parse (10 :: rest)) := by
  let shift : Shift := ⟨2 + line.utf8ByteSize, 0⟩
  have moved : TokenStream.ofSource (Bytes.ofString ("//" ++ line ++ "\n") ++ rest) =
      relocateResult shift.move (TokenStream.relocate shift.move)
        (TokenStream.ofSource (10 :: rest)) := by
    have stepped := Lexer.next_commentLine single rest
    rw [TokenStream.ofSource, TokenStream.ofLexer, stepped, TokenStream.ofSource,
      TokenStream.ofLexer]
    rcases (Lexer.ofSource (10 :: rest)).next with ⟨_ | _, _⟩ <;> rfl
  exact Grammar.runOn_relocate Program.reader_steady
    (fun budget => Program.reader_relocates (Nat.le_refl budget)) moved

end

/-- A program file with a first line for the system is read as the same file with a comment in the
place of that line: the programs differ only in the bytes before each place, which are fewer by the
mark and the rest of the line, or both files are refused with the same message. -/
theorem Program.parse_programText (line : String) (single : '\n' ∉ line.toList) (rest : Bytes) :
    (∃ program, Program.parse (programText (Bytes.ofString ("#!" ++ line ++ "\n") ++ rest)) =
        .ok program ∧
      Program.parse (Bytes.ofString ("//" ++ line ++ "\n") ++ rest) =
        .ok (program.relocate (.below (2 + line.utf8ByteSize) 0))) ∨
    ∃ refusal refusal', Program.parse (programText (Bytes.ofString ("#!" ++ line ++ "\n") ++ rest)) =
        .error refusal ∧
      Program.parse (Bytes.ofString ("//" ++ line ++ "\n") ++ rest) = .error refusal' ∧
      refusal'.incomplete = refusal.incomplete ∧
      ∀ source, refusal'.message source = refusal.message source := by
  rw [programText_firstLine single rest, Program.parse_commentLine single rest]
  cases Program.parse (10 :: rest) with
  | ok program => exact .inl ⟨program, rfl, rfl⟩
  | error refusal =>
      right
      exact ⟨refusal, _, rfl, rfl, refusal.incomplete_relocate _, refusal.message_relocate _⟩

theorem Program.parse_programText_sample :
    '\n' ∉ " koyß".toList ∧
    (∃ program,
      Program.parse (programText (Bytes.ofString ("#!" ++ " koyß" ++ "\n") ++
        Bytes.ofString "let x = 1")) = .ok program ∧
      Program.parse (Bytes.ofString ("//" ++ " koyß" ++ "\n") ++ Bytes.ofString "let x = 1") =
        .ok (program.relocate (.below 8 0))) ∧
    ∃ refusal refusal',
      Program.parse (programText (Bytes.ofString ("#!" ++ " koyß" ++ "\n") ++
        Bytes.ofString "let x =")) = .error refusal ∧
      Program.parse (Bytes.ofString ("//" ++ " koyß" ++ "\n") ++ Bytes.ofString "let x =") =
        .error refusal' ∧
      refusal'.incomplete = refusal.incomplete ∧
      ∀ source, refusal'.message source = refusal.message source := by
  have single : '\n' ∉ " koyß".toList := by decide
  refine ⟨single, ?_, ?_⟩
  · have accepted : (Program.parse (programText (Bytes.ofString ("#!" ++ " koyß" ++ "\n") ++
        Bytes.ofString "let x = 1"))).isOk = true := by decide +kernel
    rcases parse_programText " koyß" single (Bytes.ofString "let x = 1") with
      read | ⟨refusal, refusal', refused, -⟩
    · exact read
    · rw [refused] at accepted
      cases accepted
  · have rejected : (Program.parse (programText (Bytes.ofString ("#!" ++ " koyß" ++ "\n") ++
        Bytes.ofString "let x ="))).isOk = false := by decide +kernel
    rcases parse_programText " koyß" single (Bytes.ofString "let x =") with
      ⟨program, read, -⟩ | refused
    · rw [read] at rejected
      cases rejected
    · exact refused

end Koy
