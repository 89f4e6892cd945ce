import Koy.Proofs.PrintedWords
import Koy.Proofs.Settling
import Koy.Proofs.WordReading

/-! Going on after the word `else`. A reader that asks for more where a text ends with this word can
be satisfied: some words can be written after the text with which it succeeds. The rules here put
these words together from the parts of a reader. A `Logic` speaks of a text that is given, whereas these
words depend on the reader. -/

namespace Koy

open Parse Grammar

def Spaced (rest : List Char) : Prop :=
  rest = [] ∨ ∃ more, rest = ' ' :: more

/-- The words can be written whatever brackets are open: each after a space, from a place where a
statement may end if `pending` to one where it may end if `pending'`. -/
def Speaks (pending : Bool) (words : List Word) (pending' : Bool) : Prop :=
  ∃ text, Spaced text ∧ ∀ opened, ∃ opened',
    Lexes text words (pending, opened) (pending', opened') Spaced

namespace Speaks

variable {pending pending' pending'' : Bool} {words words' : List Word}

theorem nil (pending : Bool) : Speaks pending [] pending :=
  ⟨[], .inl rfl, fun opened => ⟨opened, fun lexer _ _ before => ⟨lexer, .nil lexer, before⟩⟩⟩

theorem append (first : Speaks pending words pending') (second : Speaks pending' words' pending'') :
    Speaks pending (words ++ words') pending'' := by
  obtain ⟨text, spaced, lexes⟩ := first
  obtain ⟨text', spaced', lexes'⟩ := second
  have meets (rest : List Char) (follow : Spaced rest) : Spaced (text' ++ rest) := by
    rcases spaced' with rfl | ⟨more, rfl⟩
    · exact follow
    · exact .inr ⟨more ++ rest, rfl⟩
  refine ⟨text ++ text', ?_, fun opened => ?_⟩
  · rcases spaced with rfl | ⟨more, rfl⟩
    · exact spaced'
    · exact .inr ⟨more ++ text', rfl⟩
  · obtain ⟨opened', here⟩ := lexes opened
    obtain ⟨opened'', there⟩ := lexes' opened'
    exact ⟨opened'', here.append there meets⟩

theorem single {word : Word} (text : List Char)
    (lexes : ∀ opened, ∃ opened', Lexes text [word] (pending, opened) (pending', opened') Spaced) :
    Speaks pending [word] pending' := by
  refine ⟨' ' :: text, .inr ⟨text, rfl⟩, fun opened => ?_⟩
  obtain ⟨opened', here⟩ := lexes opened
  exact ⟨opened', here.space (List.cons_ne_nil _ _)⟩

theorem sign (pending : Bool) (c : Char) (kind : TokenKind) (mark : Lexeme.isMark c = true)
    (reads : ∀ next, Lexeme.sign c next = .ok (kind, false)) (plain : c ≠ '/')
    (legal : kind ≠ .illegal) (block : kind = .closeBrace → pending = false) :
    Speaks pending [.sign kind] kind.endsStatement :=
  .single [c] fun opened => ⟨_, .sign c kind (pending, opened) Spaced mark (fun _ _ => reads _)
    (fun slash => absurd slash plain) legal fun closing => .inl (block closing)⟩

theorem zero (pending : Bool) : Speaks pending [(.number, "0")] true := by
  refine .single "0".toList fun opened => ⟨opened, ?_⟩
  have lexes := Lexes.number 0 (pending, opened)
  refine lexes.weaken fun rest spaced => ?_
  rcases spaced with rfl | ⟨more, rfl⟩
  · exact apart_nil
  · exact apart_cons more (by decide) (by decide)

theorem closeParen (pending : Bool) : Speaks pending [.sign .closeParen] true :=
  .sign pending ')' .closeParen (by decide) (fun _ => rfl) (by decide) (by decide) (by simp)

theorem closeBracket (pending : Bool) : Speaks pending [.sign .closeBracket] true :=
  .sign pending ']' .closeBracket (by decide) (fun _ => rfl) (by decide) (by decide) (by simp)

theorem closeBrace : Speaks false [.sign .closeBrace] true :=
  .sign false '\x7d' .closeBrace (by decide) (fun _ => rfl) (by decide) (by decide) fun _ => rfl

theorem comma (pending : Bool) : Speaks pending [.sign .comma] false :=
  .sign pending ',' .comma (by decide) (fun _ => rfl) (by decide) (by decide) (by simp)

theorem semicolon (pending : Bool) : Speaks pending [.sign .semicolon] false :=
  .sign pending ';' .semicolon (by decide) (fun _ => rfl) (by decide) (by decide) (by simp)

end Speaks

structure Halted (k : Nat) (stream : TokenStream) : Prop where
  sound : stream.Sound
  word : Items.HasAt stream.item k .elseWord
  ends : Items.HasAt stream.item (k + 1) .endOfInput

/-- The longer stream goes on with more words where the other ends. -/
structure Resumed (k : Nat) (stream longer : TokenStream) (more : List Word) : Prop where
  sound : longer.Sound
  same : ∀ i ≤ k, longer.item i = stream.item i
  word (n : Nat) : ∃ token, longer.item (k + 1 + n) = .ok token ∧ token.word = Word.nth more n

namespace Halted

variable {k : Nat} {stream after : TokenStream}

theorem proper (halted : Halted k stream) : stream.current.kind ≠ .endOfInput := by
  intro ended
  obtain ⟨token, found, is_else⟩ := halted.word
  have there := halted.sound.item_of_le (n := 0) rfl ended (Nat.zero_le k)
  rw [found] at there
  cases there
  rw [ended] at is_else
  cases is_else

theorem item_ok (halted : Halted k stream) {i : Nat} (le : i ≤ k) :
    ∃ token, stream.item i = .ok token := by
  cases found : stream.item i with
  | ok token => exact ⟨token, rfl⟩
  | error error =>
      obtain ⟨token, there, -⟩ := halted.word
      rw [stream.item_error_of_le found le] at there
      cases there

theorem exists_succ (halted : Halted k stream) (other : stream.current.kind ≠ .elseWord) :
    ∃ fewer, k = fewer + 1 := by
  cases k with
  | zero =>
      obtain ⟨token, found, is_else⟩ := halted.word
      cases found
      exact absurd is_else other
  | succ k => exact ⟨k, rfl⟩

theorem of_shift (halted : Halted (k + 1) stream)
    (shifted : ∀ i, after.item i = stream.item (i + 1)) : Halted k after := by
  refine ⟨halted.sound.of_shift shifted, ?_, ?_⟩
  · rw [Items.HasAt, shifted]
    exact halted.word
  · rw [Items.HasAt, shifted]
    exact halted.ends

theorem of_same (halted : Halted k stream) (same : stream.Same after) : Halted k after := by
  refine ⟨halted.sound.of_same same, ?_, ?_⟩
  · rw [Items.HasAt, same]
    exact halted.word
  · rw [Items.HasAt, same]
    exact halted.ends

end Halted

namespace Resumed

variable {k : Nat} {stream longer after after' : TokenStream} {more : List Word}

theorem current (resumed : Resumed k stream longer more) : longer.current = stream.current :=
  Except.ok.inj (resumed.same 0 (Nat.zero_le k))

theorem of_shift (resumed : Resumed (k + 1) stream longer more)
    (shifted : ∀ i, after.item i = stream.item (i + 1))
    (shifted' : ∀ i, after'.item i = longer.item (i + 1)) : Resumed k after after' more := by
  refine ⟨resumed.sound.of_shift shifted', fun i le => ?_, fun n => ?_⟩
  · rw [shifted, shifted']
    exact resumed.same (i + 1) (Nat.succ_le_succ le)
  · obtain ⟨token, found, spelled⟩ := resumed.word n
    refine ⟨token, ?_, spelled⟩
    rw [shifted', ← found]
    congr 1
    omega

theorem of_same (resumed : Resumed k stream longer more) (same : stream.Same after)
    (same' : longer.Same after') : Resumed k after after' more := by
  refine ⟨resumed.sound.of_same same', fun i le => ?_, fun n => ?_⟩
  · rw [same, same']
    exact resumed.same i le
  · rw [same']
    exact resumed.word n

theorem spells (resumed : Resumed 0 stream longer more)
    (shifted : ∀ i, after.item i = longer.item (i + 1)) : after.Spells more := by
  refine ⟨resumed.sound.of_shift shifted, fun n => ?_⟩
  obtain ⟨token, found, spelled⟩ := resumed.word n
  refine ⟨token, ?_, spelled⟩
  rw [shifted, ← found]
  congr 1
  omega

end Resumed

/-! The tokens of a text with the word `else` and more words after it. -/

/-- With the word `else` and more text after its own, the lexer hands out the tokens up to that word,
whatever comes after it, and then those of the text that comes. -/
def Lexer.ResumesAt (lexer : Lexer) (k : Nat) (items : Items) : Prop :=
  items.HasAt k .elseWord ∧ ∀ tail : List Char,
    (∀ c, tail.head? = some c → Lexeme.continuesName c = false) → ∃ after : Lexer,
      after.held = none ∧ after.rest = tail.map .char ∧ after.statementEnd? = none ∧
      (∀ i ≤ k, (lexer.followedBy (("else".toList ++ tail).map .char)).item i = items i) ∧
      ∀ n, (lexer.followedBy (("else".toList ++ tail).map .char)).item (k + 1 + n) = after.item n

namespace Lexer

variable {lexer after : Lexer} {token : Token}

theorem resumesAt_of_next
    (stepped : ∀ tail : List Char, (∀ c, tail.head? = some c → Lexeme.continuesName c = false) →
      ∃ after : Lexer, (lexer.followedBy (("else".toList ++ tail).map .char)).next = (.ok token, after) ∧
        after.held = none ∧ after.rest = tail.map .char ∧ after.statementEnd? = none)
    (word : token.kind = .elseWord) : lexer.ResumesAt 0 fun _ => .ok token := by
  refine ⟨⟨token, rfl, word⟩, fun tail stops => ?_⟩
  obtain ⟨after, next, free, rest, quiet⟩ := stepped tail stops
  refine ⟨after, free, rest, quiet, fun i le => ?_, fun n => ?_⟩
  · obtain rfl : i = 0 := by omega
    exact congrArg Prod.fst next
  · rw [show 0 + 1 + n = n + 1 by omega, item_succ_of_ok next]

theorem ResumesAt.cons {k : Nat} {items : Items} (resumes : after.ResumesAt k items)
    (together : ∀ tail : List Char, (lexer.followedBy (("else".toList ++ tail).map .char)).next =
      (.ok token, after.followedBy (("else".toList ++ tail).map .char))) :
    lexer.ResumesAt (k + 1) fun
      | 0 => .ok token
      | i + 1 => items i := by
  refine ⟨resumes.1, fun tail stops => ?_⟩
  obtain ⟨last, free, rest, quiet, same, later⟩ := resumes.2 tail stops
  refine ⟨last, free, rest, quiet, fun i le => ?_, fun n => ?_⟩
  · cases i with
    | zero => exact congrArg Prod.fst (together _)
    | succ i =>
        rw [item_succ_of_ok (together _)]
        exact same i (Nat.le_of_succ_le_succ le)
  · rw [show k + 1 + 1 + n = k + 1 + n + 1 by omega, item_succ_of_ok (together _)]
    exact later n

theorem OnLastLine.exists_resumesAt (last : lexer.OnLastLine) : ∃ k items, lexer.ResumesAt k items := by
  let whole (tail : List Char) : Lexer := lexer.followedBy (("else".toList ++ tail).map .char)
  have scanned (tail : List Char) : Trivia.scan (whole tail).rest =
      ⟨.ok true, (Trivia.scan lexer.rest).span ++ [], ("else".toList ++ tail).map .char⟩ :=
    last.beyond _
  have passed (tail : List Char) : (Trivia.scan (whole tail).rest).result = .ok true := by
    rw [scanned]
  have past (tail : List Char) : (whole tail).pastTrivia =
      lexer.pastTrivia.followedBy (("else".toList ++ tail).map .char) := by
    have nothing : (Trivia.scan lexer.rest).rest = [] := lexer.pastTrivia_rest ▸ last.nothing
    rw [pastTrivia, scanned, pastTrivia]
    simp [moveOn, followedBy, nothing, whole]
  have line (tail : List Char) :
      (whole tail).pastTrivia.rest = ("else".toList ++ tail).map .char := by
    rw [pastTrivia_rest, scanned]
  cases due : lexer.semicolonDue true with
  | none =>
      let word : Token := ⟨.elseWord, "else", lexer.pastTrivia.position⟩
      refine ⟨0, _, @resumesAt_of_next lexer word (fun tail stops => ?_) rfl⟩
      have next := next_else (whole tail) last.free true (passed tail) tail (line tail) stops due
      rw [past] at next
      exact next
  | some before =>
      -- The line end stands for a semicolon; the word comes after it.
      let supplied := semicolonAfter before
      let after := lexer.pastTrivia.emit supplied
      let word : Token := ⟨.elseWord, "else", after.position⟩
      have resumes : after.ResumesAt 0 fun _ => .ok word := by
        refine resumesAt_of_next (fun tail stops => ?_) rfl
        have here : (after.followedBy (("else".toList ++ tail).map .char)).rest =
            ("else".toList ++ tail).map .char := by
          change lexer.pastTrivia.rest ++ _ = _
          rw [last.nothing]
          rfl
        have solid : Trivia.scan (("else".toList ++ tail).map .char) =
            ⟨.ok false, [], ("else".toList ++ tail).map .char⟩ :=
          Trivia.scan_solid 'e' (['l', 's', 'e'] ++ tail) (by decide) (by simp)
        have still : (after.followedBy (("else".toList ++ tail).map .char)).pastTrivia =
            after.followedBy (("else".toList ++ tail).map .char) := by
          apply pastTrivia_of_solid
          rw [here, solid]
        have next := next_else (after.followedBy (("else".toList ++ tail).map .char)) last.free false
          (by rw [here, solid]) tail (by rw [still, here]) stops
          (semicolonDue_of_statementEnd? _ _ rfl)
        rw [still] at next
        exact next
      refine ⟨1, _, @ResumesAt.cons lexer after supplied 0 _ resumes fun tail => ?_⟩
      rw [next_eq (whole tail) last.free true (passed tail),
        show (whole tail).semicolonDue true = some before from due, past]
      rfl

theorem exists_resumesAt (lexer : Lexer) (sound : lexer.Sound) (ends : EndsLine lexer.rest)
    (reaches : lexer.Reaches) : ∃ k items, lexer.ResumesAt k items := by
  induction bound : lexer.weight using Nat.strongRecOn generalizing lexer with
  | _ bound ih =>
      subst bound
      have faultless (error : SyntaxError) (failed : lexer.item 0 = .error error) : False := by
        obtain ⟨n, token, found, -⟩ := reaches
        rw [item_of_error failed n] at found
        cases found
      rcases next_goes lexer sound ends with
        (⟨token, after, proper, ends', alone, together⟩ | ⟨error, failed, -⟩ | failing) | last
      · have step := step_of_next lexer _ _ alone
        have reaches' : after.Reaches := by
          obtain ⟨n, token', found, ended⟩ := reaches
          cases n with
          | zero =>
              rw [item, alone] at found
              cases found
              exact absurd ended proper
          | succ n => exact ⟨n, token', by rw [← item_succ_of_ok alone]; exact found, ended⟩
        obtain ⟨k, items, resumes⟩ := ih after.weight (step.weight_lt proper) after step.sound ends'
          reaches' rfl
        exact ⟨k + 1, _, resumes.cons fun tail => together _⟩
      · exact (faultless error failed).elim
      · obtain ⟨error, failed⟩ := failing []
        have same : lexer.followedBy [] = lexer := by
          rw [followedBy, List.append_nil]
        rw [same] at failed
        exact (faultless error failed).elim
      · exact last.exists_resumesAt

end Lexer

variable {α β : Type}

/-- What a reader makes of a stream that ends with the word `else`. The reader is given with every
budget that exceeds the one in use by some number. -/
inductive Verdict (reader : Nat → Parse α) (safe : List Word → Prop) (ending : Option Bool) (k : Nat)
    (stream : TokenStream) : Prop where
  | fails (error : SyntaxError) (refused : reader 0 stream = .error error)
      (final : error.incomplete = false)
  | goes (j : Nat) (value : α) (after : TokenStream) (read : reader 0 stream = .ok (value, after))
      (halted : Halted j after)
      (along : ∀ extra longer more, Resumed k stream longer more → ∃ after',
        reader (extra + 2) longer = .ok (value, after') ∧ Resumed j after after' more)
  | finishes (pending : Bool) (is : ending = some pending) (more : List Word)
      (spoken : Speaks false more pending)
      (done : ∀ extra longer rest, safe rest → Resumed k stream longer (more ++ rest) →
        ∃ value after', reader (extra + 2) longer = .ok (value, after') ∧ after'.Spells rest)

/-- Words that let the rest of a reader succeed where its first part has been finished. -/
structure Closes (next : Nat → α → Parse β) (within safe : List Word → Prop) (pending : Bool)
    (words : List Word) (pending' : Bool) : Prop where
  spoken : Speaks pending words pending'
  within : ∀ rest, safe rest → within (words ++ rest)
  reads : ∀ rest, safe rest → ∀ value extra,
    Reads (next (extra + 2) value) (words ++ rest) rest fun _ => True

namespace Verdict

variable {reader other : Nat → Parse α} {next : Nat → α → Parse β} {safe within : List Word → Prop}
  {ending ending' : Option Bool} {k : Nat} {stream : TokenStream}

theorem congr {after : TokenStream} (here : reader 0 stream = other 0 after)
    (there : ∀ extra longer more, Resumed k stream longer more → ∃ longer',
      Resumed k after longer' more ∧ reader extra longer = other extra longer')
    (verdict : Verdict other safe ending k after) : Verdict reader safe ending k stream := by
  cases verdict with
  | fails error refused final => exact .fails error (here.trans refused) final
  | goes j value last read halted along =>
      refine .goes j value last (here.trans read) halted fun extra longer more resumed => ?_
      obtain ⟨longer', resumed', same⟩ := there (extra + 2) longer more resumed
      rw [same]
      exact along extra longer' more resumed'
  | finishes pending is more spoken done =>
      refine .finishes pending is more spoken fun extra longer rest follow resumed => ?_
      obtain ⟨longer', resumed', same⟩ := there (extra + 2) longer _ resumed
      rw [same]
      exact done extra longer' rest follow resumed'

theorem of_eq (here : reader 0 stream = other 0 stream)
    (there : ∀ extra longer more, Resumed k stream longer more →
      reader extra longer = other extra longer)
    (verdict : Verdict other safe ending k stream) : Verdict reader safe ending k stream :=
  congr here (fun extra longer more resumed => ⟨longer, resumed, there extra longer more resumed⟩)
    verdict

theorem pure (value : α) (halted : Halted k stream) :
    Verdict (fun _ => pure value) safe ending k stream :=
  .goes k value stream rfl halted fun _ longer _ resumed => ⟨longer, rfl, resumed⟩

theorem bind (first : Verdict reader within ending' k stream)
    (second : ∀ j value after, Halted j after →
      Verdict (fun extra => next extra value) safe ending j after)
    (closes : ∀ pending, ending' = some pending → ∃ words pending', ending = some pending' ∧
      Closes next within safe pending words pending') :
    Verdict (fun extra => reader extra >>= next extra) safe ending k stream := by
  cases first with
  | fails error refused final => exact .fails error (bind_of_error refused) final
  | finishes pending is more spoken done =>
      obtain ⟨words, pending', is', closing⟩ := closes pending is
      refine .finishes pending' is' (more ++ words) (spoken.append closing.spoken)
        fun extra longer rest follow resumed => ?_
      rw [List.append_assoc] at resumed
      obtain ⟨value, middle, read, spells⟩ :=
        done extra longer (words ++ rest) (closing.within rest follow) resumed
      obtain ⟨result, last, read', spells', -⟩ := closing.reads rest follow value extra middle spells
      refine ⟨result, last, ?_, spells'⟩
      rw [bind_of_ok read]
      exact read'
  | goes j value after read halted along =>
      cases second j value after halted with
      | fails error refused final =>
          refine .fails error ?_ final
          rw [bind_of_ok read]
          exact refused
      | goes i result last read' halted' along' =>
          refine .goes i result last ?_ halted' fun extra longer more resumed => ?_
          · rw [bind_of_ok read]
            exact read'
          · obtain ⟨after', moved, resumed'⟩ := along extra longer more resumed
            rw [bind_of_ok moved]
            exact along' extra after' more resumed'
      | finishes pending is more spoken done =>
          refine .finishes pending is more spoken fun extra longer rest follow resumed => ?_
          obtain ⟨after', moved, resumed'⟩ := along extra longer _ resumed
          rw [bind_of_ok moved]
          exact done extra after' rest follow resumed'

theorem bind_passing (first : Verdict reader within none k stream)
    (second : ∀ j value after, Halted j after →
      Verdict (fun extra => next extra value) safe ending j after) :
    Verdict (fun extra => reader extra >>= next extra) safe ending k stream :=
  bind first second (by simp)

theorem map (f : α → β) (first : Verdict reader safe ending k stream) :
    Verdict (fun extra => do let value ← reader extra; return f value) safe ending k stream := by
  refine bind first (fun _ value _ halted => .pure (f value) halted) fun pending is => ?_
  exact ⟨[], pending, is, .nil pending, fun _ follow => follow, fun _ _ _ _ => .pure trivial⟩

theorem refuse (position : Position) (cause : SyntaxError.Cause)
    (final : SyntaxError.incomplete ⟨position, cause⟩ = false) :
    Verdict (fun _ => Parse.refuse position cause : Nat → Parse α) safe ending k stream :=
  .fails _ rfl final

theorem refuse_bind (position : Position) (cause : SyntaxError.Cause)
    (final : SyntaxError.incomplete ⟨position, cause⟩ = false) :
    Verdict (fun extra => (Parse.refuse position cause : Parse α) >>= next extra) safe ending k stream :=
  .fails _ rfl final

theorem tooDeep {later : Nat → Parse α} (starts : later 0 = Parse.tooDeep) :
    Verdict later safe ending k stream :=
  .fails _ (by rw [starts]; rfl) rfl

theorem refuseHere (cause : Token → SyntaxError.Cause)
    (names : ∀ position token, SyntaxError.incomplete ⟨position, cause token⟩ =
      decide (token.kind = .endOfInput)) (halted : Halted k stream) :
    Verdict (fun _ => Parse.refuseHere cause : Nat → Parse α) safe ending k stream :=
  .fails _ (refuseHere_apply cause stream) (by rw [names, decide_eq_false halted.proper])

theorem refuseHere_bind (cause : Token → SyntaxError.Cause)
    (names : ∀ position token, SyntaxError.incomplete ⟨position, cause token⟩ =
      decide (token.kind = .endOfInput)) (halted : Halted k stream) :
    Verdict (fun extra => (Parse.refuseHere cause : Parse α) >>= next extra) safe ending k stream :=
  .fails _ (bind_of_error (refuseHere_apply cause stream))
    (by rw [names, decide_eq_false halted.proper])

theorem ite {condition : Prop} [Decidable condition]
    (holds : condition → Verdict reader safe ending k stream)
    (fails : ¬ condition → Verdict other safe ending k stream) :
    Verdict (fun extra => if condition then reader extra else other extra) safe ending k stream := by
  by_cases decided : condition
  · simp only [if_pos decided]
    exact holds decided
  · simp only [if_neg decided]
    exact fails decided

theorem discard_bind {next : Nat → Unit → Parse β}
    (verdict : Verdict (fun extra => reader extra >>= fun _ => next extra ()) safe ending k stream) :
    Verdict (fun extra => discard (reader extra) >>= next extra) safe ending k stream :=
  of_eq (Parse.discard_bind _ _ _) (fun _ _ _ _ => Parse.discard_bind _ _ _) verdict

theorem token_bind {next : Nat → Token → Parse β}
    (verdict : Verdict (fun extra => next extra stream.current) safe ending k stream) :
    Verdict (fun extra => token >>= next extra) safe ending k stream := by
  refine of_eq (Parse.token_bind _ stream) (fun extra longer more resumed => ?_) verdict
  rw [Parse.token_bind, resumed.current]

theorem kind_bind {next : Nat → TokenKind → Parse β}
    (verdict : Verdict (fun extra => next extra stream.current.kind) safe ending k stream) :
    Verdict (fun extra => kind >>= next extra) safe ending k stream := by
  refine of_eq (Parse.kind_bind _ stream) (fun extra longer more resumed => ?_) verdict
  rw [Parse.kind_bind, resumed.current]

theorem advance (halted : Halted (k + 1) stream) :
    Verdict (fun _ => Parse.advance) safe none (k + 1) stream := by
  obtain ⟨token, there⟩ := halted.item_ok (i := 1) (by omega)
  rcases advance_cases stream with ⟨error, failed, -⟩ | ⟨after, shifted, moved⟩
  · rw [there] at failed
    cases failed
  refine .goes k () after moved (halted.of_shift shifted) fun extra longer more resumed => ?_
  rcases advance_cases longer with ⟨error, failed, -⟩ | ⟨after', shifted', moved'⟩
  · rw [resumed.same 1 (by omega), there] at failed
    cases failed
  · exact ⟨after', moved', resumed.of_shift shifted shifted'⟩

theorem advance_bind {next : Nat → Unit → Parse β} (halted : Halted k stream)
    (other : stream.current.kind ≠ .elseWord)
    (rest : ∀ j after, Halted j after → Verdict (fun extra => next extra ()) safe ending j after) :
    Verdict (fun extra => Parse.advance >>= next extra) safe ending k stream := by
  obtain ⟨fewer, rfl⟩ := halted.exists_succ other
  have first : Verdict (fun _ => Parse.advance) safe none (fewer + 1) stream := advance halted
  exact bind_passing first fun j _ after halted' => rest j after halted'

theorem take_bind {next : Nat → Token → Parse β} (halted : Halted k stream)
    (other : stream.current.kind ≠ .elseWord)
    (rest : ∀ j after, Halted j after →
      Verdict (fun extra => next extra stream.current) safe ending j after) :
    Verdict (fun extra => take >>= next extra) safe ending k stream := by
  simp only [take_bind_eq]
  exact token_bind (advance_bind halted other rest)

theorem expect_bind {next : Nat → Token → Parse β} (wanted : TokenKind)
    (proper : wanted ≠ .elseWord) (halted : Halted k stream)
    (rest : ∀ j token after, Halted j after →
      Verdict (fun extra => next extra token) safe ending j after) :
    Verdict (fun extra => expect wanted >>= next extra) safe ending k stream := by
  by_cases here : stream.current.kind = wanted
  · have same {other : TokenStream} (current : other.current = stream.current) (extra : Nat) :
        (expect wanted >>= next extra) other = (take >>= next extra) other := by
      have met : other.current.kind = wanted := current ▸ here
      change (expect wanted other >>= _) = (take other >>= _)
      rw [expect_of_eq met]
    refine of_eq (same rfl 0) (fun extra _ _ resumed => same resumed.current extra) ?_
    exact take_bind halted (here ▸ proper) fun j after halted' => rest j _ after halted'
  · refine .fails _ (bind_of_error (expect_of_ne here)) ?_
    exact decide_eq_false halted.proper

theorem mark_bind {next : Nat → Unit → Parse β} (wanted : TokenKind) (proper : wanted ≠ .elseWord)
    (halted : Halted k stream)
    (rest : ∀ j after, Halted j after → Verdict (fun extra => next extra ()) safe ending j after) :
    Verdict (fun extra => discard (expect wanted) >>= next extra) safe ending k stream :=
  discard_bind (expect_bind wanted proper halted fun j _ after halted' => rest j after halted')

theorem aheadIs_bind {next : Nat → Bool → Parse β} (n : Nat) (wanted : TokenKind)
    (halted : Halted k stream) (near : n + 1 ≤ k)
    (rest : ∀ seen after, stream.Same after →
      (seen = true → Items.HasAt stream.item (n + 1) wanted) → Halted k after →
      Verdict (fun extra => next extra seen) safe ending k after) :
    Verdict (fun extra => Parse.aheadIs n wanted >>= next extra) safe ending k stream := by
  obtain ⟨token, there⟩ := halted.item_ok near
  rcases aheadIs_cases halted.sound n wanted with
    ⟨error, failed, -⟩ | ⟨token', after, found, same, looked⟩
  · rw [there] at failed
    cases failed
  rw [there] at found
  cases found
  refine congr (bind_of_ok looked) (fun extra longer more resumed => ?_)
    (rest _ after same (fun met => ⟨token, there, of_decide_eq_true met⟩) (halted.of_same same))
  have there' := (resumed.same (n + 1) near).trans there
  rcases aheadIs_cases resumed.sound n wanted with
    ⟨error, failed, -⟩ | ⟨token', longer', found, same', looked'⟩
  · rw [there'] at failed
    cases failed
  rw [there'] at found
  cases found
  exact ⟨longer', resumed.of_same same same', bind_of_ok looked'⟩

theorem aheadIs (n : Nat) (wanted : TokenKind) (halted : Halted k stream) (near : n + 1 ≤ k) :
    Verdict (fun _ => Parse.aheadIs n wanted) safe ending k stream := by
  have whole : Verdict (fun _ => Parse.aheadIs n wanted >>= Pure.pure) safe ending k stream :=
    aheadIs_bind n wanted halted near fun seen _ _ _ halted => .pure seen halted
  simpa only [bind_pure] using whole

end Verdict

end Koy
