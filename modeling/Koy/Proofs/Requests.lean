import Koy.Proofs.LexerRuns
import Koy.Proofs.LookAhead
import Koy.Proofs.Readers

/-! What readers ask of the lexer. A reader sees a source text through calls on its token stream, and a
call asks the lexer for tokens where the stream holds too few. As long as no call is made at the end of
the input, the answers are those that the lexer gives one after the other up to its end token, and the
lexer is not asked again once it has given that. -/

namespace Koy

open StreamCall

namespace TokenStream

def answersFurther : Nat → TokenStream → List (Except SyntaxError Token)
  | 0, _ => []
  | count + 1, stream =>
    if stream.seesEnd then []
    else match stream.lexer.next with
      | (.ok token, rest) => .ok token ::
        answersFurther count { stream with ahead := stream.ahead ++ [token], lexer := rest }
      | (.error error, _) => [.error error]

def answers (stream : TokenStream) : StreamCall → List (Except SyntaxError Token)
  | .advance => if stream.ahead.isEmpty then [stream.lexer.next.1] else []
  | .peek n => answersFurther (n + 1 - stream.ahead.length) stream

def allAnswers : TokenStream → List StreamCall → List (Except SyntaxError Token)
  | _, [] => []
  | stream, call :: calls => stream.answers call ++
    match stream.perform call with
    | .ok after => after.allAnswers calls
    | .error _ => []

def BeforeEnd : TokenStream → List StreamCall → Prop
  | _, [] => True
  | stream, call :: calls => stream.current.kind ≠ .endOfInput ∧
    ∀ after, stream.perform call = .ok after → after.BeforeEnd calls

def newest (stream : TokenStream) : Token :=
  stream.ahead.getLast?.getD stream.current

def Ended (stream : TokenStream) : Prop :=
  stream.newest.kind = .endOfInput

/-- The tokens of one stream before the lexer of another. -/
def exchange (stream : TokenStream) (lexer : Lexer) : TokenStream :=
  { stream with lexer }

@[simp] theorem seesEnd_exchange (stream : TokenStream) (lexer : Lexer) :
    (stream.exchange lexer).seesEnd = stream.seesEnd := rfl

variable {stream after : TokenStream} {call : StreamCall} {calls more : List StreamCall}

theorem newest_of_queued {token : Token} {ahead : List Token} (queued : stream.ahead = token :: ahead) :
    newest { stream with current := token, ahead := ahead } = stream.newest := by
  simp [newest, queued, List.getLast?_cons]

theorem ended_iff {token : Token} (last : stream.newest = token) :
    stream.Ended ↔ token.kind = .endOfInput := by
  rw [Ended, last]

theorem ended_of_seesEnd (sees : stream.seesEnd = true) : stream.Ended := by
  obtain ⟨token, last, ended⟩ := (seesEnd_iff stream).mp sees
  rw [Ended, newest, last]
  exact ended

theorem Ended.seesEnd (ended : stream.Ended) (before : stream.current.kind ≠ .endOfInput) :
    stream.seesEnd = true := by
  rw [Ended, newest] at ended
  cases last : stream.ahead.getLast? with
  | none =>
      rw [last] at ended
      exact absurd ended before
  | some token =>
      rw [last] at ended
      exact (seesEnd_iff stream).mpr ⟨token, last, ended⟩

theorem lookFurther_of_seesEnd (sees : stream.seesEnd = true) (count : Nat) :
    lookFurther count stream = .ok stream := by
  cases count with
  | zero => rfl
  | succ count => rw [lookFurther, if_pos sees]

theorem answersFurther_of_seesEnd (sees : stream.seesEnd = true) (count : Nat) :
    answersFurther count stream = [] := by
  cases count with
  | zero => rfl
  | succ count => rw [answersFurther, if_pos sees]

theorem perform_peek (n : Nat) :
    stream.perform (.peek n) = lookFurther (n + 1 - stream.ahead.length) stream := by
  rw [perform, peek]
  cases lookFurther (n + 1 - stream.ahead.length) stream <;> rfl

theorem peek_of_seesEnd (sees : stream.seesEnd = true) (n : Nat) :
    stream.peek n =
      .ok ((stream.ahead[n]? <|> stream.ahead.getLast?).getD stream.current, stream) := by
  rw [peek, lookFurther_of_seesEnd sees]
  rfl

theorem beforeEnd_append : stream.BeforeEnd (calls ++ more) ↔
    stream.BeforeEnd calls ∧
      ∀ middle, stream.performAll calls = .ok middle → middle.BeforeEnd more := by
  induction calls generalizing stream with
  | nil =>
      refine ⟨fun all => ⟨trivial, fun _ made => ?_⟩, fun all => all.2 stream rfl⟩
      cases made
      exact all
  | cons call calls ih =>
      constructor
      · rintro ⟨here, later⟩
        refine ⟨⟨here, fun after made => (ih.mp (later after made)).1⟩, fun middle made => ?_⟩
        obtain ⟨after, first, rest⟩ := performAll_cons_ok.mp made
        exact (ih.mp (later after first)).2 middle rest
      · rintro ⟨⟨here, later⟩, beyond⟩
        refine ⟨here, fun after made => ih.mpr ⟨later after made, fun middle rest => ?_⟩⟩
        exact beyond middle (performAll_cons_ok.mpr ⟨after, made, rest⟩)

end TokenStream

/-! The answers are those of one run of the lexer. -/

/-- What calls take from a lexer that has not handed out the end token: tokens, after which the stream
is not at its end either, or tokens up to the end token or a fault. -/
inductive Lexer.Draws (lexer : Lexer) :
    List (Except SyntaxError Token) → Except SyntaxError TokenStream → Prop where
  | goesOn {tokens : List Token} {after : TokenStream} (passes : Passes lexer tokens after.lexer)
      (going : ¬ after.Ended) : Draws lexer (tokens.map .ok) (.ok after)
  | stops {tokens : List Token} {last : Lexer} {outcome : Except SyntaxError TokenStream}
      (passes : Passes lexer tokens last) (final : Final last.next.1)
      (ended : ∀ after, outcome = .ok after → after.Ended) :
      Draws lexer (tokens.map .ok ++ [last.next.1]) outcome

namespace Lexer.Draws

variable {lexer rest : Lexer} {token : Token} {answers more : List (Except SyntaxError Token)}
  {middle : TokenStream} {outcome : Except SyntaxError TokenStream}

theorem last (final : Final lexer.next.1) (closed : ∀ after, outcome = .ok after → after.Ended) :
    Draws lexer [lexer.next.1] outcome :=
  @stops lexer [] lexer outcome (.nil lexer) final closed

theorem failed {error : SyntaxError} (stepped : lexer.next = (.error error, rest)) :
    Draws lexer [.error error] (.error error) := by
  have handed : lexer.next.1 = .error error := congrArg Prod.fst stepped
  rw [← handed]
  exact last (by rw [handed]; trivial) fun _ made => by cases made

theorem ended (stepped : lexer.next = (.ok token, rest)) (ends : token.kind = .endOfInput)
    (closed : ∀ after, outcome = .ok after → after.Ended) : Draws lexer [.ok token] outcome := by
  have handed : lexer.next.1 = .ok token := congrArg Prod.fst stepped
  rw [← handed]
  exact last (by rw [handed]; exact ends) closed

theorem cons (stepped : lexer.next = (.ok token, rest)) (proper : token.kind ≠ .endOfInput)
    (draws : Draws rest answers outcome) : Draws lexer (.ok token :: answers) outcome := by
  cases draws with
  | goesOn passes going =>
      rw [← List.map_cons]
      exact .goesOn (.cons stepped proper passes) going
  | stops passes final closed =>
      rw [← List.cons_append, ← List.map_cons]
      exact .stops (.cons stepped proper passes) final closed

theorem append (first : Draws lexer answers (.ok middle))
    (second : ¬ middle.Ended → Draws middle.lexer more outcome)
    (nothing : middle.Ended → more = [] ∧ ∀ after, outcome = .ok after → after.Ended) :
    Draws lexer (answers ++ more) outcome := by
  cases first with
  | @goesOn tokens _ passes going =>
      cases second going with
      | goesOn passes' going' =>
          rw [← List.map_append]
          exact .goesOn (passes.append passes') going'
      | stops passes' final closed =>
          rw [← List.append_assoc, ← List.map_append]
          exact .stops (passes.append passes') final closed
  | stops passes final closed =>
      obtain ⟨rfl, closed'⟩ := nothing (closed middle rfl)
      rw [List.append_nil]
      exact .stops passes final closed'

theorem isPrefix {source : Bytes} (draws : Draws (ofSource source) answers outcome) :
    answers <+: readAll source 0 := by
  cases draws with
  | @goesOn tokens after passes _ =>
      obtain ⟨later, last, onward, final⟩ := exists_passes after.lexer
      rw [readAll_of_passes (passes.append onward) final, List.map_append, List.append_assoc]
      exact List.prefix_append _ _
  | stops passes final _ =>
      refine ⟨[], ?_⟩
      rw [readAll_of_passes passes final, List.append_nil]

end Lexer.Draws

namespace TokenStream

variable {stream after : TokenStream} {call : StreamCall} {calls : List StreamCall}

theorem draws_lookFurther (going : ¬ stream.Ended) (count : Nat) :
    stream.lexer.Draws (stream.answersFurther count) (lookFurther count stream) := by
  induction count generalizing stream with
  | zero => exact .goesOn (.nil _) going
  | succ count ih =>
      have blind : ¬ stream.seesEnd = true := fun sees => going (ended_of_seesEnd sees)
      rw [answersFurther, lookFurther, if_neg blind, if_neg blind]
      cases stepped : stream.lexer.next with
      | mk result rest =>
          cases result with
          | error error => exact .failed stepped
          | ok token =>
              let further : TokenStream :=
                { stream with ahead := stream.ahead ++ [token], lexer := rest }
              have last : further.newest = token := by simp [further, newest]
              by_cases ends : token.kind = .endOfInput
              · have sees : further.seesEnd = true :=
                  (seesEnd_iff further).mpr ⟨token, List.getLast?_concat, ends⟩
                change Lexer.Draws _ (.ok token :: answersFurther count further) _
                rw [answersFurther_of_seesEnd sees]
                change Lexer.Draws _ _ (lookFurther count further)
                rw [lookFurther_of_seesEnd sees]
                refine .ended stepped ends fun after same => ?_
                cases same
                exact (ended_iff last).mpr ends
              · exact .cons stepped ends (ih (mt (ended_iff last).mp ends))

theorem draws_perform (going : ¬ stream.Ended) (call : StreamCall) :
    stream.lexer.Draws (stream.answers call) (stream.perform call) := by
  cases call with
  | peek n =>
      rw [perform_peek]
      exact draws_lookFurther going _
  | advance =>
      rw [answers, perform, advance]
      cases queued : stream.ahead with
      | cons token ahead =>
          let after : TokenStream := { stream with current := token, ahead := ahead }
          have going' : ¬ after.Ended := by rwa [Ended, newest_of_queued queued]
          exact @Lexer.Draws.goesOn stream.lexer [] after (.nil _) going'
      | nil =>
          change Lexer.Draws _ [stream.lexer.next.1] (ofLexer stream.lexer)
          rw [ofLexer]
          cases stepped : stream.lexer.next with
          | mk result rest =>
              cases result with
              | error error => exact .failed stepped
              | ok token =>
                  let after : TokenStream := { current := token, lexer := rest }
                  by_cases ends : token.kind = .endOfInput
                  · exact .ended stepped ends fun _ same => by cases same; exact ends
                  · exact .cons stepped ends (@Lexer.Draws.goesOn rest [] after (.nil rest) ends)

theorem perform_of_ended (closed : stream.Ended) (before : stream.current.kind ≠ .endOfInput)
    (call : StreamCall) : stream.answers call = [] ∧ ∃ after : TokenStream, after.Ended ∧
      ∀ lexer, (stream.exchange lexer).perform call = .ok (after.exchange lexer) := by
  have sees := closed.seesEnd before
  cases call with
  | peek n =>
      refine ⟨answersFurther_of_seesEnd sees _, stream, closed, fun lexer => ?_⟩
      rw [perform_peek]
      exact lookFurther_of_seesEnd (by rwa [seesEnd_exchange]) _
  | advance =>
      cases queued : stream.ahead with
      | nil =>
          obtain ⟨token, last, -⟩ := (seesEnd_iff stream).mp sees
          rw [queued] at last
          cases last
      | cons token ahead =>
          refine ⟨by simp [answers, queued], { stream with current := token, ahead := ahead }, ?_, ?_⟩
          · rwa [Ended, newest_of_queued queued]
          · intro lexer
            simp only [perform, advance, exchange, queued]

theorem allAnswers_of_ended (closed : stream.Ended) (before : stream.BeforeEnd calls) :
    stream.allAnswers calls = [] ∧ ∀ after, stream.performAll calls = .ok after → after.Ended := by
  induction calls generalizing stream with
  | nil => exact ⟨rfl, fun after made => by cases made; exact closed⟩
  | cons call calls ih =>
      obtain ⟨silent, after, closed', made⟩ := perform_of_ended closed before.1 call
      have here : stream.perform call = .ok (after.exchange stream.lexer) := made stream.lexer
      obtain ⟨silent', rest⟩ := @ih (after.exchange stream.lexer) closed' (before.2 _ here)
      rw [allAnswers, performAll, silent, here]
      exact ⟨silent', rest⟩

theorem draws_performAll (going : ¬ stream.Ended) (before : stream.BeforeEnd calls) :
    stream.lexer.Draws (stream.allAnswers calls) (stream.performAll calls) := by
  induction calls generalizing stream with
  | nil => exact .goesOn (.nil _) going
  | cons call calls ih =>
      have draws := draws_perform going call
      rw [allAnswers, performAll]
      cases made : stream.perform call with
      | error error =>
          rw [made] at draws
          rwa [List.append_nil]
      | ok middle =>
          rw [made] at draws
          have later := before.2 middle made
          refine draws.append (fun going' => ih going' later) fun closed => ?_
          exact allAnswers_of_ended closed later

/-- Calls that are made on the stream of a source text, all before its end, are answered by the first of
the tokens that the lexer reads up to its end token or a fault. -/
theorem answers_isPrefix {source : Bytes} {start : TokenStream}
    (started : ofSource source = .ok start) (before : start.BeforeEnd calls) :
    .ok start.current :: start.allAnswers calls <+: Lexer.readAll source 0 := by
  obtain ⟨stepped, last⟩ : (Lexer.ofSource source).next = (.ok start.current, start.lexer) ∧
      start.newest = start.current := by
    rw [ofSource, ofLexer] at started
    split at started
    · rename_i token rest stepped
      cases started
      exact ⟨stepped, rfl⟩
    · cases started
  by_cases ends : start.current.kind = .endOfInput
  · obtain ⟨silent, rest⟩ := allAnswers_of_ended ((ended_iff last).mpr ends) before
    rw [silent]
    exact (Lexer.Draws.ended stepped ends rest).isPrefix
  · have going : ¬ start.Ended := mt (ended_iff last).mp ends
    exact (Lexer.Draws.cons stepped ends (draws_performAll going before)).isPrefix

end TokenStream

/-! The calls of a reader. -/

namespace Parse

open TokenStream

/-- The reader, run from the stream, makes these calls, one after the other. Besides making calls it can
only see the current token, yield a value and refuse the text. -/
inductive Makes : {α : Type} → Parse α → TokenStream → List StreamCall → Prop where
  | pure {α : Type} (value : α) (stream : TokenStream) : Makes (pure value) stream []
  | token (stream : TokenStream) : Makes token stream []
  | refuse {α : Type} (position : Position) (cause : SyntaxError.Cause) (stream : TokenStream) :
      Makes (refuse position cause : Parse α) stream []
  | advance (stream : TokenStream) : Makes advance stream [.advance]
  | aheadIs (n : Nat) (wanted : TokenKind) (stream : TokenStream) :
      Makes (aheadIs n wanted) stream [.peek n]
  | bind {α β : Type} {reader : Parse α} {next : α → Parse β} {stream middle : TokenStream}
      {value : α} {calls more : List StreamCall} (first : Makes reader stream calls)
      (read : reader stream = .ok (value, middle)) (second : Makes (next value) middle more) :
      Makes (reader >>= next) stream (calls ++ more)
  | refused {α β : Type} {reader : Parse α} {next : α → Parse β} {stream : TokenStream}
      {error : SyntaxError} {calls : List StreamCall} (first : Makes reader stream calls)
      (failed : reader stream = .error error) : Makes (reader >>= next) stream calls

structure LeavesAs {α : Type} (reader : Parse α) (stream : TokenStream) (calls : List StreamCall) :
    Prop where
  ok : ∀ value after, reader stream = .ok (value, after) → stream.performAll calls = .ok after
  error : ∀ error, reader stream = .error error → stream.performAll calls = .error error ∨
    ∃ after, stream.performAll calls = .ok after

variable {α : Type} {reader : Parse α} {stream : TokenStream} {calls : List StreamCall}

theorem LeavesAs.single {σ : Type} {call : StreamCall} {found : Except SyntaxError σ} {value : σ → α}
    {left : σ → TokenStream}
    (reads : reader stream = found >>= fun seen => .ok (value seen, left seen))
    (makes : stream.perform call = found.map left) : LeavesAs reader stream [call] := by
  constructor
  · intro result after read
    rw [reads] at read
    rw [performAll_single, makes]
    cases found with
    | error error => cases read
    | ok seen =>
        cases read
        rfl
  · intro error failed
    rw [reads] at failed
    rw [performAll_single, makes]
    cases found with
    | error error =>
        cases failed
        exact .inl rfl
    | ok seen => cases failed

namespace Makes

theorem leavesAs (makes : Makes reader stream calls) : LeavesAs reader stream calls := by
  induction makes with
  | pure value stream | token stream =>
      refine ⟨fun value after read => ?_, fun error failed => ?_⟩
      · cases read
        rfl
      · cases failed
  | refuse position cause stream =>
      refine ⟨fun value after read => ?_, fun error _ => .inr ⟨stream, rfl⟩⟩
      cases read
  | advance stream =>
      have kept : stream.perform .advance = stream.advance.map id := by
        rw [perform]
        cases stream.advance <;> rfl
      exact .single (advance_apply stream) kept
  | aheadIs n wanted stream => exact .single (aheadIs_apply n wanted stream) rfl
  | bind first read second ih ih' =>
      have made := ih.ok _ _ read
      constructor
      · rw [bind_of_ok read, performAll_append made]
        exact ih'.ok
      · rw [bind_of_ok read, performAll_append made]
        exact ih'.error
  | refused first failed ih =>
      refine ⟨fun value after read => ?_, fun error same => ?_⟩
      · rw [bind_of_error failed] at read
        cases read
      · rw [bind_of_error failed] at same
        cases same
        exact ih.error _ failed

/-- Where the end token has been handed out, a reader that makes its calls before the end of the input
does not look at the lexer: with any other in its place it does the same. -/
theorem exchange (makes : Makes reader stream calls) (before : stream.BeforeEnd calls)
    (closed : stream.Ended) (lexer : Lexer) :
    reader (stream.exchange lexer) =
      (reader stream).map (Prod.map id fun after => after.exchange lexer) := by
  induction makes with
  | pure value stream | token stream | refuse position cause stream => rfl
  | advance stream =>
      obtain ⟨-, after, -, made⟩ := perform_of_ended closed before.1 .advance
      have here : stream.advance = .ok (after.exchange stream.lexer) := made stream.lexer
      have there : (stream.exchange lexer).advance = .ok (after.exchange lexer) := made lexer
      rw [advance_apply, advance_apply, here, there]
      rfl
  | aheadIs n wanted stream =>
      have sees := closed.seesEnd before.1
      rw [aheadIs_apply, aheadIs_apply, peek_of_seesEnd sees,
        peek_of_seesEnd (by rwa [seesEnd_exchange])]
      rfl
  | bind first read second ih ih' =>
      obtain ⟨before, later⟩ := beforeEnd_append.mp before
      have moved := first.leavesAs.ok _ _ read
      have there := ih before closed
      rw [read] at there
      rw [bind_of_ok read, bind_of_ok there]
      exact ih' (later _ moved) ((allAnswers_of_ended closed before).2 _ moved)
  | refused first failed ih =>
      have there := ih before closed
      rw [failed] at there
      rw [bind_of_error failed, bind_of_error there]
      rfl

end Makes

end Parse

end Koy
