import Koy.Proofs.Chunks
import Koy.Proofs.DepthLimit
import Koy.Proofs.IntactTrees
import Koy.Proofs.Observation

/-! The ways in agree. A text that is read as a program or as an expression is read as interactive
input too, with the same elements, and to register a definition does what taking it in as an entry
does, one level of depth less deep. -/

namespace Koy

open Parse Grammar Lanes

def Definition.entry : Definition → Entry
  | .function defined => .function defined
  | .value defined => .expression defined.declaration
  | .missing => .expression .missing

section Reading

variable {α β : Type} {element : Parse α} {values : List α} {stream after : TokenStream}

namespace Elements

theorem map (f : α → β) (listed : Elements element stream values) :
    Elements (do return f (← element)) stream (values.map f) := by
  induction listed with
  | done ended => exact .done ended
  | skip semicolon moved _ ih => exact .skip semicolon moved ih
  | item proper read ended _ ih => exact .item proper (bind_of_ok read) ended ih

theorem of_skipped (budget : Nat) (skipped : skipSemicolons budget stream = .ok ((), after))
    (rest : Elements element after values) : Elements element stream values := by
  have read : (skipSemicolons budget >>= fun _ => pure values) stream = .ok (values, after) :=
    bind_of_ok skipped
  refine of_skipSemicolons budget (fun reached _ same => ?_) read
  cases same
  exact rest

end Elements

theorem expression_at_end (budget : Nat) (ended : stream.current.kind = .endOfInput) :
    ∃ error, expression budget stream = .error error := by
  apply expression_refuses budget (by rw [ended]; decide)
  intro expr budget
  rw [primary, token_bind, ended]
  exact ⟨_, rfl⟩

theorem expression_at_named {next : Token} (budget : Nat) (word : stream.current.kind = .fnWord)
    (ahead : stream.item 1 = .ok next) (named : next.kind = .identifier) :
    ∃ error, expression budget stream = .error error := by
  apply expression_refuses budget (by rw [word]; decide)
  intro expr budget
  rcases advance_cases stream with ⟨error, failed, -⟩ | ⟨after, shifted, moved⟩
  · rw [ahead] at failed
    cases failed
  · have here : after.current = next := Except.ok.inj ((shifted 0).trans ahead)
    have unopened : after.current.kind ≠ .openParen := by
      rw [here, named]
      decide
    have refused : params budget after = .error _ :=
      (discard_bind _ _ after).trans (bind_of_error (expect_of_ne unopened))
    rw [primary, token_bind, word]
    exact ⟨_, (bind_of_ok moved).trans (bind_of_error (bind_of_error refused))⟩

theorem functionDef_named {budget : Nat} {function : FunctionDef}
    (read : functionDef budget stream = .ok (function, after)) :
    stream.current.kind = .fnWord ∧ ∃ next, stream.item 1 = .ok next ∧ next.kind = .identifier := by
  obtain ⟨start, middle, begun, read⟩ := exists_of_bind read
  obtain ⟨name, further, spelled, -⟩ := exists_of_bind read
  obtain ⟨word, taken⟩ := of_expect begun
  exact ⟨word, middle.current, ((of_take taken).2 0).symm, (of_expect spelled).1⟩

theorem entry_of_word {next : Token} (budget : Nat) (sound : stream.Sound)
    (word : stream.current.kind = .fnWord) (ahead : stream.item 1 = .ok next) :
    ∃ looked, stream.Same looked ∧ entry budget stream =
      (if next.kind = TokenKind.identifier then do return Entry.function (← functionDef budget)
        else do return Entry.expression (← expression budget)) looked := by
  rcases aheadIs_cases sound 0 .identifier with ⟨error, failed, -⟩ | ⟨token, looked, found, same, seen⟩
  · rw [ahead] at failed
    cases failed
  · rw [ahead] at found
    cases found
    refine ⟨looked, same, ?_⟩
    rw [entry, kind_bind, if_pos word, bind_of_ok seen]
    by_cases named : next.kind = .identifier <;> simp [named]

theorem entry_of_ne (budget : Nat) (other : stream.current.kind ≠ .fnWord) :
    entry budget stream = (do return Entry.expression (← expression budget)) stream := by
  rw [entry, kind_bind, if_neg other]

theorem expression_carries_entry (lanes : Lanes) (budget n : Nat) :
    lanes.Carries (Entry.relocate lanes.move) (do return .expression (← expression budget))
      (entry budget) n := by
  intro stream value after stands read
  obtain ⟨expr, middle, begun, ended⟩ := exists_of_bind read
  cases ended
  obtain ⟨_, m, le, ⟨rfl, whole⟩, stands', along⟩ :=
    expression_carries budget n stream expr after stands begun
  refine ⟨_, m, le, ⟨rfl, whole⟩, stands', fun near long longStands => ?_⟩
  have same := kind_eq stands longStands (lanes.nearer le near)
  by_cases word : stream.current.kind = .fnWord
  · obtain ⟨next, ahead, ahead'⟩ := lanes.same (lanes.nearer whole.lt near)
    obtain ⟨looked, still, rewritten⟩ := entry_of_word budget longStands.sound (same.trans word)
      ((longStands.item 1).trans ahead')
    have unnamed : next.kind ≠ .identifier := by
      intro named
      obtain ⟨error, refused⟩ := expression_at_named budget word ((stands.item 1).trans ahead) named
      rw [refused] at begun
      cases begun
    obtain ⟨after', done, longStands'⟩ := along near looked (longStands.of_same still)
    rw [rewritten, Token.relocate_kind, if_neg unnamed]
    exact ⟨after', bind_of_ok done, longStands'⟩
  · obtain ⟨after', done, longStands'⟩ := along near long longStands
    rw [entry_of_ne budget (same ▸ word)]
    exact ⟨after', bind_of_ok done, longStands'⟩

theorem functionDef_carries_entry (lanes : Lanes) (budget n : Nat) :
    lanes.Carries (Entry.relocate lanes.move) (do return .function (← functionDef budget))
      (entry (budget + 1)) n := by
  intro stream value after stands read
  obtain ⟨function, middle, begun, ended⟩ := exists_of_bind read
  cases ended
  obtain ⟨_, m, le, ⟨rfl, whole⟩, stands', along⟩ :=
    functionDef_carries (Nat.le_succ budget) n stream function after stands begun
  refine ⟨_, m, le, ⟨rfl, whole⟩, stands', fun near long longStands => ?_⟩
  -- An entry looks for the name before it is read, which leaves the tokens as they are.
  obtain ⟨word, next, ahead, named⟩ := functionDef_named begun
  have word' := (kind_eq stands longStands (lanes.nearer le near)).trans word
  have ahead' := lanes.others_eq ((stands.item 1).symm.trans ahead) (lanes.nearer whole.lt near)
  obtain ⟨looked, still, rewritten⟩ := entry_of_word (budget + 1) longStands.sound word'
    ((longStands.item 1).trans ahead')
  obtain ⟨after', done, longStands'⟩ := along near looked (longStands.of_same still)
  rw [rewritten, Token.relocate_kind, if_pos named]
  exact ⟨after', bind_of_ok done, longStands'⟩

theorem declaration_carries_entry (lanes : Lanes) (budget n : Nat) {kind : TokenKind}
    (here : lanes.items.HasAt n kind) (word : kind = .letWord ∨ kind = .mutableWord) :
    lanes.Carries (Entry.relocate lanes.move)
      (do return .expression (← declaration (expression budget)).declaration)
      (entry (budget + 1)) n := by
  intro stream value after stands read
  obtain ⟨defined, middle, begun, ended⟩ := exists_of_bind read
  cases ended
  obtain ⟨_, m, le, ⟨rfl, whole⟩, stands', along⟩ :=
    declaration_carries budget n stream defined after stands begun
  refine ⟨_, m, le, ⟨rfl, whole⟩, stands', fun near long longStands => ?_⟩
  obtain ⟨after', done, longStands'⟩ := along near long longStands
  refine ⟨after', ?_, longStands'⟩
  have same : long.current.kind = kind := by
    obtain ⟨token, found, is⟩ := here
    rw [stands.current] at found
    cases found
    exact (kind_eq stands longStands (lanes.nearer le near)).trans is
  have read' : expression (budget + 1) long =
      (do return (← declaration (expression budget)).declaration) long := by
    rw [expression, expressionOf, kind_bind, same]
    rcases word with rfl | rfl <;> rfl
  have other : long.current.kind ≠ .fnWord := by
    rw [same]
    rcases word with rfl | rfl <;> decide
  rw [entry_of_ne (budget + 1) other, bind_of_ok (read'.trans (bind_of_ok done))]
  rfl

theorem definition_carries_entry (lanes : Lanes) (budget n : Nat) :
    lanes.Carries (Entry.relocate lanes.move) (do return (← definition budget).entry)
      (entry (budget + 1)) n := by
  intro stream value after stands read
  obtain ⟨defined, middle, begun, ended⟩ := exists_of_bind read
  cases ended
  rw [definition, kind_bind] at begun
  cases here : stream.current.kind with
  | fnWord =>
      rw [here] at begun
      obtain ⟨function, middle, begun, ended⟩ := exists_of_bind begun
      cases ended
      exact functionDef_carries_entry lanes budget n stream _ after stands (bind_of_ok begun)
  | letWord =>
      rw [here] at begun
      obtain ⟨found, middle, begun, ended⟩ := exists_of_bind begun
      cases ended
      exact declaration_carries_entry lanes budget n ⟨_, stands.current, here⟩ (.inl rfl) stream _
        after stands (bind_of_ok begun)
  | mutableWord =>
      rw [here] at begun
      obtain ⟨found, middle, begun, ended⟩ := exists_of_bind begun
      cases ended
      exact declaration_carries_entry lanes budget n ⟨_, stands.current, here⟩ (.inr rfl) stream _
        after stands (bind_of_ok begun)
  | _ =>
      rw [here] at begun
      cases begun

theorem Entry.parseAll_of_carries {source : Bytes} {element : Parse Entry} {entries : List Entry}
    {budget : Nat} (larger : budgetOf source ≤ budget)
    (started : TokenStream.ofSource source = .ok stream) (listed : Elements element stream entries)
    (parts : ∀ (lanes : Lanes) (n : Nat),
      lanes.Carries (Entry.relocate lanes.move) element (entry budget) n) :
    Entry.parseAll source = .ok entries := by
  have stands := TokenStream.ofSource_standsAt started
  obtain ⟨tokens, last, completes⟩ := Elements.exists_completes (parts (alone _)) listed stands
  have each (n : Nat) : ∃ token, (Lexer.ofSource source).item n = .ok token ∧
      (Lexer.ofSource source).item n = .ok (token.relocate id) := by
    cases found : (Lexer.ofSource source).item n with
    | error error => exact absurd found (completes.faultless n error)
    | ok token => exact ⟨token, rfl, rfl⟩
  have whole : Elements (entry budget) stream (entries.map (Entry.relocate id)) :=
    .moved each (parts _) listed stands stream stands
  have same : Entry.relocate id = id := funext Entry.relocate_id
  rw [same, List.map_id] at whole
  exact parseAll_of_elements larger started whole

theorem Program.parseAll_of_parse {source : Bytes} {program : Program}
    (parsed : Program.parse source = .ok program) :
    Entry.parseAll source = .ok (program.definitions.map Definition.entry) := by
  obtain ⟨stream, last, started, read⟩ := exists_of_runOn parsed
  obtain ⟨definitions, middle, read, ended⟩ := exists_of_bind read
  cases ended
  have listed := (Elements.of_read (budgetOf source) read).map Definition.entry
  apply Entry.parseAll_of_carries (Nat.le_succ (budgetOf source)) started listed
  intro lanes n
  exact definition_carries_entry lanes (budgetOf source) n

theorem Elements.of_wholeExpression {budget : Nat} {expr : Expr}
    (read : wholeExpression budget stream = .ok (expr, after)) :
    Elements (do return Entry.expression (← expression budget)) stream [.expression expr] := by
  have listed : (wholeExpression budget >>= fun expr => pure [Entry.expression expr]) stream =
      .ok ([.expression expr], after) := bind_of_ok read
  rw [wholeExpression, bind_assoc] at listed
  refine of_skipSemicolons budget (fun stream other listed => ?_) listed
  obtain ⟨found, final, read, ended⟩ := exists_of_bind listed
  cases ended
  obtain ⟨found, middle, begun, read⟩ := exists_of_bind read
  obtain ⟨_, further, skipped, read⟩ := exists_of_bind read
  rw [kind_bind] at read
  split at read
  · rename_i closed
    cases read
    refine .item ⟨other, fun at_end => ?_⟩ (bind_of_ok begun) ?_
      (.of_skipped budget skipped (.done closed))
    · obtain ⟨error, refused⟩ := expression_at_end budget at_end
      rw [refused] at begun
      cases begun
    · by_cases semicolon : middle.current.kind = .semicolon
      · exact .inl semicolon
      · cases budget with
        | zero => cases skipped
        | succ budget =>
            rw [skipSemicolons, kind_bind, if_neg semicolon] at skipped
            cases skipped
            exact .inr closed
  · cases read

theorem Expr.parseAll_of_parse {source : Bytes} {expr : Expr}
    (parsed : Expr.parse source = .ok expr) : Entry.parseAll source = .ok [.expression expr] := by
  obtain ⟨stream, last, started, read⟩ := exists_of_runOn parsed
  have listed := Elements.of_wholeExpression read
  apply Entry.parseAll_of_carries (Nat.le_refl (budgetOf source)) started listed
  intro lanes n
  exact expression_carries_entry lanes (budgetOf source) n

end Reading

/-! What comes of a definition. -/

namespace Eval

/-- A named value is registered as a declaration of it is evaluated, unless the latter, which is one
level deeper, comes to the limit. -/
theorem enterOne_agrees_define (conditions : Conditions) (quiet : conditions.traced = false)
    (definition : Definition) (present : definition ≠ .missing) :
    Agrees Event.output (·.isOverflow = true) (Session.enterOne conditions definition.entry)
      (define conditions definition) := by
  have unseen : conditions.Unseen Event.output conditions :=
    ⟨rfl, rfl, .inl rfl, fun _ _ _ => rfl, fun _ _ => rfl⟩
  cases definition with
  | missing => exact absurd rfl present
  | function defined => exact define_agrees unseen rfl (.function defined)
  | value defined =>
      change Agrees _ _ (withRoom conditions conditions.maxDepth Scopes.rootId defined.declaration)
        (withRoom conditions conditions.maxDepth Scopes.rootId defined.value >>= _)
      cases conditions.maxDepth with
      | zero =>
          -- The declaration itself finds no room.
          intro world other _
          have stopped : withRoom conditions 0 Scopes.rootId defined.declaration world =
              .error (.fault (.tooDeep conditions.maxDepth)) world := rfl
          rw [stopped]
          apply Matches.exempted
          rfl
      | succ room =>
          rw [withRoom_quiet quiet room Scopes.rootId _ Expr.noConfusion]
          have deeper : Agrees Event.output (·.isOverflow = true)
              (withRoom conditions room Scopes.rootId defined.value)
              (withRoom conditions (room + 1) Scopes.rootId defined.value) :=
            withRoom_agrees unseen 1 (.inr fun _ => rfl) room Scopes.rootId defined.value
          apply deeper.bind
          intro value
          exact (declare_agrees _ _ value _).bind fun _ => .pure value

end Eval

theorem Loading.entry_eq (definition : Definition) (bodies : Nat) :
    Loading.entry definition.entry bodies =
      ((Loading.definition definition bodies).1.entry, (Loading.definition definition bodies).2) := by
  cases definition <;> rfl

def Session.enterEntry (session : Session) (entry : Entry) : Except Failure Value × Session :=
  let (loaded, session) := session.load (Loading.entry entry)
  session.run (enterOne session.conditions loaded)

theorem Session.define_eq_enterEntry (session : Session) (quiet : session.conditions.traced = false)
    (definition : Definition) (present : definition ≠ .missing)
    (roomy : ∀ halt, (session.enterEntry definition.entry).1 = .error (.halted halt) →
      halt.isOverflow = false) :
    (session.define definition).1 = (session.enterEntry definition.entry).1 ∧
      (session.enterEntry definition.entry).2.world.Alike Event.output
        (session.define definition).2.world := by
  have loaded : (Loading.definition definition session.bodies).1 ≠ .missing := by
    cases definition with
    | missing => exact absurd rfl present
    | _ => exact Definition.noConfusion
  have agrees := Eval.enterOne_agrees_define session.conditions quiet _ loaded session.world
    session.world (.refl _)
  simp only [enterEntry, define, load_eq, run, EStateM.run, Loading.entry_eq] at roomy ⊢
  generalize enterOne session.conditions (Loading.definition definition session.bodies).1.entry
    session.world = first at agrees roomy
  generalize Eval.define session.conditions (Loading.definition definition session.bodies).1
    session.world = second at agrees
  cases agrees with
  | ok value alike => exact ⟨rfl, alike⟩
  | error halt alike => exact ⟨rfl, alike⟩
  | exempted reason =>
      have none := roomy _ rfl
      rw [reason] at none
      cases none

/-- What is read as a program or as an expression is read as interactive input, with the same
elements, each definition as its entry. To register such a definition answers what taking in its entry
does, and leaves the same scopes, functions and output, unless the entry overflows. -/
theorem Session.entry_points_agree (source : Bytes) :
    (∀ program, Program.parse source = .ok program →
      Entry.parseAll source = .ok (program.definitions.map Definition.entry) ∧
      ∀ definition ∈ program.definitions, ∀ session : Session, session.conditions.traced = false →
        (∀ halt, (session.enterEntry definition.entry).1 = .error (.halted halt) →
          halt.isOverflow = false) →
        let defined := session.define definition
        let entered := session.enterEntry definition.entry
        defined.1 = entered.1 ∧ defined.2.world.scopes = entered.2.world.scopes ∧
          defined.2.world.functions = entered.2.world.functions ∧
          defined.2.world.output = entered.2.world.output) ∧
    ∀ expr, Expr.parse source = .ok expr → Entry.parseAll source = .ok [.expression expr] := by
  refine ⟨fun program parsed => ⟨Program.parseAll_of_parse parsed, ?_⟩, fun expr parsed =>
    Expr.parseAll_of_parse parsed⟩
  intro definition member session quiet roomy
  have present : definition ≠ .missing := by
    rintro rfl
    exact Program.intact_of_parse parsed .missing member
  obtain ⟨answer, alike⟩ := session.define_eq_enterEntry quiet definition present roomy
  exact ⟨answer, alike.scopes.symm, alike.functions.symm, alike.seen.symm⟩

def Program.small : Program where
  definitions :=
    [.value { name := "y", value := .int 2 ⟨16, 1, 17⟩, mutable := true, position := ⟨0, 1, 1⟩ },
     .function { name := "f", params := ["x"], position := ⟨18, 2, 1⟩
                 body := { elements := [.identifier "x" ⟨28, 2, 11⟩], position := ⟨26, 2, 9⟩ } }]

theorem Session.entry_points_agree_sample :
    Entry.parseAll (Bytes.ofString "mutable let y = 2\nfn f(x) \x7b x \x7d") =
        .ok (Program.small.definitions.map Definition.entry) ∧
      (∀ definition ∈ Program.small.definitions,
        let session : Session := { conditions := { maxDepth := 2 } }
        (session.define definition).1 = (session.enterEntry definition.entry).1 ∧
          (session.define definition).2.world.output =
            (session.enterEntry definition.entry).2.world.output) ∧
      Entry.parseAll (Bytes.ofString "fn(x) \x7b x \x7d") = .ok [.expression
        (.function ["x"] .unloaded [.identifier "x" ⟨8, 1, 9⟩] ⟨6, 1, 7⟩ ⟨0, 1, 1⟩)] := by
  have read : Program.parse (Bytes.ofString "mutable let y = 2\nfn f(x) \x7b x \x7d") =
      .ok Program.small := by
    decide +kernel
  obtain ⟨entries, agree⟩ := (Session.entry_points_agree _).1 Program.small read
  refine ⟨entries, fun definition member => ?_, (Session.entry_points_agree _).2 _ (by decide +kernel)⟩
  have roomy : ∀ halt, (({ conditions := { maxDepth := 2 } } : Session).enterEntry
      definition.entry).1 = .error (.halted halt) → halt.isOverflow = false := by
    intro halt failed
    rcases List.mem_pair.mp member with rfl | rfl <;> cases failed
  obtain ⟨answer, -, -, output⟩ :=
    agree definition member { conditions := { maxDepth := 2 } } rfl roomy
  exact ⟨answer, output⟩

end Koy
