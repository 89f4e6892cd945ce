import Mathlib.Data.List.Basic
import Koy.Proofs.Alongside
import Koy.Proofs.Finality

/-! Interactive input that is read in chunks. A chunk that ends a line and is read leaves nothing open:
no bracket, no statement that a further line could end, no conditional that the next chunk could go on
with. So the entries of the next chunk are those that it has by itself, further down. -/

namespace Koy

open Parse Grammar Lanes

variable {α β : Type} {element other : Parse α} {stream last : TokenStream} {values : List α}

inductive Elements (element : Parse α) : TokenStream → List α → Prop where
  | done {stream : TokenStream} (ended : stream.current.kind = .endOfInput) : Elements element stream []
  | skip {stream after : TokenStream} {values : List α}
      (semicolon : stream.current.kind = .semicolon) (moved : advance stream = .ok ((), after))
      (rest : Elements element after values) : Elements element stream values
  | item {stream after : TokenStream} {value : α} {values : List α}
      (proper : stream.current.kind ≠ .semicolon ∧ stream.current.kind ≠ .endOfInput)
      (read : element stream = .ok (value, after))
      (ended : after.current.kind = .semicolon ∨ after.current.kind = .endOfInput)
      (rest : Elements element after values) : Elements element stream (value :: values)

theorem skipSemicolons_bind_eq (budget : Nat) (next : Unit → Parse β) :
    (skipSemicolons (budget + 1) >>= next) = (kind >>= fun here =>
      if here = .semicolon then advance >>= fun _ => skipSemicolons budget >>= next
      else next ()) := by
  rw [skipSemicolons, bind_assoc]
  congr 1
  funext here
  split
  · rw [bind_assoc]
  · rw [pure_bind]

theorem skipSemicolons_bind_of_semicolon (budget : Nat) (next : Unit → Parse β)
    (semicolon : stream.current.kind = .semicolon) :
    (skipSemicolons (budget + 1) >>= next) stream =
      (advance >>= fun _ => skipSemicolons budget >>= next) stream := by
  rw [skipSemicolons_bind_eq, kind_bind, if_pos semicolon]

theorem skipSemicolons_bind_of_ne (budget : Nat) (next : Unit → Parse β)
    (other : stream.current.kind ≠ .semicolon) :
    (skipSemicolons (budget + 1) >>= next) stream = next () stream := by
  rw [skipSemicolons_bind_eq, kind_bind, if_neg other]

theorem endOfElement_bind_of_semicolon (next : Unit → Parse β)
    (semicolon : stream.current.kind = .semicolon) :
    (endOfElement >>= next) stream = (advance >>= next) stream := by
  rw [endOfElement, bind_assoc, kind_bind, semicolon]

theorem endOfElement_bind_of_end (next : Unit → Parse β)
    (ended : stream.current.kind = .endOfInput) : (endOfElement >>= next) stream = next () stream := by
  rw [endOfElement, bind_assoc, kind_bind, ended, pure_bind]

def elementsHere (element : Parse α) (budget : Nat) : Parse (List α) := do
  if (← kind) = .endOfInput then return []
  let first ← element
  endOfElement
  return first :: (← elements element budget)

theorem elements_succ (element : Parse α) (budget : Nat) :
    elements element (budget + 1) =
      (skipSemicolons (budget + 1) >>= fun _ => elementsHere element budget) := rfl

namespace Elements

theorem of_skipSemicolons {tail : Parse (List α)} (budget : Nat)
    (finish : ∀ stream, stream.current.kind ≠ .semicolon → tail stream = .ok (values, last) →
      Elements element stream values)
    (read : (skipSemicolons budget >>= fun _ => tail) stream = .ok (values, last)) :
    Elements element stream values := by
  induction budget generalizing stream with
  | zero => cases read
  | succ budget ih =>
      by_cases semicolon : stream.current.kind = .semicolon
      · rw [skipSemicolons_bind_of_semicolon budget _ semicolon] at read
        obtain ⟨_, after, moved, rest⟩ := exists_of_bind read
        exact .skip semicolon moved (ih rest)
      · rw [skipSemicolons_bind_of_ne budget _ semicolon] at read
        exact finish stream semicolon read

theorem of_read (budget : Nat) (read : elements element budget stream = .ok (values, last)) :
    Elements element stream values := by
  induction budget generalizing stream values with
  | zero => cases read
  | succ budget ih =>
      rw [elements_succ] at read
      refine of_skipSemicolons (budget + 1) (fun stream other read => ?_) read
      rw [elementsHere, kind_bind] at read
      split at read
      · rename_i ended
        cases read
        exact .done ended
      · rename_i proper
        obtain ⟨first, after, begun, read⟩ := exists_of_bind read
        cases here : after.current.kind with
        | semicolon =>
            rw [endOfElement_bind_of_semicolon _ here] at read
            obtain ⟨_, middle, moved, read⟩ := exists_of_bind read
            obtain ⟨rest, final, read, whole⟩ := exists_of_bind read
            cases whole
            exact .item ⟨other, proper⟩ begun (.inl here) (.skip here moved (ih read))
        | endOfInput =>
            rw [endOfElement_bind_of_end _ here] at read
            obtain ⟨rest, final, read, whole⟩ := exists_of_bind read
            cases whole
            exact .item ⟨other, proper⟩ begun (.inr here) (ih read)
        | _ =>
            rw [endOfElement, bind_assoc, kind_bind, here] at read
            cases read

theorem exists_read (listed : Elements element stream values) :
    ∃ last enough, ∀ budget room, enough ≤ budget → enough ≤ room →
      (skipSemicolons room >>= fun _ => elementsHere element budget) stream = .ok (values, last) := by
  -- The semicolons have a budget of their own, since each of them takes one from it and none from
  -- that of the elements.
  induction listed with
  | @done stream ended =>
      refine ⟨stream, 1, fun budget room _ roomy => ?_⟩
      obtain ⟨room, rfl⟩ := Nat.exists_eq_add_of_le' roomy
      rw [skipSemicolons_bind_of_ne room _ (by rw [ended]; decide), elementsHere, kind_bind,
        if_pos ended]
      rfl
  | skip semicolon moved _ ih =>
      obtain ⟨last, enough, read⟩ := ih
      refine ⟨last, enough + 1, fun budget room large roomy => ?_⟩
      obtain ⟨room, rfl⟩ : ∃ r, room = r + 1 := ⟨room - 1, by omega⟩
      rw [skipSemicolons_bind_of_semicolon room _ semicolon, bind_of_ok moved]
      exact read budget room (by omega) (by omega)
  | item proper begun ended _ ih =>
      obtain ⟨last, enough, read⟩ := ih
      refine ⟨last, enough + 1, fun budget room large roomy => ?_⟩
      obtain ⟨room, rfl⟩ : ∃ r, room = r + 1 := ⟨room - 1, by omega⟩
      obtain ⟨budget, rfl⟩ : ∃ b, budget = b + 1 := ⟨budget - 1, by omega⟩
      rw [skipSemicolons_bind_of_ne room _ proper.1, elementsHere, kind_bind, if_neg proper.2,
        bind_of_ok begun]
      rcases ended with semicolon | ended
      · have rest := read budget (budget + 2) (by omega) (by omega)
        rw [skipSemicolons_bind_of_semicolon _ _ semicolon] at rest
        obtain ⟨_, middle, moved, rest⟩ := exists_of_bind rest
        rw [endOfElement_bind_of_semicolon _ semicolon, bind_of_ok moved, elements_succ,
          bind_of_ok rest]
        rfl
      · have rest := read budget (budget + 1) (by omega) (by omega)
        rw [endOfElement_bind_of_end _ ended, elements_succ, bind_of_ok rest]
        rfl

end Elements

namespace Lanes

variable {lanes : Lanes} {n : Nat}

/-- The sequences go together wherever an element can end. -/
structure Joins (lanes : Lanes) : Prop where
  semicolon {m : Nat} (here : lanes.items.HasAt m .semicolon) : lanes.near m
  ending {m : Nat} (ends : lanes.items.EndsAt m) (here : lanes.items.HasAt m .endOfInput) : lanes.near m

theorem kind_eq {long : TokenStream} (stands : stream.StandsAt lanes.items n)
    (stands' : long.StandsAt lanes.others n) (reached : lanes.near n) :
    long.current.kind = stream.current.kind := by
  have there := lanes.others_eq stands.current reached
  rw [stands'.current] at there
  rw [Except.ok.inj there, Token.relocate_kind]

theorem exists_advance {long : TokenStream} (stands : long.StandsAt lanes.others n)
    (reached : lanes.near n) :
    ∃ after, advance long = .ok ((), after) ∧ after.StandsAt lanes.others (n + 1) := by
  obtain ⟨-, other, -, there, -⟩ := lanes.alike reached
  exact stands.exists_advance there

/-- From one place to the other the second sequence has these elements, and what it has after them is
left to be read. -/
structure Leads (lanes : Lanes) (element : Parse α) (values : List α) (n m : Nat) : Prop where
  near : ∀ k, n ≤ k → k < m → lanes.near k
  goes : ∀ long, long.StandsAt lanes.others n → ∃ reached, reached.StandsAt lanes.others m ∧
    ∀ more, Elements element reached more → Elements element long (values ++ more)

theorem leads_self (n : Nat) : lanes.Leads element [] n n where
  near _ le lt := absurd lt (Nat.not_lt_of_le le)
  goes long stands := ⟨long, stands, fun _ rest => rest⟩

theorem Leads.trans {m k : Nat} {values' : List α} (first : lanes.Leads element values n m)
    (second : lanes.Leads element values' m k) : lanes.Leads element (values ++ values') n k where
  near i le lt := by
    rcases Nat.lt_or_ge i m with sooner | later
    · exact first.near i le sooner
    · exact second.near i later lt
  goes long stands := by
    obtain ⟨middle, stands', listed⟩ := first.goes long stands
    obtain ⟨reached, stands'', listed'⟩ := second.goes middle stands'
    refine ⟨reached, stands'', fun more rest => ?_⟩
    rw [List.append_assoc]
    exact listed _ (listed' more rest)

theorem leads_semicolon (stands : stream.StandsAt lanes.items n)
    (semicolon : stream.current.kind = .semicolon) (near : lanes.near n) :
    lanes.Leads element [] n (n + 1) where
  near _ _ lt := lanes.nearer (Nat.le_of_lt_succ lt) near
  goes long stands' := by
    obtain ⟨after, moved, stands''⟩ := exists_advance stands' near
    refine ⟨after, stands'', fun more rest => .skip ?_ moved rest⟩
    rw [kind_eq stands stands' near, semicolon]

theorem leads_element {change : α → α} {after : TokenStream} {value : α} {m : Nat}
    (stands : stream.StandsAt lanes.items n) (stands' : after.StandsAt lanes.items m) (le : n ≤ m)
    (proper : stream.current.kind ≠ .semicolon ∧ stream.current.kind ≠ .endOfInput)
    (ended : after.current.kind = .semicolon ∨ after.current.kind = .endOfInput) (near : lanes.near m)
    (carried : ∀ along, along.StandsAt lanes.others n → ∃ after',
      element along = .ok (change value, after') ∧ after'.StandsAt lanes.others m) :
    lanes.Leads element [change value] n m where
  near _ _ lt := lanes.nearer (Nat.le_of_lt lt) near
  goes long longStands := by
    obtain ⟨after', read, longStands'⟩ := carried long longStands
    refine ⟨after', longStands', fun more rest => .item ?_ read ?_ rest⟩
    · rw [kind_eq stands longStands (lanes.nearer le near)]
      exact proper
    · rw [kind_eq stands' longStands' near]
      exact ended

end Lanes

theorem Elements.carries (lanes : Lanes) {change : α → α} {n : Nat}
    (parts : ∀ n, lanes.Carries change element other n)
    (listed : Elements element stream values) (stands : stream.StandsAt lanes.items n) :
    ∃ m, lanes.items.HasAt m .endOfInput ∧ lanes.items.Balanced n m ∧
      (lanes.Joins → lanes.Leads other (values.map change) n m) := by
  induction listed generalizing n with
  | done ended => exact ⟨n, ⟨_, stands.current, ended⟩, .refl n, fun _ => leads_self n⟩
  | @skip stream after values semicolon moved _ ih =>
      have stands' : after.StandsAt lanes.items (n + 1) := stands.of_shift (of_advance moved)
      obtain ⟨m, ended, even, leads⟩ := ih stands'
      have passed := Items.balanced_of_plain ⟨_, stands.current, semicolon⟩ ⟨rfl, rfl⟩
      refine ⟨m, ended, passed.trans even, fun joins => ?_⟩
      have near := joins.semicolon ⟨_, stands.current, semicolon⟩
      exact (leads_semicolon stands semicolon near).trans (leads joins)
  | @item stream after value values proper read ended _ ih =>
      obtain ⟨-, k, le, ⟨rfl, whole⟩, stands', carried⟩ := parts n stream value after stands read
      obtain ⟨m, ended', even, leads⟩ := ih stands'
      refine ⟨m, ended', whole.balanced.trans even, fun joins => ?_⟩
      -- Behind an element stands a semicolon, or the end right after a token that ends a statement.
      have near : lanes.near k := by
        rcases ended with semicolon | ended
        · exact joins.semicolon ⟨_, stands'.current, semicolon⟩
        · exact joins.ending whole.ends ⟨_, stands'.current, ended⟩
      exact (leads_element stands stands' le proper ended near (carried near)).trans (leads joins)

theorem joined_refuses {expr : Parse Expr} {budget : Nat}
    (refused : ∃ error, unary expr budget stream = .error error) (tighter : List Level) :
    ∃ error, joined expr budget tighter stream = .error error := by
  induction tighter with
  | nil => exact refused
  | cons level tighter ih =>
      obtain ⟨error, refused⟩ := ih
      exact ⟨error, bind_of_error refused⟩

theorem expression_refuses (budget : Nat)
    (plain : stream.current.kind ∉
      [.letWord, .mutableWord, .identifier, .minus, .increment, .decrement])
    (refused : ∀ expr budget, ∃ error, primary expr budget stream = .error error) :
    ∃ error, expression budget stream = .error error := by
  simp only [List.mem_cons, List.not_mem_nil, or_false, not_or] at plain
  obtain ⟨notLet, notMutable, notName, notMinus, notIncrement, notDecrement⟩ := plain
  cases budget with
  | zero => exact ⟨_, rfl⟩
  | succ budget =>
      have whole : expression (budget + 1) stream =
          joined (expression budget) (budget + 1) levels stream := by
        rw [expression, expressionOf, kind_bind]
        generalize stream.current.kind = next at notLet notMutable notName
        cases next <;> first | contradiction | rfl
      have operand : unary (expression budget) (budget + 1) stream =
          (primary (expression budget) (budget + 1) >>= updates (budget + 1)) stream := by
        have unmarked : updateOp? stream.current.kind = none := by
          generalize stream.current.kind = next at notIncrement notDecrement
          cases next <;> first | contradiction | rfl
        rw [unary, token_bind, if_neg notMinus, unmarked]
      obtain ⟨error, failed⟩ := refused (expression budget) (budget + 1)
      rw [whole]
      exact joined_refuses ⟨error, operand.trans (bind_of_error failed)⟩ levels

theorem expression_at_else (budget : Nat) (word : stream.current.kind = .elseWord) :
    ∃ error, expression budget stream = .error error := by
  apply expression_refuses budget (by rw [word]; decide)
  intro expr budget
  rw [primary, token_bind, word]
  exact ⟨_, rfl⟩

theorem entry_at_else (budget : Nat) (word : stream.current.kind = .elseWord) :
    ∃ error, entry budget stream = .error error := by
  obtain ⟨error, refused⟩ := expression_at_else budget word
  rw [entry, kind_bind, word]
  exact ⟨error, bind_of_error refused⟩

theorem Elements.ne_else {budget : Nat} {entries : List Entry}
    (listed : Elements (entry budget) stream entries) : stream.current.kind ≠ .elseWord := by
  intro word
  cases listed with
  | done ended =>
      rw [word] at ended
      cases ended
  | skip semicolon =>
      rw [word] at semicolon
      cases semicolon
  | item _ read =>
      obtain ⟨error, refused⟩ := entry_at_else budget word
      rw [refused] at read
      cases read

namespace Lexer

variable {lexer after : Lexer} {tokens : List Token} {token : Token}

/-- A run up to the end of the text, where no bracket is open. -/
structure Completes (lexer : Lexer) (tokens : List Token) (after : Lexer) : Prop where
  sound : lexer.Sound
  passes : Passes lexer tokens after
  ended : Items.HasAt after.item 0 .endOfInput
  level : after.opened = []

theorem Completes.item_of_le (completes : lexer.Completes tokens after) {n : Nat}
    (beyond : tokens.length ≤ n) (found : lexer.item n = .ok token) : token.kind = .endOfInput := by
  obtain ⟨last, here, ended⟩ := completes.ended
  rw [completes.passes.item_of_le completes.sound here ended beyond] at found
  cases found
  exact ended

theorem Completes.faultless (completes : lexer.Completes tokens after) : lexer.Faultless := by
  obtain ⟨last, here, ended⟩ := completes.ended
  exact faultless_of_passes completes.passes completes.sound here ended

theorem Completes.last_ends (completes : lexer.Completes tokens after)
    (last : tokens.getLast? = some token) : token.kind.endsStatement = false := by
  obtain ⟨closing, here, ended⟩ := completes.ended
  rw [Bool.eq_false_iff]
  intro ends
  have pending := completes.passes.statementEnd? last ends
  have sound := completes.passes.sound completes.sound
  rw [statementEnd?_of_end sound completes.level here ended] at pending
  cases pending

theorem Passes.opened_at_end (passes : Passes lexer tokens after) (sound : lexer.Sound)
    (start : lexer.opened = []) (last : after.next.1 = .ok token) (ended : token.kind = .endOfInput)
    (n : Nat) : Items.opened lexer.item (tokens.length + n) = after.opened := by
  induction n with
  | zero =>
      have counted := Items.opened_eq_foldl fun n inside => passes.item_lt n inside
      rw [passes.opened_eq, start]
      exact counted
  | succ n ih =>
      have here := passes.item_of_le sound last ended (Nat.le_add_right tokens.length n)
      rw [← Nat.add_assoc, Items.opened_succ here, ih, ended]
      rfl

end Lexer

namespace Lanes

def alone (items : Items) : Lanes where
  move := id
  items := items
  others := items
  near _ := False
  nearer _ reached := reached
  same reached := reached.elim
  alike reached := reached.elim

def moved (move : Position → Position) (items others : Items)
    (each : ∀ n, ∃ token, items n = .ok token ∧ others n = .ok (token.relocate move)) : Lanes where
  move := move
  items := items
  others := others
  near _ := True
  nearer _ _ := trivial
  same _ := each _
  alike {n} _ := by
    obtain ⟨token, here, there⟩ := each (n + 1)
    exact ⟨token, _, here, there, Iff.rfl⟩

theorem moved_joins {move : Position → Position} {items others : Items}
    (each : ∀ n, ∃ token, items n = .ok token ∧ others n = .ok (token.relocate move)) :
    (moved move items others each).Joins :=
  ⟨fun _ => trivial, fun _ _ => trivial⟩

section

variable {short long after reached : Lexer} {tokens : List Token}
  (completes : short.Completes tokens after) (passes : Lexer.Passes long tokens reached)
  (proper : ∃ token, reached.item 0 = .ok token ∧ token.kind ≠ .elseWord)

def sharing : Lanes where
  move := id
  items := short.item
  others := long.item
  near n := n < tokens.length
  nearer le reached := Nat.lt_of_le_of_lt le reached
  same {n} reached := ⟨tokens[n], completes.passes.item_lt n reached, passes.item_lt n reached⟩
  alike {n} reached := by
    rcases Nat.lt_or_ge (n + 1) tokens.length with more | only
    · exact ⟨tokens[n + 1], tokens[n + 1], completes.passes.item_lt _ more, passes.item_lt _ more,
        Iff.rfl⟩
    · have at_end : n + 1 = tokens.length + 0 := Nat.le_antisymm reached only
      obtain ⟨last, here, ended⟩ := completes.ended
      obtain ⟨next, there, other⟩ := proper
      refine ⟨last, next, ?_, ?_, iff_of_false (ended ▸ by decide) other⟩
      · rw [at_end, completes.passes.item_add, here]
      · rw [at_end, passes.item_add, there]

theorem sharing_joins : (sharing completes passes proper).Joins where
  semicolon {m} := by
    rintro ⟨token, found, is⟩
    rcases Nat.lt_or_ge m tokens.length with inside | beyond
    · exact inside
    · rw [completes.item_of_le beyond found] at is
      cases is
  ending {m} := by
    rintro ⟨k, token, rfl, found, ends⟩ closed
    have found' : short.item k = .ok token := found
    have le : tokens.length ≤ k + 1 := completes.passes.le_of_end closed
    rcases Nat.lt_or_ge k tokens.length with inside | beyond
    · rw [completes.passes.item_lt k inside] at found'
      cases found'
      have last : tokens.getLast? = some tokens[k] := by
        rw [List.getLast?_eq_getElem?, List.getElem?_eq_some_iff]
        exact ⟨by omega, by congr 1; omega⟩
      rw [completes.last_ends last] at ends
      cases ends
    · rw [completes.item_of_le beyond found'] at ends
      cases ends

end

end Lanes

theorem Elements.exists_completes {source : Bytes} {change : α → α}
    (parts : ∀ n, (alone (Lexer.ofSource source).item).Carries change element other n)
    (listed : Elements element stream values)
    (stands : stream.StandsAt (Lexer.ofSource source).item 0) :
    ∃ tokens after, (Lexer.ofSource source).Completes tokens after := by
  obtain ⟨m, reaches, level, -⟩ := listed.carries (alone _) parts stands
  obtain ⟨tokens, after, last, passes, next, ended⟩ := Lexer.exists_passes_of_end reaches
  obtain ⟨n, rfl⟩ := Nat.exists_eq_add_of_le (passes.le_of_end reaches)
  have sound := Lexer.sound_of_free (Lexer.ofSource source) rfl
  refine ⟨tokens, after, sound, passes, ⟨last, next, ended⟩, ?_⟩
  rw [← passes.opened_at_end sound rfl next ended n]
  exact level.even

/-- The entries of a text that shares its tokens with the start of a longer one come first in it, and
the rest is read from where they end. -/
theorem Elements.shared {budget : Nat} {entries : List Entry} {short long after reached : Lexer}
    {tokens : List Token} (listed : Elements (entry budget) stream entries)
    (stands : stream.StandsAt short.item 0) (completes : short.Completes tokens after)
    (passes : Lexer.Passes long tokens reached)
    (proper : ∃ token, reached.item 0 = .ok token ∧ token.kind ≠ .elseWord)
    (longer : TokenStream) (stands' : longer.StandsAt long.item 0) :
    ∃ rest, rest.StandsAt reached.item 0 ∧ ∀ more, Elements (entry budget) rest more →
      Elements (entry budget) longer (entries ++ more) := by
  let lanes := sharing completes passes proper
  obtain ⟨m, closed, -, leads⟩ := listed.carries lanes (entry_carries budget) stands
  obtain ⟨near, goes⟩ := leads (sharing_joins completes passes proper)
  obtain ⟨rest, restStands, continued⟩ := goes longer stands'
  -- The entries go to the end of the shared tokens, where the one text ends, and no further.
  have same : m = tokens.length := by
    apply Nat.le_antisymm
    · apply Nat.le_of_not_lt
      intro further
      exact absurd (near tokens.length (Nat.zero_le _) further) (Nat.lt_irrefl _)
    · exact completes.passes.le_of_end closed
  refine ⟨rest, ⟨restStands.sound, fun i => ?_⟩, fun more listed' => ?_⟩
  · rw [restStands.item, same, Nat.zero_add]
    exact passes.item_add i
  · have whole := continued more listed'
    have same : Entry.relocate lanes.move = id := funext Entry.relocate_id
    rwa [same, List.map_id] at whole

theorem Elements.moved {change : α → α} {move : Position → Position} {items others : Items}
    (each : ∀ n, ∃ token, items n = .ok token ∧ others n = .ok (token.relocate move))
    (parts : ∀ n, (Lanes.moved move items others each).Carries change element other n)
    (listed : Elements element stream values) (stands : stream.StandsAt items 0)
    (along : TokenStream) (stands' : along.StandsAt others 0) :
    Elements other along (values.map change) := by
  let lanes := Lanes.moved move items others each
  obtain ⟨m, ⟨token, found, ended⟩, -, leads⟩ := listed.carries lanes parts stands
  obtain ⟨rest, restStands, continued⟩ := (leads (moved_joins each)).goes along stands'
  have there := lanes.others_eq found trivial
  rw [restStands.current] at there
  have closed : rest.current.kind = .endOfInput := by
    rw [Except.ok.inj there, Token.relocate_kind, ended]
  have whole := continued [] (.done closed)
  rwa [List.append_nil] at whole

namespace Entry

theorem exists_elements {source : Bytes} {entries : List Entry} {budget : Nat}
    (larger : budgetOf source ≤ budget) (read : parseAll source = .ok entries) :
    ∃ stream, stream.StandsAt (Lexer.ofSource source).item 0 ∧
      Elements (entry budget) stream entries := by
  rw [(parseAll_eq source budget larger).1] at read
  cases started : TokenStream.ofSource source with
  | error error =>
      rw [started] at read
      cases read
  | ok stream =>
      rw [started] at read
      change (reader budget stream >>= _) = _ at read
      cases found : reader budget stream with
      | error error =>
          rw [found] at read
          cases read
      | ok pair =>
          rw [found] at read
          cases read
          exact ⟨stream, TokenStream.ofSource_standsAt started, .of_read budget found⟩

theorem parseAll_of_elements {source : Bytes} {entries : List Entry} {budget : Nat}
    (larger : budgetOf source ≤ budget) (started : TokenStream.ofSource source = .ok stream)
    (listed : Elements (entry budget) stream entries) : parseAll source = .ok entries := by
  obtain ⟨last, enough, read⟩ := listed.exists_read
  have large : elements (entry budget) (budget + enough + 1) stream = .ok (entries, last) :=
    read (budget + enough) (budget + enough + 1) (by omega) (by omega)
  have steady := elements_steady (Nat.le_refl budget) ((ofSource_within started).mono larger)
    (by omega : budget ≤ budget + enough + 1)
  exact parseAll_ok larger started (steady.agrees.trans large)

theorem parseAll_append_of_line {source more : Bytes} {first second : List Entry}
    (ends : source.getLast? = some 10) (read : parseAll source = .ok first)
    (read' : parseAll more = .ok second) :
    parseAll (source ++ more) =
      .ok (first ++ second.map (relocate (.below source.length (source.count 10)))) := by
  obtain ⟨budget, enough, enough', enough''⟩ : ∃ budget, budgetOf source ≤ budget ∧
      budgetOf more ≤ budget ∧ budgetOf (source ++ more) ≤ budget :=
    ⟨budgetOf source + budgetOf more + budgetOf (source ++ more), by omega, by omega, by omega⟩
  obtain ⟨short, stands, listed⟩ := exists_elements enough read
  obtain ⟨rest, stands', listed'⟩ := exists_elements enough' read'
  obtain ⟨tokens, after, completes⟩ := Elements.exists_completes (entry_carries budget) listed stands
  obtain ⟨tokens', after', completes'⟩ :=
    Elements.exists_completes (entry_carries budget) listed' stands'
  have faultless := completes'.faultless
  obtain ⟨newline, clear⟩ := faultless.trivia rfl
  obtain ⟨last, next, ended⟩ := completes.ended
  obtain ⟨reached, together, moves⟩ :=
    Lexer.exists_run_append source more ends completes.passes next ended completes.level clear
  have start : reached.item 0 = _ := moves 0 _ stands'.current
  obtain ⟨long, started, sound, each⟩ := exists_stream (source ++ more) (tokens.length + 0) _
    ((together.item_add 0).trans start)
  obtain ⟨left, leftStands, continued⟩ := listed.shared stands completes together
    ⟨_, start, listed'.ne_else⟩ long ⟨sound, fun i => by rw [each, Nat.zero_add]⟩
  have moved (n : Nat) : ∃ token, (Lexer.ofSource more).item n = .ok token ∧
      reached.item n = .ok (token.relocate (.below source.length (source.count 10))) := by
    cases found : (Lexer.ofSource more).item n with
    | error error => exact absurd found (faultless n error)
    | ok token => exact ⟨token, rfl, moves n token found⟩
  exact parseAll_of_elements enough'' started
    (continued _ (.moved moved (entry_carries budget) listed' stands' left leftStands))

/-- Interactive input that is read in chunks, all but the last of which end a line, is read as a
whole: the entries of the later chunk have moved down by the bytes and the lines before it. -/
theorem parseAll_append (source more : Bytes) (ends : source = [] ∨ source.getLast? = some 10)
    (first second : List Entry) (read : parseAll source = .ok first)
    (read' : parseAll more = .ok second) :
    parseAll (source ++ more) =
      .ok (first ++ second.map (relocate (.below source.length (source.count 10)))) := by
  rcases ends with rfl | ends
  · have nothing : parseAll [] = .ok [] := rfl
    rw [nothing] at read
    cases read
    have same : relocate (.below 0 0) = id := funext relocate_id
    change parseAll more = .ok (second.map (relocate (.below 0 0)))
    rw [same, List.map_id, read']
  · exact parseAll_append_of_line ends read read'

theorem parseAll_append_sample :
    parseAll (Bytes.ofString "if (a) b\n" ++ Bytes.ofString "fn f(x) \x7b x \x7d\n") = .ok
      [.expression (.branch (.identifier "a" ⟨4, 1, 5⟩) (.identifier "b" ⟨7, 1, 8⟩) none ⟨0, 1, 1⟩),
       .function { name := "f", params := ["x"], position := ⟨9, 2, 1⟩
                   body := { elements := [.identifier "x" ⟨19, 2, 11⟩], position := ⟨17, 2, 9⟩ } }] :=
  parseAll_append (Bytes.ofString "if (a) b\n") (Bytes.ofString "fn f(x) \x7b x \x7d\n")
    (.inr (by decide))
    [.expression (.branch (.identifier "a" ⟨4, 1, 5⟩) (.identifier "b" ⟨7, 1, 8⟩) none ⟨0, 1, 1⟩)]
    [.function { name := "f", params := ["x"], position := ⟨0, 1, 1⟩
                 body := { elements := [.identifier "x" ⟨10, 1, 11⟩], position := ⟨8, 1, 9⟩ } }]
    (by decide +kernel) (by decide +kernel)

end Entry

end Koy
