import Mathlib.Data.List.Forall2
import Koy.Proofs.Decimal
import Koy.Proofs.NamedTokens
import Koy.Proofs.Productions

/-! What tokens say. They show contents: names, numbers, texts, truth values and operators; the other
words and signs show nothing. A form of the grammar tells what its parts tell, in their order. -/

namespace Koy

inductive Content where
  | name (spelling : String)
  | key (text : String)
  | number (value : Int)
  | text (content : Bytes)
  | bool (value : Bool)
  | operator (op : BinaryOp)
  | update (op : UpdateOp)
  deriving DecidableEq, Repr

def TokenKind.carries : TokenKind → Bool
  | .identifier | .number | .text | .trueWord | .falseWord | .increment | .decrement => true
  | kind => BinaryOp.all.any fun op => op.token = kind

/-- The token shows the content. A number is shown by its decimal digits. -/
inductive Token.Shows (token : Token) : Content → Prop
  | name (kind : token.kind = .identifier) : Shows token (.name token.lexeme)
  | key (kind : token.kind = .identifier ∨ token.kind = .text) : Shows token (.key token.lexeme)
  | number (kind : token.kind = .number) (digits : token.lexeme.toList.all Char.isDigit = true) :
      Shows token (.number (Nat.ofDigitChars 10 token.lexeme.toList 0))
  | text (kind : token.kind = .text) : Shows token (.text (Bytes.ofString token.lexeme))
  | bool (value : Bool) (kind : token.kind = if value then .trueWord else .falseWord) :
      Shows token (.bool value)
  | operator (op : BinaryOp) (known : op ∈ BinaryOp.all) (kind : token.kind = op.token) :
      Shows token (.operator op)
  | update (op : UpdateOp) (kind : token.kind = op.token) : Shows token (.update op)

theorem Token.Shows.carries {token : Token} {content : Content} (shown : token.Shows content) :
    token.kind.carries = true := by
  cases shown with
  | name kind | number kind | text kind => rw [kind]; rfl
  | key kind => rcases kind with kind | kind <;> rw [kind] <;> rfl
  | bool value kind => cases value <;> rw [kind] <;> rfl
  | operator op known kind =>
      have all : ∀ op ∈ BinaryOp.all, op.token.carries = true := by decide
      rw [kind]
      exact all op known
  | update op kind => cases op <;> rw [kind] <;> rfl

theorem TokenKind.keyword?_ne_number (word : String) :
    (keyword? word).getD .identifier ≠ .number := by
  unfold keyword?
  split <;> decide

theorem Token.Sourced.digit {token : Token} (sourced : token.Sourced)
    (number : token.kind = .number) :
    ∃ c digits, token.lexeme.toList = c :: digits ∧ Text.isDecimalDigit c = true := by
  rcases sourced with semicolon | brace | ended | ⟨span, spells⟩
  · simp [number] at semicolon
  · simp [number] at brace
  · simp [number] at ended
  · generalize token.lexeme = lexeme at spells
    generalize token.kind = kind at spells number
    cases spells with
    | name => exact absurd number (TokenKind.keyword?_ne_number _)
    | number unnamed digit digits => exact ⟨_, _, String.toList_ofList, digit⟩
    | text => cases number
    | sign listed =>
        have absent : TokenKind.number ∉ Lexeme.signs := by decide
        exact absurd (number ▸ listed) absent

/-- All that the token shows: one content or, if it is a mark of the grammar, nothing. -/
inductive Token.Gives (token : Token) : List Content → Prop
  | nothing (silent : token.kind.carries = false) : Gives token []
  | one {content : Content} (shown : token.Shows content) : Gives token [content]

/-- The tokens from one place up to the other show these contents, in this order. -/
inductive Items.Tells (items : Items) : Nat → List Content → Nat → Prop
  | done (n : Nat) : Tells items n [] n
  | step {n m : Nat} {token : Token} {given contents : List Content} (here : items n = .ok token)
      (gives : token.Gives given) (rest : Tells items (n + 1) contents m) :
      Tells items n (given ++ contents) m

namespace Items

variable {items : Items} {n m k : Nat} {contents more : List Content}

theorem tells_token {token : Token} {content : Content} (here : items n = .ok token)
    (shown : token.Shows content) : items.Tells n [content] (n + 1) :=
  .step here (.one shown) (.done _)

theorem tells_mark {kind : TokenKind} (here : items.HasAt n kind) (silent : kind.carries = false) :
    items.Tells n [] (n + 1) := by
  obtain ⟨token, found, rfl⟩ := here
  exact .step found (.nothing silent) (.done _)

namespace Tells

theorem append (first : items.Tells n contents m) (second : items.Tells m more k) :
    items.Tells n (contents ++ more) k := by
  induction first with
  | done => exact second
  | step here gives _ ih =>
      rw [List.append_assoc]
      exact .step here gives (ih second)

theorem after_mark {kind : TokenKind} (rest : items.Tells (n + 1) contents m)
    (here : items.HasAt n kind) (silent : kind.carries = false) : items.Tells n contents m :=
  (tells_mark here silent).append rest

theorem before_mark {kind : TokenKind} (start : items.Tells n contents m)
    (here : items.HasAt m kind) (silent : kind.carries = false) :
    items.Tells n contents (m + 1) := by
  rw [← List.append_nil contents]
  exact start.append (tells_mark here silent)

theorem forall₂ (tells : items.Tells n contents m) (ended : items.HasAt m .endOfInput)
    {tokens : List Token} {last : Token} (closing : last.kind = .endOfInput)
    (proper : ∀ token ∈ tokens, token.kind ≠ .endOfInput)
    (holds : ∀ i, items (n + i) = .ok (tokens.getD i last)) :
    List.Forall₂ Token.Shows (tokens.filter (·.kind.carries)) contents := by
  induction tells generalizing tokens with
  | done n =>
      cases tokens with
      | nil => exact .nil
      | cons token tokens =>
          obtain ⟨found, here, is⟩ := ended
          obtain rfl : found = token := Except.ok.inj (here.symm.trans (holds 0))
          exact absurd is (proper found List.mem_cons_self)
  | @step n m token given contents here gives _ ih =>
      have later : ∀ i, items (n + 1 + i) = .ok (tokens.getD (i + 1) last) := by
        intro i
        rw [Nat.add_right_comm]
        exact holds (i + 1)
      cases tokens with
      | nil =>
          -- The end token shows nothing, however often it is passed over.
          obtain rfl : token = last := Except.ok.inj (here.symm.trans (holds 0))
          cases gives with
          | nothing silent => exact ih ended proper later
          | one shown =>
              have carried := shown.carries
              rw [closing] at carried
              cases carried
      | cons first tokens =>
          obtain rfl : token = first := Except.ok.inj (here.symm.trans (holds 0))
          have rest := ih ended (List.forall_mem_cons.mp proper).2 later
          cases gives with
          | nothing silent =>
              simp only [List.filter_cons, silent, Bool.false_eq_true, if_false]
              exact rest
          | one shown =>
              simp only [List.filter_cons, shown.carries, if_true]
              exact .cons shown rest

end Tells

end Items

section

variable {items : Items} {n m : Nat} {α : Type} {part : Nat → α → α → Nat → Prop}
  {content : α → List Content}

theorem Skipped.tells (skipped : Skipped items n m) : items.Tells n [] m := by
  induction skipped with
  | done n => exact .done n
  | step here _ ih => exact ih.after_mark here rfl

section

variable (each : ∀ n a b m, part n a b m → items.Tells n (content a) m)

include each

theorem Listed.tells {as bs : List α} (listed : Listed items part n as bs m) :
    items.Tells n (as.flatMap content) m := by
  induction listed with
  | nil n => exact .done n
  | @one n m a b first =>
      rw [List.flatMap_singleton]
      exact each n a b m first
  | cons first comma _ ih =>
      rw [List.flatMap_cons]
      exact (each _ _ _ _ first).append (ih.after_mark comma rfl)

theorem Statements.tells {as bs : List α} (statements : Statements items part n as bs m) :
    items.Tells n (as.flatMap content) m := by
  induction statements with
  | nil skipped => exact skipped.tells
  | cons skipped first _ ih =>
      rw [List.flatMap_cons]
      exact skipped.tells.append ((each _ _ _ _ first).append ih)

theorem Enclosed.tells {opening closing : TokenKind} {a b : α}
    (enclosed : Enclosed items part opening closing n a b m)
    (silent : opening.carries = false ∧ closing.carries = false) : items.Tells n (content a) m := by
  obtain ⟨opens, inside, closes⟩ := enclosed
  exact ((each _ _ _ _ inside).after_mark opens silent.1).before_mark closes silent.2

theorem Keyed.tells {keys : List TokenKind} {mark : TokenKind} {label : String → Content}
    {a b : String × α} (keyed : Keyed items part keys mark n a b m)
    (shows : ∀ token : Token, token.kind ∈ keys → token.Shows (label token.lexeme))
    (silent : mark.carries = false) : items.Tells n (label a.1 :: content a.2) m := by
  obtain ⟨here, is, sign, value⟩ := keyed
  exact .step here (.one (shows _ is)) ((each _ _ _ _ value).after_mark sign silent)

end

theorem Named.tells {a b : String} (named : Named items n a b m) : items.Tells n [.name a] m := by
  obtain ⟨here, is⟩ := named
  exact Items.tells_token here (.name is)

end

end Koy
