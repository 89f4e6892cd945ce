import Koy.Proofs.MovedTokens
import Koy.Proofs.Readers

/-! A logic of readers. What is shown of a reader, or of two of them that go along two texts, is put
together from the steps of reading by a few rules. The rules are the same whatever is shown, so that the
grammar has to be gone through once only. -/

namespace Koy

/-- The cause names nothing of a token but what moves with it, and it is not the want of budget. -/
structure SyntaxError.Natural (cause : Token → SyntaxError.Cause) : Prop where
  relocate (move : Position → Position) (token : Token) :
    cause (token.relocate move) = (cause token).relocate move
  roomy (token : Token) : cause token ≠ .tooDeep

namespace Parse

/-- A judgement on two readers. `Holds n reader other post` speaks of what they do from the place `n` of
a token sequence on, of which the second is given every token as `moved` makes it; of what they yield
and of the place at which they stop it says `post`. A reader may be out of its budget only at `bound` or
behind it. -/
structure Logic (items : Items) (moved : Token → Token) (bound : Nat) where
  Holds : {α : Type} → Nat → Parse α → Parse α → (α → α → Nat → Prop) → Prop
  kind_eq (token : Token) : (moved token).kind = token.kind
  lexeme_eq (token : Token) : (moved token).lexeme = token.lexeme
  pure {α : Type} {n : Nat} {value value' : α} {post : α → α → Nat → Prop}
    (holds : post value value' n) : Holds n (pure value) (pure value') post
  bind {α β : Type} {n : Nat} {reader other : Parse α} {next next' : α → Parse β}
    {mid : α → α → Nat → Prop} {post : β → β → Nat → Prop} (first : Holds n reader other mid)
    (second : ∀ value value' m, n ≤ m → mid value value' m →
      Holds m (next value) (next' value') post) :
    Holds n (reader >>= next) (other >>= next') post
  token_bind {β : Type} {n : Nat} {next next' : Token → Parse β} {post : β → β → Nat → Prop}
    (rest : ∀ token, items n = .ok token → Holds n (next token) (next' (moved token)) post) :
    Holds n (token >>= next) (token >>= next') post
  advance_bind {β : Type} {n : Nat} {next next' : Unit → Parse β} {post : β → β → Nat → Prop}
    {kind : TokenKind} (here : items.HasAt n kind) (proper : kind ≠ .endOfInput)
    (rest : Holds (n + 1) (next ()) (next' ()) post) :
    Holds n (advance >>= next) (advance >>= next') post
  /-- What is looked at is passed over later; only the word `else` may be left to stand next. -/
  aheadIs_bind {β : Type} {n : Nat} {next next' : Bool → Parse β} {post : β → β → Nat → Prop}
    {kind : TokenKind} (here : items.HasAt n kind) (proper : kind ≠ .endOfInput) (i : Nat)
    {wanted : TokenKind} (other : wanted ≠ .endOfInput)
    (rest : ∀ seen, (seen = true → items.HasAt (n + (i + 1)) wanted) →
      Holds n (next seen) (next' seen) fun value value' m =>
        post value value' m ∧ (n + i < m ∨ n + i = m ∧ wanted = .elseWord)) :
    Holds n (aheadIs i wanted >>= next) (aheadIs i wanted >>= next') post
  refuse {α : Type} {n k : Nat} {place : Token} {cause : Token → SyntaxError.Cause}
    {post : α → α → Nat → Prop} (here : items k = .ok place) (natural : SyntaxError.Natural cause) :
    Holds n (refuse place.position (cause place))
      (refuse (moved place).position (cause (moved place))) post
  tooDeep {α : Type} {n : Nat} {other : Parse α} {post : α → α → Nat → Prop} (spent : bound ≤ n) :
    Holds n tooDeep other post

namespace Logic

variable {α β : Type} {items : Items} {moved : Token → Token} {bound n : Nat}
  (logic : Logic items moved bound) {reader other : Parse α} {next next' : α → Parse β}
  {mid post : α → α → Nat → Prop} {post' : β → β → Nat → Prop}

include logic

theorem weaken (holds : logic.Holds n reader other mid)
    (weaker : ∀ value value' m, n ≤ m → mid value value' m → post value value' m) :
    logic.Holds n reader other post := by
  have followed : logic.Holds n (reader >>= Pure.pure) (other >>= Pure.pure) post :=
    logic.bind holds fun value value' m le met => logic.pure (weaker value value' m le met)
  rwa [bind_pure, bind_pure] at followed

theorem map {f f' : α → β} (holds : logic.Holds n reader other mid)
    (met : ∀ value value' m, n ≤ m → mid value value' m → post' (f value) (f' value') m) :
    logic.Holds n (do let value ← reader; return f value) (do let value ← other; return f' value)
      post' :=
  logic.bind holds fun value value' m le given => logic.pure (met value value' m le given)

theorem kind_bind {next next' : TokenKind → Parse β}
    (rest : ∀ kind, items.HasAt n kind → logic.Holds n (next kind) (next' kind) post') :
    logic.Holds n (kind >>= next) (kind >>= next') post' := by
  have seen : logic.Holds n (token >>= fun found => next found.kind)
      (token >>= fun found => next' found.kind) post' := by
    apply logic.token_bind
    intro found here
    rw [logic.kind_eq]
    exact rest found.kind ⟨found, here, rfl⟩
  exact seen

theorem ite {reader' other' : Parse α} {condition : Prop} [Decidable condition]
    (holds : condition → logic.Holds n reader other post)
    (fails : ¬ condition → logic.Holds n reader' other' post) :
    logic.Holds n (if condition then reader else reader') (if condition then other else other')
      post := by
  by_cases decided : condition
  · rw [if_pos decided, if_pos decided]
    exact holds decided
  · rw [if_neg decided, if_neg decided]
    exact fails decided

theorem refuse_bind {k : Nat} {place : Token} {cause : Token → SyntaxError.Cause}
    (here : items k = .ok place) (natural : SyntaxError.Natural cause) :
    logic.Holds n (Parse.refuse place.position (cause place) >>= next)
      (Parse.refuse (moved place).position (cause (moved place)) >>= next') post' := by
  have refused : logic.Holds n (Parse.refuse place.position (cause place) : Parse α)
      (Parse.refuse (moved place).position (cause (moved place))) fun _ _ _ => False :=
    logic.refuse here natural
  exact logic.bind refused fun _ _ _ _ absurd => absurd.elim

theorem refuseHere {cause : Token → SyntaxError.Cause} (natural : SyntaxError.Natural cause) :
    logic.Holds n (refuseHere cause) (refuseHere cause) post :=
  logic.token_bind fun _ here => logic.refuse here natural

theorem refuseHere_bind {cause : Token → SyntaxError.Cause} (natural : SyntaxError.Natural cause) :
    logic.Holds n (Parse.refuseHere cause >>= next) (Parse.refuseHere cause >>= next') post' := by
  have refused : logic.Holds n (Parse.refuseHere cause : Parse α) (Parse.refuseHere cause)
      fun _ _ _ => False := logic.refuseHere natural
  exact logic.bind refused fun _ _ _ _ absurd => absurd.elim

theorem take_bind {next next' : Token → Parse β}
    (rest : ∀ token, items n = .ok token → token.kind ≠ .endOfInput ∧
      logic.Holds (n + 1) (next token) (next' (moved token)) post') :
    logic.Holds n (take >>= next) (take >>= next') post' := by
  rw [take_bind_eq, take_bind_eq]
  apply logic.token_bind
  intro token here
  obtain ⟨proper, later⟩ := rest token here
  exact logic.advance_bind ⟨token, here, rfl⟩ proper later

omit logic in
theorem expect_bind_eq_token (wanted : TokenKind) (next : Token → Parse β) :
    (expect wanted >>= next) = (token >>= fun found =>
      if found.kind = wanted then advance >>= fun _ => next found
      else Parse.refuseHere (.expected wanted) >>= next) := by
  rw [Parse.expect_bind_eq, take_bind_eq]
  funext stream
  by_cases here : stream.current.kind = wanted
  · simp only [Parse.kind_bind, Parse.token_bind, here, if_true]
  · simp only [Parse.kind_bind, Parse.token_bind, here, if_false]

theorem expect_bind {wanted : TokenKind} (proper : wanted ≠ .endOfInput)
    {next next' : Token → Parse β}
    (rest : ∀ token, items n = .ok token → token.kind = wanted →
      logic.Holds (n + 1) (next token) (next' (moved token)) post') :
    logic.Holds n (expect wanted >>= next) (expect wanted >>= next') post' := by
  rw [expect_bind_eq_token, expect_bind_eq_token]
  apply logic.token_bind
  intro found here
  rw [logic.kind_eq]
  apply logic.ite
  · intro is
    exact logic.advance_bind ⟨found, here, is⟩ proper (rest found here is)
  · intro _
    exact logic.refuseHere_bind ⟨fun _ _ => rfl, fun _ => by simp⟩

theorem mark_bind {wanted : TokenKind} (proper : wanted ≠ .endOfInput) {next next' : Unit → Parse β}
    (rest : items.HasAt n wanted → logic.Holds (n + 1) (next ()) (next' ()) post') :
    logic.Holds n (discard (expect wanted) >>= next) (discard (expect wanted) >>= next') post' := by
  have passed (next : Unit → Parse β) :
      (discard (expect wanted) >>= next) = (expect wanted >>= fun _ => next ()) :=
    funext (discard_bind _ next)
  rw [passed, passed]
  exact logic.expect_bind proper fun token here is => rest ⟨token, here, is⟩

end Logic

/-- A judgement on one reader, by the same rules. -/
structure Unary (items : Items) (bound : Nat) where
  Holds : {α : Type} → Nat → Parse α → (α → Nat → Prop) → Prop
  pure {α : Type} {n : Nat} {value : α} {post : α → Nat → Prop} (holds : post value n) :
    Holds n (pure value) post
  bind {α β : Type} {n : Nat} {reader : Parse α} {next : α → Parse β} {mid : α → Nat → Prop}
    {post : β → Nat → Prop} (first : Holds n reader mid)
    (second : ∀ value m, n ≤ m → mid value m → Holds m (next value) post) :
    Holds n (reader >>= next) post
  token_bind {β : Type} {n : Nat} {next : Token → Parse β} {post : β → Nat → Prop}
    (rest : ∀ token, items n = .ok token → Holds n (next token) post) : Holds n (token >>= next) post
  advance {n : Nat} {kind : TokenKind} (here : items.HasAt n kind) (proper : kind ≠ .endOfInput) :
    Holds n advance fun _ m => m = n + 1
  aheadIs {n : Nat} {kind : TokenKind} (here : items.HasAt n kind) (proper : kind ≠ .endOfInput)
    (i : Nat) {wanted : TokenKind} (other : wanted ≠ .endOfInput) :
    Holds n (aheadIs i wanted) fun seen m =>
      m = n ∧ (seen = true → items.HasAt (n + (i + 1)) wanted)
  refuse {α : Type} {n k : Nat} {place : Token} {cause : SyntaxError.Cause} {post : α → Nat → Prop}
    (here : items k = .ok place) (roomy : cause ≠ .tooDeep) :
    Holds n (refuse place.position cause) post
  tooDeep {α : Type} {n : Nat} {post : α → Nat → Prop} (spent : bound ≤ n) : Holds n tooDeep post

namespace Unary

variable {α β : Type} {items : Items} {bound n : Nat} (unary : Unary items bound)

include unary

theorem weaken {reader : Parse α} {post post' : α → Nat → Prop} (holds : unary.Holds n reader post)
    (weaker : ∀ value m, post value m → post' value m) : unary.Holds n reader post' := by
  have followed : unary.Holds n (reader >>= Pure.pure) post' :=
    unary.bind holds fun value m _ met => unary.pure (weaker value m met)
  rwa [bind_pure] at followed

/-- There is another reader, of which nothing is known but what the first may yield with it. -/
def Beside (n : Nat) (reader _other : Parse α) (post : α → α → Nat → Prop) : Prop :=
  unary.Holds n reader fun value m => ∃ value', post value value' m

theorem beside_bind {reader other : Parse α} {next next' : α → Parse β} {mid : α → α → Nat → Prop}
    {post : β → β → Nat → Prop} (first : unary.Beside n reader other mid)
    (second : ∀ value value' m, n ≤ m → mid value value' m →
      unary.Beside m (next value) (next' value') post) :
    unary.Beside n (reader >>= next) (other >>= next') post := by
  refine unary.bind first fun value m le met => ?_
  obtain ⟨value', met⟩ := met
  exact second value value' m le met

theorem beside_advance_bind {next next' : Unit → Parse β} {post : β → β → Nat → Prop}
    {kind : TokenKind} (here : items.HasAt n kind) (proper : kind ≠ .endOfInput)
    (rest : unary.Beside (n + 1) (next ()) (next' ()) post) :
    unary.Beside n (Parse.advance >>= next) (Parse.advance >>= next') post := by
  refine unary.bind (unary.advance here proper) fun _ m _ moved => ?_
  rw [moved]
  exact rest

theorem beside_aheadIs_bind {next next' : Bool → Parse β} {post : β → β → Nat → Prop}
    {kind : TokenKind} (here : items.HasAt n kind) (proper : kind ≠ .endOfInput) (i : Nat)
    {wanted : TokenKind} (other : wanted ≠ .endOfInput)
    (rest : ∀ seen, (seen = true → items.HasAt (n + (i + 1)) wanted) →
      unary.Beside n (next seen) (next' seen) fun value value' m =>
        post value value' m ∧ (n + i < m ∨ n + i = m ∧ wanted = .elseWord)) :
    unary.Beside n (Parse.aheadIs i wanted >>= next) (Parse.aheadIs i wanted >>= next') post := by
  refine unary.bind (unary.aheadIs here proper i other) fun seen m _ looked => ?_
  obtain ⟨rfl, found⟩ := looked
  refine unary.weaken (rest seen found) fun value m met => ?_
  obtain ⟨value', met, -⟩ := met
  exact ⟨value', met⟩

def logic : Logic items id bound where
  Holds := unary.Beside
  kind_eq _ := rfl
  lexeme_eq _ := rfl
  pure holds := unary.pure ⟨_, holds⟩
  bind := unary.beside_bind
  token_bind := unary.token_bind
  advance_bind := unary.beside_advance_bind
  aheadIs_bind here proper i _ other rest := unary.beside_aheadIs_bind here proper i other rest
  refuse here natural := unary.refuse here (natural.roomy _)
  tooDeep := unary.tooDeep

end Unary

end Parse

end Koy
