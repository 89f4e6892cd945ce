import Koy.Proofs.Readers
import Koy.Proofs.WordLexing

/-! What a reader makes of a sequence of words, and the rules by which this is put together from the
steps of the reader. A `Logic` says what a reader has read if it succeeds; here it is shown to succeed. -/

namespace Koy

open Parse

/-- The word at a place of a sequence; the end token comes after the words. -/
def Word.nth (words : List Word) (n : Nat) : Word :=
  words[n]?.getD (.sign .endOfInput)

@[simp] theorem Word.nth_cons_zero (word : Word) (rest : List Word) :
    Word.nth (word :: rest) 0 = word := rfl

@[simp] theorem Word.nth_cons_succ (word : Word) (rest : List Word) (n : Nat) :
    Word.nth (word :: rest) (n + 1) = Word.nth rest n := rfl

theorem Word.nth_tail (words : List Word) (n : Nat) :
    Word.nth words.tail n = Word.nth words (n + 1) := by
  cases words with
  | nil => rfl
  | cons word rest => rfl

namespace TokenStream.Spells

variable {stream after : TokenStream} {words : List Word}

theorem current (spells : stream.Spells words) : stream.current.word = Word.nth words 0 := by
  obtain ⟨token, found, spelled⟩ := spells.word 0
  cases found
  exact spelled

theorem kind (spells : stream.Spells words) : stream.current.kind = (Word.nth words 0).1 :=
  congrArg Prod.fst spells.current

theorem of_shift (spells : stream.Spells words)
    (shifted : ∀ n, after.item n = stream.item (n + 1)) : after.Spells words.tail := by
  refine ⟨spells.sound.of_shift shifted, fun n => ?_⟩
  obtain ⟨token, found, spelled⟩ := spells.word (n + 1)
  refine ⟨token, (shifted n).trans found, ?_⟩
  rw [spelled]
  exact (Word.nth_tail words n).symm

theorem of_same (spells : stream.Spells words) (same : stream.Same after) : after.Spells words := by
  refine ⟨spells.sound.of_same same, fun n => ?_⟩
  rw [same]
  exact spells.word n

end TokenStream.Spells

/-- From a stream of the words before, the reader comes to a stream of the words after, and what it
yields has the property. -/
def Reads {α : Type} (reader : Parse α) (before after : List Word) (means : α → Prop) : Prop :=
  ∀ stream : TokenStream, stream.Spells before → ∃ value rest,
    reader stream = .ok (value, rest) ∧ rest.Spells after ∧ means value

namespace Reads

variable {α β : Type} {reader : Parse α} {before middle after : List Word} {means : α → Prop}
  {means' : β → Prop}

theorem pure {value : α} (holds : means value) : Reads (pure value) before before means :=
  fun stream spells => ⟨value, stream, rfl, spells, holds⟩

theorem bind {next : α → Parse β} (first : Reads reader before middle means)
    (second : ∀ value, means value → Reads (next value) middle after means') :
    Reads (reader >>= next) before after means' := by
  intro stream spells
  obtain ⟨value, rest, read, spells', holds⟩ := first stream spells
  obtain ⟨result, last, read', spells'', holds'⟩ := second value holds rest spells'
  exact ⟨result, last, by rw [bind_of_ok read]; exact read', spells'', holds'⟩

theorem map (f : α → β) (first : Reads reader before after means)
    (holds : ∀ value, means value → means' (f value)) :
    Reads (do let value ← reader; return f value) before after means' :=
  first.bind fun value met => .pure (holds value met)

theorem weaken {means'' : α → Prop} (reads : Reads reader before after means)
    (weaker : ∀ value, means value → means'' value) : Reads reader before after means'' := by
  intro stream spells
  obtain ⟨value, rest, read, spells', holds⟩ := reads stream spells
  exact ⟨value, rest, read, spells', weaker value holds⟩

theorem token_bind {next : Token → Parse β}
    (rest : ∀ token : Token, token.word = Word.nth before 0 → Reads (next token) before after means') :
    Reads (token >>= next) before after means' :=
  fun stream spells => rest stream.current spells.current stream spells

theorem start_bind {word : Word} {words : List Word} {kind : TokenKind} {next : Token → Parse β}
    (is : word.1 = kind) (rest : ∀ start : Token, start.kind = kind → start.lexeme = word.2 →
      Reads (next start) (word :: words) after means') :
    Reads (token >>= next) (word :: words) after means' := by
  refine .token_bind fun start spelled => ?_
  have same : start.kind = word.1 := congrArg Prod.fst spelled
  exact rest start (same.trans is) (congrArg Prod.snd spelled)

theorem kind_bind {next : TokenKind → Parse β}
    (rest : Reads (next (Word.nth before 0).1) before after means') :
    Reads (kind >>= next) before after means' := by
  intro stream spells
  rw [Parse.kind_bind, spells.kind]
  exact rest stream spells

theorem advance (word : Word) (rest : List Word) :
    Reads advance (word :: rest) rest fun _ => True := by
  intro stream spells
  rcases advance_cases stream with ⟨error, failed, -⟩ | ⟨moved, shifted, read⟩
  · obtain ⟨token, found, -⟩ := spells.word 1
    rw [failed] at found
    cases found
  · exact ⟨(), moved, read, spells.of_shift shifted, trivial⟩

theorem advance_bind {word : Word} {next : Unit → Parse β}
    (rest : Reads (next ()) before after means') :
    Reads (Parse.advance >>= next) (word :: before) after means' :=
  (advance word before).bind fun _ _ => rest

theorem take_bind {word : Word} {next : Token → Parse β}
    (rest : ∀ token : Token, token.word = word → Reads (next token) before after means') :
    Reads (take >>= next) (word :: before) after means' := by
  rw [take_bind_eq]
  exact .token_bind fun token spelled => .advance_bind (rest token spelled)

theorem expect_bind {wanted : TokenKind} {lexeme : String} {next : Token → Parse β}
    (rest : ∀ token : Token, token.word = (wanted, lexeme) → Reads (next token) before after means') :
    Reads (expect wanted >>= next) ((wanted, lexeme) :: before) after means' := by
  intro stream spells
  have here : stream.current.kind = wanted := spells.kind
  have same : (expect wanted >>= next) stream = (take >>= next) stream := by
    change (expect wanted stream >>= _) = (take stream >>= _)
    rw [expect_of_eq here]
  rw [same]
  exact take_bind rest stream spells

theorem discard_bind {next : Unit → Parse β}
    (whole : Reads (reader >>= fun _ => next ()) before after means') :
    Reads (discard reader >>= next) before after means' := by
  intro stream spells
  rw [Parse.discard_bind]
  exact whole stream spells

theorem mark_bind {wanted : TokenKind} {lexeme : String} {next : Unit → Parse β}
    (rest : Reads (next ()) before after means') :
    Reads (discard (expect wanted) >>= next) ((wanted, lexeme) :: before) after means' :=
  .discard_bind (.expect_bind fun _ _ => rest)

theorem aheadIs (n : Nat) (wanted : TokenKind) (words : List Word) :
    Reads (aheadIs n wanted) words words (· = decide ((Word.nth words (n + 1)).1 = wanted)) := by
  intro stream spells
  obtain ⟨token, found, spelled⟩ := spells.word (n + 1)
  rcases aheadIs_cases spells.sound n wanted with
    ⟨error, failed, -⟩ | ⟨token', moved, found', same, read⟩
  · rw [found] at failed
    cases failed
  · rw [found] at found'
    cases found'
    have kind : token.kind = (Word.nth words (n + 1)).1 := congrArg Prod.fst spelled
    exact ⟨_, moved, read, spells.of_same same, by rw [kind]⟩

theorem aheadIs_bind {n : Nat} {wanted : TokenKind} {next : Bool → Parse β}
    (rest : Reads (next (decide ((Word.nth before (n + 1)).1 = wanted))) before after means') :
    Reads (Parse.aheadIs n wanted >>= next) before after means' :=
  (aheadIs n wanted before).bind fun _ same => same ▸ rest

theorem ite_pos {condition : Prop} [Decidable condition] {other : Parse α} (holds : condition)
    (reads : Reads reader before after means) :
    Reads (if condition then reader else other) before after means := by
  rw [if_pos holds]
  exact reads

theorem ite_neg {condition : Prop} [Decidable condition] {other : Parse α} (fails : ¬ condition)
    (reads : Reads other before after means) :
    Reads (if condition then reader else other) before after means := by
  rw [if_neg fails]
  exact reads

end Reads

end Koy
