import Mathlib.Algebra.Ring.Int.Defs
import Mathlib.Algebra.Ring.Nat
import Koy.Proofs.RoundTrip

/-! Integer literals. A literal is read as the number that its digits and its sign stand for, however
many digits there are, and refused if that number does not fit into 64 bits. The sign is a token of
its own, but the range is checked of the number with its sign. -/

namespace Koy

open Parse Grammar Word

namespace Decimal

variable {text : String} {n : Int}

theorem exists_int64?_of_fits (read : int? text.toList = some n) (low : -2 ^ 63 ≤ n)
    (high : n < 2 ^ 63) : ∃ value : Int64, int64? text = some value ∧ value.toInt = n := by
  have inside : fits n = true := by
    rw [fits, int64Bound, Bool.and_eq_true]
    exact ⟨decide_eq_true (by omega), decide_eq_true (by omega)⟩
  refine ⟨Int64.ofInt n, ?_, Int64.toInt_ofInt_of_le low high⟩
  rw [int64?, read]
  exact if_pos inside

theorem int64?_eq_none (read : int? text.toList = some n) (outside : n < -2 ^ 63 ∨ 2 ^ 63 ≤ n) :
    int64? text = none := by
  have unfit : ¬ fits n = true := by
    rw [fits, int64Bound, Bool.and_eq_true, decide_eq_true_eq, decide_eq_true_eq]
    omega
  rw [int64?, read]
  exact if_neg unfit

def signed (negative : Bool) (digits : String) : String :=
  if negative then "-" ++ digits else digits

theorem int?_signed (negative : Bool) {digits : String} (present : digits.toList ≠ [])
    (decimal : ∀ c ∈ digits.toList, c.isDigit = true) :
    int? (signed negative digits).toList =
      some (if negative then -(Nat.ofDigitChars 10 digits.toList 0 : Int)
        else Nat.ofDigitChars 10 digits.toList 0) := by
  have magnitude := nat?_digits digits.toList present decimal
  cases negative with
  | true =>
      have spelled : (signed true digits).toList = '-' :: digits.toList := String.toList_append
      rw [spelled, int?, magnitude]
      rfl
  | false =>
      obtain ⟨first, more, shape⟩ := List.exists_cons_of_ne_nil present
      rw [signed, if_neg Bool.false_ne_true, shape, int?_of_digit first more, ← shape, magnitude]
      · rfl
      · exact decimal first (by simp [shape])

theorem ofInt64_eq_signed (value : Int64) :
    ofInt64 value = signed (value.toInt < 0) (toString value.toInt.natAbs) := by
  apply String.toList_injective
  rw [toList_ofInt64, signed]
  by_cases negative : value.toInt < 0
  · rw [if_pos negative, if_pos (decide_eq_true negative), String.toList_append]
    rfl
  · rw [if_neg negative, if_neg (by simpa using negative)]

end Decimal

def Word.signed (negative : Bool) (digits : String) : List Word :=
  if negative then [sign .minus, (.number, digits)] else [(.number, digits)]

theorem Lexes.signed (negative : Bool) {digits : String} (present : digits.toList ≠ [])
    (decimal : ∀ c ∈ digits.toList, c.isDigit = true) (mood : Mood) :
    Lexes (Decimal.signed negative digits).toList (Word.signed negative digits) mood (true, mood.2)
      Apart := by
  cases negative with
  | false => exact .digits digits present decimal mood
  | true =>
      have spelled : (Decimal.signed true digits).toList = ['-'] ++ digits.toList :=
        String.toList_append
      rw [spelled]
      have number := Lexes.digits digits present decimal (false, mood.2)
      refine (Lexes.minus mood).append number fun rest _ => ?_
      obtain ⟨first, more, shape⟩ := List.exists_cons_of_ne_nil present
      rw [shape]
      rintro ⟨⟩
      cases decimal '-' (by simp [shape])

namespace Grammar

variable {literal : String} {place : Token} {stream : TokenStream}

theorem integer_of_some {value : Int64} (found : Decimal.int64? literal = some value) :
    integer literal place stream = .ok (.int value place.position, stream) := by
  rw [integer, found]
  rfl

theorem integer_of_none (found : Decimal.int64? literal = none) :
    integer literal place stream = .error ⟨place.position, .outOfRange literal⟩ := by
  rw [integer, found]
  rfl

end Grammar

/-- From a stream of the words before, the reader comes to a stream of the words after, and yields the
literal at the first of them or refuses it. -/
def ReadsInteger (reader : Parse Expr) (literal : String) (before after : List Word) : Prop :=
  ∀ stream : TokenStream, stream.Spells before → ∃ reached, reached.Spells after ∧
    reader stream = integer literal stream.current reached

namespace ReadsInteger

variable {reader expr : Parse Expr} {literal digits : String} {before after after' : List Word}

theorem bind {next : Expr → Parse Expr} (first : ReadsInteger reader literal before after)
    (second : ∀ value, Reads (next value) after after' (· = value)) :
    ReadsInteger (reader >>= next) literal before after' := by
  intro stream spells
  obtain ⟨reached, spells', read⟩ := first stream spells
  cases found : Decimal.int64? literal with
  | none =>
      obtain ⟨_, last, -, spells'', -⟩ := second .missing reached spells'
      rw [integer_of_none found] at read
      exact ⟨last, spells'', by rw [bind_of_error read, integer_of_none found]⟩
  | some value =>
      obtain ⟨_, last, kept, spells'', rfl⟩ :=
        second (.int value stream.current.position) reached spells'
      rw [integer_of_some found] at read
      exact ⟨last, spells'', by rw [bind_of_ok read, kept, integer_of_some found]⟩

theorem primary (budget : Nat) (rest : List Word) :
    ReadsInteger (primary expr budget) digits ((.number, digits) :: rest) rest := by
  intro stream spells
  have kind : stream.current.kind = .number := spells.kind
  have lexeme : stream.current.lexeme = digits := congrArg Prod.snd spells.current
  obtain ⟨_, reached, moved, spells', -⟩ := Reads.advance (.number, digits) rest stream spells
  refine ⟨reached, spells', ?_⟩
  rw [Grammar.primary, token_bind, kind]
  change (advance >>= fun _ => integer stream.current.lexeme stream.current) stream = _
  rw [bind_of_ok moved, lexeme]

theorem unary (negative : Bool) (budget : Nat) (rest : List Word)
    (stops : updateOp? (Word.nth rest 0).1 = none) :
    ReadsInteger (unary expr (budget + 1)) (Decimal.signed negative digits)
      (Word.signed negative digits ++ rest) rest := by
  intro stream spells
  cases negative with
  | true =>
      have minus : stream.current.kind = .minus := spells.kind
      obtain ⟨_, second, moved, spells', -⟩ := Reads.advance (sign .minus) _ stream spells
      have number : second.current.word = (.number, digits) := spells'.current
      have kind : second.current.kind = .number := congrArg Prod.fst number
      have lexeme : second.current.lexeme = digits := congrArg Prod.snd number
      obtain ⟨_, reached, moved', spells'', -⟩ :=
        Reads.advance (.number, digits) rest second spells'
      refine ⟨reached, spells'', ?_⟩
      rw [Grammar.unary, token_bind, if_pos minus, bind_of_ok moved, token_bind, if_pos kind,
        bind_of_ok moved', lexeme]
      rfl
  | false =>
      have kind : stream.current.kind = .number := spells.kind
      have operand : ReadsInteger (Grammar.primary expr (budget + 1) >>= updates (budget + 1)) digits
          ((.number, digits) :: rest) rest :=
        (primary (budget + 1) rest).bind fun operand => updates_reads budget operand rest stops
      obtain ⟨reached, spells', read⟩ := operand stream spells
      refine ⟨reached, spells', ?_⟩
      rw [Grammar.unary, token_bind, if_neg (by rw [kind]; decide), kind]
      exact read

theorem joined {budget : Nat}
    (reads : ReadsInteger (Grammar.unary expr (budget + 1)) literal before after)
    (tighter : List Level)
    (stops : ∀ level ∈ tighter, level.lookup (Word.nth after 0).1 = none) :
    ReadsInteger (joined expr (budget + 1) tighter) literal before after := by
  induction tighter with
  | nil => exact reads
  | cons level tighter ih =>
      have operand := ih fun level member => stops level (List.mem_cons_of_mem _ member)
      exact operand.bind fun lhs => chain_reads _ level budget lhs after (stops level (by simp))

theorem expression (negative : Bool) (digits : String) (budget : Nat) :
    ReadsInteger (expression (budget + 1)) (Decimal.signed negative digits)
      (Word.signed negative digits ++ [sign .semicolon]) [sign .semicolon] := by
  have operators : ReadsInteger (Grammar.joined (Grammar.expression budget) (budget + 1) levels)
      (Decimal.signed negative digits) (Word.signed negative digits ++ [sign .semicolon])
      [sign .semicolon] :=
    (unary negative budget _ rfl).joined levels (by decide)
  intro stream spells
  have same : Grammar.expression (budget + 1) stream =
      Grammar.joined (Grammar.expression budget) (budget + 1) levels stream := by
    rw [Grammar.expression, expressionOf, kind_bind, spells.kind]
    cases negative <;> rfl
  rw [same]
  exact operators stream spells

end ReadsInteger

theorem Expr.parse_signed (negative : Bool) {digits : String} (present : digits.toList ≠ [])
    (decimal : ∀ c ∈ digits.toList, c.isDigit = true) :
    ∃ position, Expr.parse (Bytes.ofString (Decimal.signed negative digits)) =
      match Decimal.int64? (Decimal.signed negative digits) with
      | some value => .ok (.int value position)
      | none => .error ⟨position, .outOfRange (Decimal.signed negative digits)⟩ := by
  have lexes := Lexes.signed negative present decimal (false, [])
  obtain ⟨stream, started, spells⟩ := TokenStream.exists_spells lexes
  let budget := budgetOf (Bytes.ofString (Decimal.signed negative digits))
  have proper : (Word.nth (Word.signed negative digits ++ [sign .semicolon]) 0).1 ≠ .semicolon := by
    cases negative <;> exact TokenKind.noConfusion
  obtain ⟨_, first, skipped, spells', -⟩ :=
    skipSemicolons_reads_none (budget + 1) _ proper stream spells
  obtain ⟨reached, spells'', read⟩ :=
    ReadsInteger.expression negative digits (budget + 1) first spells'
  refine ⟨first.current.position, ?_⟩
  rw [parse_of_stream started (budget + 2) (by omega), wholeExpression, bind_of_ok skipped]
  cases found : Decimal.int64? (Decimal.signed negative digits) with
  | none =>
      rw [integer_of_none found] at read
      rw [bind_of_error read]
      rfl
  | some value =>
      rw [integer_of_some found] at read
      obtain ⟨_, last, skipped', ended, -⟩ :=
        skipSemicolons_reads_one budget [] (by decide) reached spells''
      have kind : last.current.kind = .endOfInput := ended.kind
      rw [bind_of_ok read, bind_of_ok skipped', kind_bind, if_pos kind]
      rfl

namespace Expr

def ReadsAs (text : String) (n : Int) : Prop :=
  ∃ value position, Expr.parse (Bytes.ofString text) = .ok (.int value position) ∧ value.toInt = n

/-- The text is refused as a number that is out of range, and not for want of more text. -/
def RefusedAsOutOfRange (text : String) : Prop :=
  ∃ error, Expr.parse (Bytes.ofString text) = .error error ∧ error.cause = .outOfRange text ∧
    error.incomplete = false

section

variable (negative : Bool) {digits : String} {n : Int} (present : digits.toList ≠ [])
  (decimal : ∀ c ∈ digits.toList, c.isDigit = true)
  (spelled : Decimal.int? (Decimal.signed negative digits).toList = some n)

include present decimal spelled

theorem readsAs_of_fits (low : -2 ^ 63 ≤ n) (high : n < 2 ^ 63) :
    ReadsAs (Decimal.signed negative digits) n := by
  obtain ⟨position, read⟩ := parse_signed negative present decimal
  obtain ⟨value, found, same⟩ := Decimal.exists_int64?_of_fits spelled low high
  rw [found] at read
  exact ⟨value, position, read, same⟩

theorem refusedAsOutOfRange_of_outside (outside : n < -2 ^ 63 ∨ 2 ^ 63 ≤ n) :
    RefusedAsOutOfRange (Decimal.signed negative digits) := by
  obtain ⟨position, read⟩ := parse_signed negative present decimal
  rw [Decimal.int64?_eq_none spelled outside] at read
  exact ⟨_, read, rfl, rfl⟩

end

theorem readsAs_render (value : Int64) (position : Position) :
    ReadsAs (Expr.int value position).render value.toInt := by
  obtain ⟨-, present, decimal⟩ := Decimal.toList_toString value.toInt.natAbs
  have written : (Expr.int value position).render =
      Decimal.signed (value.toInt < 0) (toString value.toInt.natAbs) := by
    rw [render, Decimal.ofInt64_eq_signed]
  have spelled := Decimal.int?_ofInt64 value
  rw [Decimal.ofInt64_eq_signed] at spelled
  rw [written]
  exact readsAs_of_fits _ present decimal spelled value.le_toInt value.toInt_lt

/-- Integer literals are read exactly. Digits, any number of them and whatever zeros they start with,
are read as their number if that is below the bound of 64-bit integers, and with a minus sign before
them also if it is the bound itself. Any greater number is refused, and not for want of more text. A
literal that is printed is read as itself. -/
theorem integer_literals_exact :
    (∀ digits : String, digits ≠ "" → (∀ c ∈ digits.toList, c.isDigit = true) →
      ∀ n : Nat, n = Nat.ofDigitChars 10 digits.toList 0 →
        (if n ≤ 2 ^ 63 - 1 then ReadsAs digits n else RefusedAsOutOfRange digits) ∧
        (if n ≤ 2 ^ 63 then ReadsAs ("-" ++ digits) (-n)
          else RefusedAsOutOfRange ("-" ++ digits))) ∧
    ∀ value position, ReadsAs (Expr.int value position).render value.toInt := by
  refine ⟨?_, readsAs_render⟩
  rintro digits nonempty decimal n rfl
  have present : digits.toList ≠ [] := fun none => nonempty (String.toList_eq_nil_iff.mp none)
  have plain := Decimal.int?_signed false present decimal
  have minus := Decimal.int?_signed true present decimal
  constructor
  · split
    · exact readsAs_of_fits false present decimal plain (by dsimp; omega) (by dsimp; omega)
    · exact refusedAsOutOfRange_of_outside false present decimal plain (.inr (by dsimp; omega))
  · split
    · exact readsAs_of_fits true present decimal minus (by dsimp; omega) (by dsimp; omega)
    · exact refusedAsOutOfRange_of_outside true present decimal minus (.inl (by dsimp; omega))

theorem integer_literals_exact_sample :
    "009223372036854775808" ≠ "" ∧ (∀ c ∈ "009223372036854775808".toList, c.isDigit = true) ∧
    2 ^ 63 = Nat.ofDigitChars 10 "009223372036854775808".toList 0 ∧
    RefusedAsOutOfRange "009223372036854775808" ∧
    ReadsAs ("-" ++ "009223372036854775808") (-2 ^ 63) := by
  have nonempty : "009223372036854775808" ≠ "" := by decide
  have decimal : ∀ c ∈ "009223372036854775808".toList, c.isDigit = true :=
    List.all_eq_true.mp (by decide)
  have bound : 2 ^ 63 = Nat.ofDigitChars 10 "009223372036854775808".toList 0 := by decide
  have exact := integer_literals_exact.1 _ nonempty decimal (2 ^ 63) bound
  rw [if_neg (by decide), if_pos (by decide)] at exact
  exact ⟨nonempty, decimal, bound, exact.1, exact.2⟩

end Expr

end Koy
