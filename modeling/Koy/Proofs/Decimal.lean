import Koy.Text.Decimal
import Koy.Text.Digit

/-! Decimal notation is read as the number it was written for. -/

namespace Koy.Decimal

theorem continueFrom_eq (value : Nat) (digits : List Char)
    (all : ∀ c ∈ digits, c.isDigit = true) :
    continueFrom value digits = some (Nat.ofDigitChars 10 digits value) := by
  induction digits generalizing value with
  | nil => rfl
  | cons c digits ih =>
      have digit : digit? c = some (c.toNat - 48) := by
        rw [digit?, if_pos (all c (by simp))]
      rw [continueFrom, digit, Nat.ofDigitChars_cons]
      exact ih _ fun d member => all d (List.mem_cons_of_mem c member)

theorem nat?_digits (digits : List Char) (present : digits ≠ [])
    (all : ∀ c ∈ digits, c.isDigit = true) :
    nat? digits = some (Nat.ofDigitChars 10 digits 0) := by
  cases digits with
  | nil => exact absurd rfl present
  | cons c digits => exact continueFrom_eq 0 (c :: digits) all

theorem toList_toString (n : Nat) :
    (toString n).toList = Nat.toDigits 10 n ∧ (toString n).toList ≠ [] ∧
      ∀ c ∈ (toString n).toList, c.isDigit = true := by
  have digits : (toString n).toList = Nat.toDigits 10 n := by
    rw [Nat.toString_eq_ofList_toDigits, String.toList_ofList]
  rw [digits]
  exact ⟨rfl, Nat.toDigits_ne_nil, fun c => Nat.isDigit_of_mem_toDigits (by decide) (by decide)⟩

theorem nat?_toString (n : Nat) : nat? (toString n).toList = some n := by
  obtain ⟨digits, present, all⟩ := toList_toString n
  rw [nat?_digits _ present all, digits, Nat.ofDigitChars_ten_toDigits]

theorem toList_ofInt64 (value : Int64) :
    (ofInt64 value).toList =
      if value.toInt < 0 then '-' :: (toString value.toInt.natAbs).toList
      else (toString value.toInt.natAbs).toList := by
  rw [ofInt64]
  cases value.toInt with
  | ofNat n =>
      have positive : ¬ Int.ofNat n < 0 := Int.not_lt.mpr (Int.natCast_nonneg n)
      rw [if_neg positive]
      rfl
  | negSucc n =>
      rw [if_pos (Int.negSucc_lt_zero n)]
      exact String.toList_append

theorem int?_of_digit (c : Char) (digits : List Char) (digit : c.isDigit = true) :
    int? (c :: digits) = (nat? (c :: digits)).map fun n => (n : Int) := by
  rw [int?]
  · rintro _ ⟨⟩
    cases digit
  · rintro _ ⟨⟩
    cases digit

theorem int?_ofInt64 (value : Int64) : int? (ofInt64 value).toList = some value.toInt := by
  rw [toList_ofInt64]
  by_cases negative : value.toInt < 0
  · rw [if_pos negative, int?, nat?_toString]
    exact congrArg some (by dsimp only; omega)
  · rw [if_neg negative]
    obtain ⟨-, present, all⟩ := toList_toString value.toInt.natAbs
    obtain ⟨c, digits, shape⟩ := List.exists_cons_of_ne_nil present
    have read := nat?_toString value.toInt.natAbs
    rw [shape] at read all ⊢
    rw [int?_of_digit c digits (all c (by simp)), read]
    exact congrArg some (by dsimp only; omega)

theorem int64?_ofInt64 (value : Int64) : int64? (ofInt64 value) = some value := by
  have fit : fits value.toInt = true := by
    have low := value.le_toInt
    have high := value.toInt_lt
    rw [fits, int64Bound, Bool.and_eq_true]
    exact ⟨decide_eq_true (by omega), decide_eq_true (by omega)⟩
  rw [int64?, int?_ofInt64]
  simp [fit]

theorem of_continueFrom {value n : Nat} {digits : List Char}
    (read : continueFrom value digits = some n) :
    digits.all Char.isDigit = true ∧ n = Nat.ofDigitChars 10 digits value := by
  induction digits generalizing value with
  | nil =>
      cases read
      exact ⟨rfl, rfl⟩
  | cons c digits ih =>
      by_cases digit : c.isDigit = true
      · rw [continueFrom, digit?, if_pos digit] at read
        obtain ⟨all, total⟩ := ih read
        rw [Nat.ofDigitChars_cons]
        exact ⟨by rw [List.all_cons, digit, all]; rfl, total⟩
      · rw [continueFrom, digit?, if_neg digit] at read
        cases read

theorem of_int?_cons {c : Char} {digits : List Char} {n : Int} (digit : Text.isDecimalDigit c = true)
    (read : int? (c :: digits) = some n) :
    (c :: digits).all Char.isDigit = true ∧ n = Nat.ofDigitChars 10 (c :: digits) 0 := by
  rw [int?] at read
  · cases counted : nat? (c :: digits) with
    | none =>
        rw [counted] at read
        cases read
    | some m =>
        rw [counted] at read
        cases read
        obtain ⟨all, total⟩ := of_continueFrom counted
        exact ⟨all, congrArg Int.ofNat total⟩
  · rintro _ ⟨⟩
    revert digit
    decide
  · rintro _ ⟨⟩
    revert digit
    decide

theorem of_int64? {literal : String} {value : Int64} {c : Char} {digits : List Char}
    (spelled : literal.toList = c :: digits) (digit : Text.isDecimalDigit c = true)
    (read : int64? literal = some value) :
    literal.toList.all Char.isDigit = true ∧
      value.toInt = Nat.ofDigitChars 10 literal.toList 0 := by
  rw [int64?, spelled] at read
  rw [spelled]
  split at read
  · rename_i n found
    split at read
    · rename_i fit
      cases read
      obtain ⟨all, rfl⟩ := of_int?_cons digit found
      refine ⟨all, Int64.toInt_ofInt_of_le ?_ ?_⟩
      all_goals
        rw [fits, int64Bound, Bool.and_eq_true, decide_eq_true_eq, decide_eq_true_eq] at fit
        omega
    · cases read
  · cases read

end Koy.Decimal
