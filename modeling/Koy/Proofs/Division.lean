import Mathlib.Algebra.Order.Group.Unbundled.Int
import Koy.Value.Operation

/-! Division of 64-bit integers. Quotients are truncated and wrap around like every other result, and
the quotient and the remainder together give the dividend back, in the arithmetic of the language
itself, for all operands but a zero divisor. -/

namespace Koy.BinaryOp

section

variable (a b : Int64)

theorem div_eq_ofInt : a / b = Int64.ofInt (a.toInt.tdiv b.toInt) := by
  rw [Int64.ofInt_tdiv a.minValue_le_toInt a.toInt_le b.minValue_le_toInt b.toInt_le,
    Int64.ofInt_toInt, Int64.ofInt_toInt]

theorem mod_eq_ofInt : a % b = Int64.ofInt (a.toInt.tmod b.toInt) := by
  rw [← Int64.toInt_mod, Int64.ofInt_toInt]

/-- What wraps around in the product is taken back by the sum, since the exact sum is the dividend. -/
theorem div_mul_add_mod : a / b * b + a % b = a := by
  let quotient := a.toInt.tdiv b.toInt
  let remainder := a.toInt.tmod b.toInt
  calc
    a / b * b + a % b =
        Int64.ofInt quotient * Int64.ofInt b.toInt + Int64.ofInt remainder := by
      rw [div_eq_ofInt, mod_eq_ofInt, Int64.ofInt_toInt]
    _ = Int64.ofInt (quotient * b.toInt + remainder) := by
      rw [Int64.ofInt_add, Int64.ofInt_mul]
    _ = Int64.ofInt a.toInt := by
      rw [Int.tdiv_mul_add_tmod]
    _ = a := a.ofInt_toInt

theorem abs_toInt_mod_lt (nonzero : b ≠ 0) : |(a % b).toInt| < |b.toInt| := by
  have present : b.toInt ≠ 0 := by
    intro zero
    exact nonzero (Int64.toInt_inj.mp zero)
  have smaller : a.toInt.natAbs % b.toInt.natAbs < b.toInt.natAbs :=
    Nat.mod_lt _ (Int.natAbs_pos.mpr present)
  calc
    |(a % b).toInt| = (a.toInt.natAbs % b.toInt.natAbs : Nat) := by
      rw [Int64.toInt_mod, Int.abs_eq_natAbs, Int.natAbs_tmod]
    _ < (b.toInt.natAbs : Int) := Int.ofNat_lt.mpr smaller
    _ = |b.toInt| := (Int.abs_eq_natAbs _).symm

theorem mod_eq_zero_or_sign_eq : a % b = 0 ∨ (a % b).toInt.sign = a.toInt.sign := by
  have sign := Int.sign_tmod a.toInt b.toInt
  rw [← Int64.toInt_mod] at sign
  by_cases divides : b.toInt ∣ a.toInt
  · left
    rw [if_pos divides, Int.sign_eq_zero_iff_zero] at sign
    exact Int64.toInt_inj.mp sign
  · right
    rw [sign, if_neg divides]

theorem toInt_div_of_fits (fits : ¬ (a = Int64.minValue ∧ b = -1)) :
    (a / b).toInt = a.toInt.tdiv b.toInt := by
  by_cases least : a = Int64.minValue
  · exact Int64.toInt_div_of_ne_right a b fun minus => fits ⟨least, minus⟩
  · exact Int64.toInt_div_of_ne_left a b least

end

/-- Division of 64-bit integers. Where the divisor is not zero, both the quotient and the remainder
exist, and the quotient times the divisor plus the remainder, computed by the operators themselves,
is the dividend. The remainder is smaller than the divisor and is zero or has the sign of the
dividend. The quotient is the exact one without its fraction, but for the least integer and minus
one: there it wraps around to the least integer, and nothing remains. Nothing is divided by zero. -/
theorem division_law (a b : Int64) :
    (b ≠ 0 → ∃ quotient rest product : Int64,
      divide.apply (.int a) (.int b) = .ok (.int quotient) ∧
      remainder.apply (.int a) (.int b) = .ok (.int rest) ∧
      multiply.apply (.int quotient) (.int b) = .ok (.int product) ∧
      add.apply (.int product) (.int rest) = .ok (.int a) ∧
      |rest.toInt| < |b.toInt| ∧ (rest = 0 ∨ rest.toInt.sign = a.toInt.sign) ∧
      if a = Int64.minValue ∧ b = -1 then quotient = Int64.minValue ∧ rest = 0
      else quotient.toInt = a.toInt.tdiv b.toInt) ∧
    (b = 0 → ∀ op ∈ [divide, remainder], ∃ fault,
      op.apply (.int a) (.int b) = .error fault ∧ fault.kind = .divisionByZero) := by
  constructor
  · intro nonzero
    refine ⟨a / b, a % b, a / b * b, if_neg nonzero, if_neg nonzero, rfl, ?_,
      abs_toInt_mod_lt a b nonzero, mod_eq_zero_or_sign_eq a b, ?_⟩
    · have sum : add.apply (.int (a / b * b)) (.int (a % b)) =
          .ok (.int (a / b * b + a % b)) := rfl
      rw [sum, div_mul_add_mod]
    · split
      · rename_i outside
        obtain ⟨rfl, rfl⟩ := outside
        decide
      · rename_i fits
        exact toInt_div_of_fits a b fits
  · rintro rfl op member
    simp only [List.mem_cons, List.not_mem_nil, or_false] at member
    rcases member with rfl | rfl
    · exact ⟨.divisionByZero divide a, rfl, rfl⟩
    · exact ⟨.divisionByZero remainder a, rfl, rfl⟩

theorem division_law_sample :
    (∃ quotient rest product : Int64,
      divide.apply (.int Int64.minValue) (.int (-1)) = .ok (.int quotient) ∧
      remainder.apply (.int Int64.minValue) (.int (-1)) = .ok (.int rest) ∧
      multiply.apply (.int quotient) (.int (-1)) = .ok (.int product) ∧
      add.apply (.int product) (.int rest) = .ok (.int Int64.minValue) ∧
      quotient = Int64.minValue ∧ rest = 0) ∧
    ∃ fault, remainder.apply (.int 7) (.int 0) = .error fault ∧ fault.kind = .divisionByZero := by
  constructor
  · obtain ⟨quotient, rest, product, divided, left, multiplied, added, -, -, wrapped⟩ :=
      (division_law Int64.minValue (-1)).1 (by decide)
    exact ⟨quotient, rest, product, divided, left, multiplied, added, wrapped⟩
  · exact (division_law 7 0).2 rfl remainder (by simp)

end Koy.BinaryOp
