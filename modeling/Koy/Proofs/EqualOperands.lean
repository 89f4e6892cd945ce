import Koy.Proofs.ValueEquality
import Koy.Value.Operation

/-! Operators cannot tell equal operands apart. Of a plain value equality knows everything, so that
equal plain operands are the same; of all other values an operator sees no more than their types and
whether they are equal to each other. -/

namespace Koy

namespace Value

variable {u u' v v' : Value}

def isPlain : Value → Bool
  | .int _ | .bool _ | .text _ => true
  | _ => false

theorem type_eq_of_equal (same : u.equal u' = true) : u.type = u'.type := by
  cases u <;> cases u' <;> simp [equal, type] at same ⊢

theorem isPlain_eq_of_equal (same : u.equal u' = true) : u.isPlain = u'.isPlain := by
  cases u <;> cases u' <;> simp [equal, isPlain] at same ⊢

theorem eq_of_equal_of_isPlain (plain : u.isPlain = true) (same : u.equal u' = true) : u = u' := by
  cases u <;> cases u' <;> simp_all [equal, isPlain]

theorem equal_congr (hu : WellFormed u) (hu' : WellFormed u') (hv : WellFormed v)
    (hv' : WellFormed v') (left : u.equal u' = true) (right : v.equal v' = true) :
    u.equal v = u'.equal v' := by
  have symm := lawfulOn_wellFormed.symm
  have trans := lawfulOn_wellFormed.trans
  have forth (same : u.equal v = true) : u'.equal v' = true :=
    trans u' u v' hu' hu hv' (symm u u' hu hu' left) (trans u v v' hu hv hv' same right)
  have back (same : u'.equal v' = true) : u.equal v = true :=
    trans u u' v hu hu' hv left (trans u' v' v hu' hv' hv same (symm v v' hv hv' right))
  exact Bool.eq_iff_iff.mpr ⟨forth, back⟩

end Value

namespace BinaryOp

variable {u u' v v' : Value}

/-- Both outcomes are equal values, or both are faults of one kind. -/
inductive EqualOutcomes : Except Fault Value → Except Fault Value → Prop where
  | value {result result' : Value} (same : result.equal result' = true) :
      EqualOutcomes (.ok result) (.ok result')
  | fault {cause cause' : Fault} (kind : cause.kind = cause'.kind) :
      EqualOutcomes (.error cause) (.error cause')

theorem EqualOutcomes.refl (outcome : Except Fault Value)
    (plain : ∀ value, outcome = .ok value → value.isPlain = true) :
    EqualOutcomes outcome outcome := by
  cases outcome with
  | error cause => exact .fault rfl
  | ok value =>
      apply EqualOutcomes.value
      have plain := plain value rfl
      cases value <;> simp_all [Value.isPlain, Value.equal]

theorem isPlain_of_onInts (op : BinaryOp) (a b : Int64) (value : Value)
    (result : op.onInts a b = .ok value) : value.isPlain = true := by
  unfold onInts at result
  split at result
  case h_4 | h_5 =>
    split at result
    · cases result
    · cases result
      rfl
  all_goals cases result
  all_goals rfl

/-- The operator computes with what its operands hold. The others compare for equality, or are none. -/
def computes : BinaryOp → Bool
  | .equal | .notEqual | .unknown _ => false
  | _ => true

theorem isPlain_of_apply (op : BinaryOp) (computes : op.computes = true) (value : Value)
    (result : op.apply u v = .ok value) : value.isPlain = true := by
  unfold apply at result
  split at result
  case h_1 | h_2 | h_3 => cases computes
  all_goals split at result
  all_goals first
    | exact isPlain_of_onInts _ _ _ value result
    | cases result <;> rfl

theorem apply_of_not_plain (op : BinaryOp) (computes : op.computes = true)
    (other : ¬ (u.isPlain = true ∧ v.isPlain = true)) :
    op.apply u v = .error (.operands op u v) := by
  unfold apply
  split
  case h_1 | h_2 | h_3 => cases computes
  all_goals split
  all_goals first
    | rfl
    | exact absurd ⟨rfl, rfl⟩ other

/-- Operators cannot tell equal operands apart: on equal operands they yield equal values, or they fail
for reasons of one kind. -/
theorem apply_respects_equality (op : BinaryOp) (u u' v v' : Value) (hu : u.WellFormed)
    (hu' : u'.WellFormed) (hv : v.WellFormed) (hv' : v'.WellFormed) (left : u.equal u' = true)
    (right : v.equal v' = true) : EqualOutcomes (op.apply u v) (op.apply u' v') := by
  by_cases computes : op.computes = true
  · by_cases plain : u.isPlain = true ∧ v.isPlain = true
    · obtain rfl := Value.eq_of_equal_of_isPlain plain.1 left
      obtain rfl := Value.eq_of_equal_of_isPlain plain.2 right
      exact .refl _ (isPlain_of_apply op computes)
    · have plain' : ¬ (u'.isPlain = true ∧ v'.isPlain = true) := by
        rwa [← Value.isPlain_eq_of_equal left, ← Value.isPlain_eq_of_equal right]
      rw [apply_of_not_plain op computes plain, apply_of_not_plain op computes plain']
      exact .fault rfl
  · have types := Value.type_eq_of_equal left
    have types' := Value.type_eq_of_equal right
    have agree := Value.equal_congr hu hu' hv hv' left right
    cases op with
    | unknown code => exact .fault rfl
    | equal | notEqual =>
        simp only [apply, types, types', agree]
        split
        · exact .value (by simp [Value.equal])
        · exact .fault rfl
    | _ => exact absurd rfl computes

theorem apply_respects_equality_sample :
    let u := Value.sequence [.ofSet [.int 1, .ofSet [.bool true, .text [97]]]]
    let u' := Value.sequence [.ofSet [.ofSet [.text [97], .bool true], .int 1, .int 1]]
    u.WellFormed ∧ u'.WellFormed ∧ u.equal u' = true ∧ u'.equal u = true ∧
      EqualOutcomes (notEqual.apply u u') (notEqual.apply u' u) := by
  intro u u'
  have one : Value.WellFormed (.int 1) := .int 1
  have truth : Value.WellFormed (.bool true) := .bool true
  have letter : Value.WellFormed (.text [97]) := .text [97]
  have inner : Value.WellFormed (.ofSet [.bool true, .text [97]]) := .set _ (by simp [truth, letter])
  have inner' : Value.WellFormed (.ofSet [.text [97], .bool true]) := .set _ (by simp [truth, letter])
  have outer : Value.WellFormed (.ofSet [.int 1, .ofSet [.bool true, .text [97]]]) :=
    .set _ (by simp [one, inner])
  have outer' : Value.WellFormed (.ofSet [.ofSet [.text [97], .bool true], .int 1, .int 1]) :=
    .set _ (by simp [one, inner'])
  have formed : u.WellFormed := .sequence _ (by simp [outer])
  have formed' : u'.WellFormed := .sequence _ (by simp [outer'])
  have same : u.equal u' = true := by decide +kernel
  have same' : u'.equal u = true := by decide +kernel
  exact ⟨formed, formed', same, same',
    apply_respects_equality notEqual u u' u' u formed formed' formed' formed same same'⟩

end BinaryOp

end Koy
