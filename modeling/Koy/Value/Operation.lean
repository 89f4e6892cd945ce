import Koy.Fault
import Koy.Value.Equality

/-! The operators on values. Operands are never converted: an operator accepts operands of its own
types and refuses all others. -/

namespace Koy

def ValueType.comparable : ValueType → Bool
  | .int | .bool | .text | .sequence | .set => true
  | .mapping | .function | .invalid => false

namespace BinaryOp

/-- The operator on integers. Results wrap around at 64 bits, and division goes toward zero. -/
def onInts (op : BinaryOp) (a b : Int64) : Except Fault Value :=
  match op with
  | .add => .ok (.int (a + b))
  | .subtract => .ok (.int (a - b))
  | .multiply => .ok (.int (a * b))
  | .divide => if b = 0 then .error (.divisionByZero op a) else .ok (.int (a / b))
  | .remainder => if b = 0 then .error (.divisionByZero op a) else .ok (.int (a % b))
  | .less => .ok (.bool (a < b))
  | .lessOrEqual => .ok (.bool (a ≤ b))
  | .greater => .ok (.bool (b < a))
  | .greaterOrEqual => .ok (.bool (b ≤ a))
  | _ => .error (.operands op (.int a) (.int b))

def apply (op : BinaryOp) (lhs rhs : Value) : Except Fault Value :=
  match op with
  | .unknown code => .error (.unknownOperator code)
  | .equal =>
    if lhs.type = rhs.type ∧ lhs.type.comparable then .ok (.bool (lhs.equal rhs))
    else .error (.operands op lhs rhs)
  | .notEqual =>
    if lhs.type = rhs.type ∧ lhs.type.comparable then .ok (.bool (!lhs.equal rhs))
    else .error (.operands op lhs rhs)
  | .and =>
    match lhs, rhs with
    | .bool a, .bool b => .ok (.bool (a && b))
    | _, _ => .error (.operands op lhs rhs)
  | .or =>
    match lhs, rhs with
    | .bool a, .bool b => .ok (.bool (a || b))
    | _, _ => .error (.operands op lhs rhs)
  | .add =>
    match lhs, rhs with
    | .int a, .int b => onInts .add a b
    | .text a, .text b => .ok (.text (a ++ b))
    | _, _ => .error (.operands op lhs rhs)
  | _ =>
    match lhs, rhs with
    | .int a, .int b => onInts op a b
    | _, _ => .error (.operands op lhs rhs)

end BinaryOp

end Koy
