import Koy.Value.Printer

/-! Faults: why an evaluation fails. -/

namespace Koy

inductive FaultKind where
  | typeMismatch
  | unboundName
  | unknownFunction
  | immutableAssignment
  | missingLabel
  | arityMismatch
  | divisionByZero
  | missingEntryPoint
  | stackOverflow
  | invalidOperand
  | unsupported
  deriving DecidableEq, Repr

namespace FaultKind

/-- All kinds. The number of a kind is one more than its index. -/
def all : List FaultKind :=
  [.typeMismatch, .unboundName, .unknownFunction, .immutableAssignment, .missingLabel,
   .arityMismatch, .divisionByZero, .missingEntryPoint, .stackOverflow, .invalidOperand,
   .unsupported]

def ofCode? (code : Int) : Option FaultKind :=
  match code with
  | .ofNat (n + 1) => all[n]?
  | _ => none

def name : FaultKind → String
  | .typeMismatch => "type mismatch"
  | .unboundName => "unbound name"
  | .unknownFunction => "unknown function"
  | .immutableAssignment => "immutable assignment"
  | .missingLabel => "missing label"
  | .arityMismatch => "arity mismatch"
  | .divisionByZero => "division by zero"
  | .missingEntryPoint => "missing entry point"
  | .stackOverflow => "stack overflow"
  | .invalidOperand => "invalid operand"
  | .unsupported => "unsupported node"

def nameOfCode (code : Int) : String :=
  ((ofCode? code).map name).getD "unknown error"

/-- A report: the name of the kind and, unless it is empty, the context. -/
def report (name context : String) : String :=
  if context.isEmpty then name else name ++ ": " ++ context

end FaultKind

inductive Fault where
  | narrowing (wanted : ValueType) (value : Value)
  | notAValue (hostType : String)
  | operands (op : BinaryOp) (lhs rhs : Value)
  | condition (form : String) (value : Value)
  | notAnInt (op : UpdateOp) (name : String) (value : Value)
  | undeclared (name : String)
  | undefinedFunction (name : String)
  | immutable (name : String)
  | missingLabel (callee param : String)
  | unknownLabel (callee label : String)
  | argumentCount (callee : String) (expected given : Nat)
  | divisionByZero (op : BinaryOp) (dividend : Int64)
  | noProgram
  | noEntryPoint
  | tooDeep (limit : Nat)
  | notAVariable (op : UpdateOp) (operand : Expr)
  | missingExpression
  | missingDefinition
  | unknownOperator (code : Int)
  deriving Repr

def entryPoint : String := "main"

namespace Fault

def kind : Fault → FaultKind
  | .narrowing _ _ | .notAValue _ | .operands _ _ _ | .condition _ _ | .notAnInt _ _ _ =>
    .typeMismatch
  | .undeclared _ => .unboundName
  | .undefinedFunction _ => .unknownFunction
  | .immutable _ => .immutableAssignment
  | .missingLabel _ _ => .missingLabel
  | .unknownLabel _ _ | .argumentCount _ _ _ => .arityMismatch
  | .divisionByZero _ _ => .divisionByZero
  | .noProgram | .noEntryPoint => .missingEntryPoint
  | .tooDeep _ => .stackOverflow
  | .notAVariable _ _ => .invalidOperand
  | .missingExpression | .missingDefinition | .unknownOperator _ => .unsupported

def context : Fault → String
  | .narrowing wanted value => "expected " ++ wanted.name ++ ", got " ++ value.described
  | .notAValue hostType => "cannot convert " ++ hostType ++ " to a value"
  | .operands op lhs rhs =>
    op.name ++ " (" ++ op.symbol ++ ") is not defined for " ++ lhs.described ++ " and "
      ++ rhs.described
  | .condition form value => form ++ " condition must be bool, got " ++ value.described
  | .notAnInt op name value =>
    op.symbol ++ " applies to int variables, " ++ name ++ " is " ++ value.described
  | .undeclared name => name ++ " is not declared"
  | .undefinedFunction name => "function " ++ name ++ " is not defined"
  | .immutable name =>
    name ++ " is declared immutable; declare it with mutable let to reassign"
  | .missingLabel callee param => callee ++ " requires label " ++ param
  | .unknownLabel callee label => callee ++ " has no parameter " ++ label
  | .argumentCount callee expected given =>
    callee ++ " expects " ++ toString expected ++ " arguments, got " ++ toString given
  | .divisionByZero op dividend => Decimal.ofInt64 dividend ++ " " ++ op.symbol ++ " 0"
  | .noProgram => "empty program"
  | .noEntryPoint => "program has no " ++ entryPoint ++ " function"
  | .tooDeep limit => "evaluation nested deeper than " ++ toString limit ++ " steps"
  | .notAVariable op operand =>
    op.symbol ++ " needs a variable operand, got " ++ operand.shown
  | .missingExpression => "nil expression"
  | .missingDefinition => "top-level <nil>"
  | .unknownOperator code => "binary operator " ++ toString code

def message (fault : Fault) : String :=
  FaultKind.report fault.kind.name fault.context

end Fault

end Koy
