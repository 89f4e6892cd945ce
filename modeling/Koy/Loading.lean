import Koy.Program

/-! Loading: a session gives every function body that it takes in a number of its own, so that two
bodies are the same only if they come from the same place of the same input. -/

namespace Koy

/-- A computation that takes numbers for bodies from a counter. -/
abbrev Loading (α : Type) := StateM Nat α

namespace Loading

def freshId : Loading BodyId :=
  modifyGet fun next => (.loaded next, next + 1)

mutual

def expr : Expr → Loading Expr
  | .missing => return .missing
  | .int value position => return .int value position
  | .bool value position => return .bool value position
  | .text value position => return .text value position
  | .sequence items position => return .sequence (← exprs items) position
  | .set items position => return .set (← exprs items) position
  | .mapping items position => return .mapping (← entries items) position
  | .function params _ body bodyPosition position => do
    let id ← freshId
    return .function params id (← exprs body) bodyPosition position
  | .identifier name position => return .identifier name position
  | .update op before operand position => return .update op before (← expr operand) position
  | .binary op lhs rhs position => return .binary op (← expr lhs) (← expr rhs) position
  | .declare name mutable value position => return .declare name mutable (← expr value) position
  | .assign name value position => return .assign name (← expr value) position
  | .println argument position => return .println (← expr argument) position
  | .branch test consequent alternative position =>
    return .branch (← expr test) (← expr consequent) (← optional alternative) position
  | .loop test body position => return .loop (← expr test) (← expr body) position
  | .block elements position => return .block (← exprs elements) position
  | .call callee arguments position => return .call callee (← exprs arguments) position
  | .labeledCall callee arguments position =>
    return .labeledCall callee (← entries arguments) position

def exprs : List Expr → Loading (List Expr)
  | [] => return []
  | first :: rest => return (← expr first) :: (← exprs rest)

def entries : List (String × Expr) → Loading (List (String × Expr))
  | [] => return []
  | (name, first) :: rest => return (name, ← expr first) :: (← entries rest)

def optional : Option Expr → Loading (Option Expr)
  | none => return none
  | some inner => return some (← expr inner)

end

def function (defined : FunctionDef) : Loading FunctionDef := do
  let id ← freshId
  let elements ← exprs defined.body.elements
  return { defined with body := { defined.body with id, elements } }

def definition : Definition → Loading Definition
  | .function defined => return .function (← function defined)
  | .value defined => return .value { defined with value := ← expr defined.value }
  | .missing => return .missing

def program (loaded : Program) : Loading Program :=
  return { definitions := ← loaded.definitions.mapM definition }

def entry : Entry → Loading Entry
  | .function defined => return .function (← function defined)
  | .expression value => return .expression (← expr value)

end Loading

end Koy
