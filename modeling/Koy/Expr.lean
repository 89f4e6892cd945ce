import Koy.Operator
import Koy.Position
import Koy.Text.Bytes

/-! Expressions. Everything below the top level of a program is one, and each yields one value. -/

namespace Koy

/-- What tells the body of a function from other bodies, whatever their text. -/
inductive BodyId where
  /-- The tree has not been loaded into a session. -/
  | unloaded
  | loaded (number : Nat)
  | host (label : String)
  deriving DecidableEq, Repr, Inhabited

/-- An expression. The last field of each form is its place in the source text. -/
inductive Expr where
  /-- A place where an expression should stand and none does. Only trees built by hand hold it. -/
  | missing
  | int (value : Int64) (position : Position)
  | bool (value : Bool) (position : Position)
  | text (value : Bytes) (position : Position)
  | sequence (items : List Expr) (position : Position)
  | set (items : List Expr) (position : Position)
  | mapping (entries : List (String × Expr)) (position : Position)
  | function (params : List String) (id : BodyId) (body : List Expr) (bodyPosition : Position)
      (position : Position)
  | identifier (name : String) (position : Position)
  | update (op : UpdateOp) (before : Bool) (operand : Expr) (position : Position)
  | binary (op : BinaryOp) (lhs rhs : Expr) (position : Position)
  | declare (name : String) (mutable : Bool) (value : Expr) (position : Position)
  | assign (name : String) (value : Expr) (position : Position)
  | println (argument : Expr) (position : Position)
  | branch (condition consequent : Expr) (alternative : Option Expr) (position : Position)
  | loop (condition body : Expr) (position : Position)
  | block (elements : List Expr) (position : Position)
  | call (callee : String) (arguments : List Expr) (position : Position)
  | labeledCall (callee : String) (arguments : List (String × Expr)) (position : Position)
  deriving Repr, Inhabited

namespace Expr

def position : Expr → Position
  | .missing => {}
  | .int _ p | .bool _ p | .text _ p | .sequence _ p | .set _ p | .mapping _ p
  | .function _ _ _ _ p | .identifier _ p | .update _ _ _ p | .binary _ _ _ p | .declare _ _ _ p
  | .assign _ _ p | .println _ p | .branch _ _ _ p | .loop _ _ p | .block _ p | .call _ _ p
  | .labeledCall _ _ p => p

end Expr

end Koy
