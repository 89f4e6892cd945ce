/-! The operators of expressions. -/

namespace Koy

inductive BinaryOp where
  | add
  | subtract
  | multiply
  | divide
  | remainder
  | less
  | lessOrEqual
  | greater
  | greaterOrEqual
  | equal
  | notEqual
  | and
  | or
  /-- A number that belongs to no operator. Only trees built by hand hold it. -/
  | unknown (code : Int)
  deriving DecidableEq, Repr

namespace BinaryOp

def all : List BinaryOp :=
  [.add, .subtract, .multiply, .divide, .remainder, .less, .lessOrEqual, .greater, .greaterOrEqual,
   .equal, .notEqual, .and, .or]

def ofCode (code : Int) : BinaryOp :=
  match code with
  | .ofNat n => all[n]?.getD (.unknown code)
  | .negSucc _ => .unknown code

def symbol : BinaryOp → String
  | .add => "+"
  | .subtract => "-"
  | .multiply => "*"
  | .divide => "/"
  | .remainder => "%"
  | .less => "<"
  | .lessOrEqual => "<="
  | .greater => ">"
  | .greaterOrEqual => ">="
  | .equal => "=="
  | .notEqual => "!="
  | .and => "&&"
  | .or => "||"
  | .unknown _ => "?"

def name : BinaryOp → String
  | .add => "add"
  | .subtract => "subtract"
  | .multiply => "multiply"
  | .divide => "divide"
  | .remainder => "remainder"
  | .less => "less"
  | .lessOrEqual => "less-or-equal"
  | .greater => "greater"
  | .greaterOrEqual => "greater-or-equal"
  | .equal => "equal"
  | .notEqual => "not-equal"
  | .and => "logical-and"
  | .or => "logical-or"
  | .unknown _ => "unknown"

end BinaryOp

inductive UpdateOp where
  | increment
  | decrement
  deriving DecidableEq, Repr

namespace UpdateOp

/-- Every number but that of the decrement stands for the increment. -/
def ofCode (code : Int) : UpdateOp :=
  if code = 1 then .decrement else .increment

def symbol : UpdateOp → String
  | .increment => "++"
  | .decrement => "--"

/-- The number after the update; it wraps around at 64 bits. -/
def apply (op : UpdateOp) (n : Int64) : Int64 :=
  match op with
  | .increment => n + 1
  | .decrement => n - 1

end UpdateOp

end Koy
