import Koy.NameMap
import Koy.Program

/-! Values: what expressions evaluate to. -/

namespace Koy

inductive ValueType where
  | invalid
  | int
  | bool
  | text
  | sequence
  | set
  | mapping
  | function
  deriving DecidableEq, Repr

namespace ValueType

def all : List ValueType :=
  [.invalid, .int, .bool, .text, .sequence, .set, .mapping, .function]

def name : ValueType → String
  | .invalid => "invalid"
  | .int => "int"
  | .bool => "bool"
  | .text => "text"
  | .sequence => "sequence"
  | .set => "set"
  | .mapping => "mapping"
  | .function => "function"

def nameOfCode (code : Int) : String :=
  match code with
  | .ofNat n => (all[n]?.getD .invalid).name
  | .negSucc _ => ValueType.invalid.name

end ValueType

/-- A value. Sets and mappings are built by `ofSet` and `ofMapping`. -/
inductive Value where
  | int (n : Int64)
  | bool (b : Bool)
  | text (content : Bytes)
  | sequence (items : List Value)
  /-- A set: its members in the order in which they were first seen, no two of them equal. -/
  | set (members : List Value)
  | mapping (entries : List (String × Value))
  /-- A function: parameters and a body, and no environment. -/
  | function (params : List String) (body : Body)
  /-- The value of a place that holds none. -/
  | invalid
  deriving Repr, Inhabited

namespace Value

def type : Value → ValueType
  | .int _ => .int
  | .bool _ => .bool
  | .text _ => .text
  | .sequence _ => .sequence
  | .set _ => .set
  | .mapping _ => .mapping
  | .function _ _ => .function
  | .invalid => .invalid

def typeName (value : Value) : String :=
  value.type.name

def ofMapping (entries : List (String × Value)) : Value :=
  .mapping (NameMap.ofList entries)

end Value

end Koy
