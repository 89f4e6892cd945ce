import Koy.Fault
import Koy.Value.Equality

/-! Values handed in by a program that embeds the language. -/

namespace Koy

inductive HostValue where
  | int (n : Int64)
  | bool (b : Bool)
  | text (content : Bytes)
  | list (items : List HostValue)
  | dictionary (entries : List (String × HostValue))
  | value (value : Value)
  | values (items : List Value)
  | valueDictionary (entries : List (String × Value))
  | function (params : List String) (body : Body)
  /-- A value of a type without counterpart. -/
  | other (typeName : String)
  deriving Repr, Inhabited

namespace HostValue

mutual

def lift : HostValue → Except Fault Value
  | .int n => .ok (.int n)
  | .bool b => .ok (.bool b)
  | .text content => .ok (.text content)
  | .list items => (liftAll items).map .sequence
  | .dictionary entries => (liftEntries entries).map .ofMapping
  | .value v => .ok v
  | .values items => .ok (.sequence items)
  | .valueDictionary entries => .ok (.ofMapping entries)
  | .function params body => .ok (.function params body)
  | .other typeName => .error (.notAValue typeName)

def liftAll : List HostValue → Except Fault (List Value)
  | [] => .ok []
  | item :: rest => do
    let first ← lift item
    return first :: (← liftAll rest)

def liftEntries : List (String × HostValue) → Except Fault (List (String × Value))
  | [] => .ok []
  | (key, item) :: rest => do
    let first ← lift item
    return (key, first) :: (← liftEntries rest)

end

end HostValue

end Koy
