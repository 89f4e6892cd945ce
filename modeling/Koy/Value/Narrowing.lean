import Koy.Fault

/-! Access to what a value holds, by type. -/

namespace Koy.Value

def asInt : Value → Except Fault Int64
  | .int n => .ok n
  | value => .error (.narrowing .int value)

def asBool : Value → Except Fault Bool
  | .bool b => .ok b
  | value => .error (.narrowing .bool value)

def asText : Value → Except Fault Bytes
  | .text content => .ok content
  | value => .error (.narrowing .text value)

def asSequence : Value → Except Fault (List Value)
  | .sequence items => .ok items
  | value => .error (.narrowing .sequence value)

def asSet : Value → Except Fault (List Value)
  | .set members => .ok members
  | value => .error (.narrowing .set value)

def asMapping : Value → Except Fault (NameMap Value)
  | .mapping entries => .ok entries
  | value => .error (.narrowing .mapping value)

def asFunction : Value → Except Fault (List String × Body)
  | .function params body => .ok (params, body)
  | value => .error (.narrowing .function value)

end Koy.Value
