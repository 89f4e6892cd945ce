import Koy.Value

/-! Values as text. -/

namespace Koy.Value

mutual

def render : Value → String
  | .int n => Decimal.ofInt64 n
  | .bool b => if b then "true" else "false"
  | .text content => Text.quote content
  | .sequence items => "[" ++ String.intercalate ", " (renderAll items) ++ "]"
  | .set members => "%\x7b" ++ String.intercalate ", " (renderAll members) ++ "\x7d"
  | .mapping entries => "#\x7b" ++ String.intercalate ", " (renderEntries entries) ++ "\x7d"
  | .function params _ => "<fn" ++ Expr.renderParams params ++ ">"
  | .invalid => "<invalid>"

def renderAll : List Value → List String
  | [] => []
  | value :: rest => render value :: renderAll rest

def renderEntries : List (String × Value) → List String
  | [] => []
  | (key, value) :: rest => (key ++ ": " ++ render value) :: renderEntries rest

end

/-- A value as it is printed: a text is shown without quotes. -/
def display : Value → Bytes
  | .text content => content
  | value => Bytes.ofString value.render

def described (value : Value) : String :=
  value.typeName ++ " " ++ value.render

end Koy.Value
