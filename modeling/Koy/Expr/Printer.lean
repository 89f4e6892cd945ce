import Koy.Expr
import Koy.Text.Decimal
import Koy.Text.Quoted

/-! Expressions as text. Binary expressions are put into parentheses, so that the text shows the
tree. -/

namespace Koy.Expr

def declarationWords (mutable : Bool) : String :=
  if mutable then "mutable let " else "let "

def renderBlock (elements : List String) : String :=
  if elements.isEmpty then "\x7b\x7d"
  else "\x7b " ++ String.intercalate "; " elements ++ " \x7d"

def renderParams (params : List String) : String :=
  "(" ++ String.intercalate ", " params ++ ")"

mutual

def render : Expr → String
  | .missing => ""
  | .int value _ => Decimal.ofInt64 value
  | .bool value _ => if value then "true" else "false"
  | .text value _ => Text.quote value
  | .sequence items _ => "[" ++ String.intercalate ", " (renderAll items) ++ "]"
  | .set items _ => "%\x7b" ++ String.intercalate ", " (renderAll items) ++ "\x7d"
  | .mapping entries _ => "#\x7b" ++ String.intercalate ", " (renderEntries ": " entries) ++ "\x7d"
  | .function params _ body _ _ => "fn" ++ renderParams params ++ " " ++ renderBlock (renderAll body)
  | .identifier name _ => name
  | .update op before operand _ =>
    if before then op.symbol ++ render operand else render operand ++ op.symbol
  | .binary op lhs rhs _ => "(" ++ render lhs ++ " " ++ op.symbol ++ " " ++ render rhs ++ ")"
  | .declare name mutable value _ => declarationWords mutable ++ name ++ " = " ++ render value
  | .assign name value _ => name ++ " = " ++ render value
  | .println argument _ => "println(" ++ render argument ++ ")"
  | .branch condition consequent alternative _ =>
    "if (" ++ render condition ++ ") " ++ render consequent ++ renderAlternative alternative
  | .loop condition body _ => "while (" ++ render condition ++ ") " ++ render body
  | .block elements _ => renderBlock (renderAll elements)
  | .call callee arguments _ => callee ++ "(" ++ String.intercalate ", " (renderAll arguments) ++ ")"
  | .labeledCall callee arguments _ =>
    callee ++ "([" ++ String.intercalate ", " (renderEntries "=" arguments) ++ "])"

def renderAll : List Expr → List String
  | [] => []
  | expr :: rest => render expr :: renderAll rest

def renderEntries (mark : String) : List (String × Expr) → List String
  | [] => []
  | (name, expr) :: rest => (name ++ mark ++ render expr) :: renderEntries mark rest

def renderAlternative : Option Expr → String
  | none => ""
  | some alternative => " else " ++ render alternative

end

mutual

/-- Somewhere in the tree an expression is missing. -/
def hasHole : Expr → Bool
  | .missing => true
  | .int _ _ | .bool _ _ | .text _ _ | .identifier _ _ => false
  | .sequence items _ | .set items _ | .block items _ => anyHole items
  | .mapping entries _ => entryHole entries
  | .function _ _ body _ _ => anyHole body
  | .update _ _ operand _ => hasHole operand
  | .binary _ lhs rhs _ => hasHole lhs || hasHole rhs
  | .declare _ _ value _ | .assign _ value _ => hasHole value
  | .println argument _ => hasHole argument
  | .branch condition consequent alternative _ =>
    hasHole condition || hasHole consequent || alternativeHole alternative
  | .loop condition body _ => hasHole condition || hasHole body
  | .call _ arguments _ => anyHole arguments
  | .labeledCall _ arguments _ => entryHole arguments

def anyHole : List Expr → Bool
  | [] => false
  | expr :: rest => hasHole expr || anyHole rest

def entryHole : List (String × Expr) → Bool
  | [] => false
  | (_, expr) :: rest => hasHole expr || entryHole rest

def alternativeHole : Option Expr → Bool
  | none => false
  | some alternative => hasHole alternative

end

/-- The text of an expression in traces and messages: a tree with a hole has no text, and a note
stands in its place. -/
def shown (expr : Expr) : String :=
  match expr with
  | .missing => "%!s(<nil>)"
  | _ =>
    if expr.hasHole then
      "%!s(PANIC=String method: runtime error: invalid memory address or nil pointer dereference)"
    else expr.render

end Koy.Expr
