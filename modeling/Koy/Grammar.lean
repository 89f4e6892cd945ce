import Koy.Grammar.Expression

/-! Reading programs, expressions and interactive entries from source text. -/

namespace Koy

namespace Grammar

open Parse

/-- A bound on the tokens of a source text, supplied semicolons and the end token included. -/
def budgetOf (source : Bytes) : Nat :=
  2 * source.length + 3

def runOn {α : Type} (reader : Nat → Parse α) (source : Bytes) : Except SyntaxError α := do
  let stream ← TokenStream.ofSource source
  let (result, _) ← (reader (budgetOf source)).run stream
  return result

def endOfElement : Parse Unit := do
  match ← kind with
  | .semicolon => advance
  | .endOfInput => return
  | _ => refuseHere .unterminatedElement

def elements {α : Type} (element : Parse α) : Nat → Parse (List α)
  | 0 => tooDeep
  | budget + 1 => do
    skipSemicolons (budget + 1)
    if (← kind) = .endOfInput then return []
    let first ← element
    endOfElement
    return first :: (← elements element budget)

def functionDef (budget : Nat) : Parse FunctionDef := do
  let start ← expect .fnWord
  let name ← expect .identifier
  let (params, body) ← signature (expression budget) budget
  return { name := name.lexeme, params, body, position := start.position }

def definition (budget : Nat) : Parse Definition := do
  match ← kind with
  | .fnWord => return .function (← functionDef budget)
  | .letWord | .mutableWord => return .value (← declaration (expression budget))
  | _ => refuseHere .notADefinition

/-- An element of interactive input: `fn` before a name starts a definition. -/
def entry (budget : Nat) : Parse Entry := do
  if (← kind) = .fnWord then
    if ← aheadIs 0 .identifier then return .function (← functionDef budget)
  return .expression (← expression budget)

/-- One expression that fills the input but for semicolons. -/
def wholeExpression (budget : Nat) : Parse Expr := do
  skipSemicolons budget
  let expr ← expression budget
  skipSemicolons budget
  if (← kind) = .endOfInput then return expr else refuseHere .afterExpression

end Grammar

def Program.parse (source : Bytes) : Except SyntaxError Program :=
  Grammar.runOn (fun budget =>
    return { definitions := ← Grammar.elements (Grammar.definition budget) budget }) source

def Expr.parse (source : Bytes) : Except SyntaxError Expr :=
  Grammar.runOn Grammar.wholeExpression source

def Entry.parseAll (source : Bytes) : Except SyntaxError (List Entry) :=
  Grammar.runOn (fun budget => Grammar.elements (Grammar.entry budget) budget) source

end Koy
