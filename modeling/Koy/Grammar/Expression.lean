import Koy.Grammar.Parse
import Koy.Program

/-! The grammar of expressions. Each rule is a reader that takes the reader of whole expressions as
an argument; `expression` ties them together. A budget bounds nesting and repetition: it is computed
from the length of the source and is never used up by one. -/

namespace Koy.Grammar

open Parse

abbrev Level := List (TokenKind × BinaryOp)

def levels : List Level :=
  [[(.orOr, .or)],
   [(.andAnd, .and)],
   [(.equal, .equal), (.notEqual, .notEqual)],
   [(.less, .less), (.lessEqual, .lessOrEqual), (.greater, .greater),
    (.greaterEqual, .greaterOrEqual)],
   [(.plus, .add), (.minus, .subtract)],
   [(.times, .multiply), (.slash, .divide), (.percent, .remainder)]]

def updateOp? : TokenKind → Option UpdateOp
  | .increment => some .increment
  | .decrement => some .decrement
  | _ => none

/-- An integer literal; `place` is the token that it is reported at. -/
def integer (literal : String) (place : Token) : Parse Expr :=
  match Decimal.int64? literal with
  | some value => pure (.int value place.position)
  | none => refuse place.position (.outOfRange literal)

/-- Parameter names, of which those already read may not come again. -/
def paramNames : Nat → List String → Parse (List String)
  | 0, _ => tooDeep
  | budget + 1, seen => do
    let param ← expect .identifier
    if seen.contains param.lexeme then
      refuse param.position (.duplicateParameter param.lexeme)
    if (← kind) = .comma then
      advance
      paramNames budget (seen ++ [param.lexeme])
    else return seen ++ [param.lexeme]

def params (budget : Nat) : Parse (List String) := do
  discard <| expect .openParen
  let names ← if (← kind) = .closeParen then pure [] else paramNames budget []
  discard <| expect .closeParen
  return names

section

variable (expr : Parse Expr)

/-- The elements of a block up to its closing brace or the end of the input. -/
def blockElements : Nat → Parse (List Expr)
  | 0 => tooDeep
  | budget + 1 => do
    skipSemicolons (budget + 1)
    let next ← kind
    if next = .closeBrace ∨ next = .endOfInput then return []
    let element ← expr
    let next ← kind
    if next ≠ .semicolon ∧ next ≠ .closeBrace then refuseHere .unterminatedBlockElement
    return element :: (← blockElements budget)

def braced (budget : Nat) : Parse (List Expr × Position) := do
  let brace ← expect .openBrace
  let elements ← blockElements expr budget
  discard <| expect .closeBrace
  return (elements, brace.position)

def signature (budget : Nat) : Parse (List String × Body) := do
  let names ← params budget
  let (elements, position) ← braced expr budget
  return (names, { elements, position })

def declaration : Parse ValueDef := do
  let start ← token
  let mutable := start.kind = .mutableWord
  if mutable then advance
  discard <| expect .letWord
  let name ← expect .identifier
  discard <| expect .assign
  let value ← expr
  return { name := name.lexeme, value, mutable, position := start.position }

def assignment : Parse Expr := do
  let name ← expect .identifier
  discard <| expect .assign
  let value ← expr
  return .assign name.lexeme value name.position

def parenthesized : Parse Expr := do
  discard <| expect .openParen
  let inner ← expr
  discard <| expect .closeParen
  return inner

/-- Expressions separated by commas up to a closing token; a comma may stand before it. -/
def items (close : TokenKind) : Nat → Parse (List Expr)
  | 0 => tooDeep
  | budget + 1 => do
    if (← kind) = close then return []
    let item ← expr
    if (← kind) = .comma then
      advance
      return item :: (← items close budget)
    else return [item]

def bracketed (opening close : TokenKind) (budget : Nat) : Parse (List Expr) := do
  discard <| expect opening
  let content ← items expr close budget
  discard <| expect close
  return content

def mappingEntries : Nat → Parse (List (String × Expr))
  | 0 => tooDeep
  | budget + 1 => do
    let key ← token
    if key.kind = .closeBrace then return []
    if key.kind ≠ .identifier ∧ key.kind ≠ .text then refuseHere .notAKey
    advance
    discard <| expect .colon
    let value ← expr
    if (← kind) = .comma then
      advance
      return (key.lexeme, value) :: (← mappingEntries budget)
    else return [(key.lexeme, value)]

def mapping (budget : Nat) : Parse Expr := do
  let start ← expect .openMap
  let entries ← mappingEntries expr budget
  discard <| expect .closeBrace
  return .mapping entries start.position

/-- The arguments of a call, at least one; no comma may stand before the closing parenthesis. -/
def arguments : Nat → Parse (List Expr)
  | 0 => tooDeep
  | budget + 1 => do
    let argument ← expr
    if (← kind) = .comma then
      advance
      return argument :: (← arguments budget)
    else return [argument]

def labeledArguments : Nat → List String → Parse (List (String × Expr))
  | 0, _ => tooDeep
  | budget + 1, seen => do
    if (← kind) = .closeBracket then return []
    let label ← expect .identifier
    if seen.contains label.lexeme then
      refuse label.position (.duplicateLabel label.lexeme)
    discard <| expect .assign
    let value ← expr
    if (← kind) = .comma then
      advance
      return (label.lexeme, value) :: (← labeledArguments budget (label.lexeme :: seen))
    else return [(label.lexeme, value)]

/-- The arguments of a call are labeled if they start with a bracket, a name and an equals sign. -/
def atLabels : Parse Bool := do
  if (← kind) = .openBracket then
    if ← aheadIs 0 .identifier then aheadIs 1 .assign else return false
  else return false

def call (budget : Nat) : Parse Expr := do
  let callee ← expect .identifier
  discard <| expect .openParen
  if ← atLabels then
    discard <| expect .openBracket
    let labeled ← labeledArguments expr budget []
    discard <| expect .closeBracket
    discard <| expect .closeParen
    return .labeledCall callee.lexeme labeled callee.position
  else
    let positional ← if (← kind) = .closeParen then pure [] else arguments expr budget
    discard <| expect .closeParen
    return .call callee.lexeme positional callee.position

/-- The else part of a conditional; a line end may stand before it. -/
def alternative : Parse (Option Expr) := do
  if (← kind) = .semicolon then
    if ← aheadIs 0 .elseWord then advance
  if (← kind) = .elseWord then
    advance
    return some (← expr)
  else return none

def branch : Parse Expr := do
  let start ← expect .ifWord
  let condition ← parenthesized expr
  let consequent ← expr
  return .branch condition consequent (← alternative expr) start.position

def loop : Parse Expr := do
  let start ← expect .whileWord
  let condition ← parenthesized expr
  let body ← expr
  return .loop condition body start.position

def primary (budget : Nat) : Parse Expr := do
  let start ← token
  match start.kind with
  | .number =>
    advance
    integer start.lexeme start
  | .text =>
    advance
    return .text (Bytes.ofString start.lexeme) start.position
  | .trueWord =>
    advance
    return .bool true start.position
  | .falseWord =>
    advance
    return .bool false start.position
  | .identifier =>
    if ← aheadIs 0 .openParen then call expr budget
    else
      advance
      return .identifier start.lexeme start.position
  | .openParen => parenthesized expr
  | .openBracket => return .sequence (← bracketed expr .openBracket .closeBracket budget) start.position
  | .openSet => return .set (← bracketed expr .openSet .closeBrace budget) start.position
  | .openMap => mapping expr budget
  | .fnWord =>
    advance
    let (names, body) ← signature expr budget
    return .function names body.id body.elements body.position start.position
  | .openBrace =>
    let (elements, position) ← braced expr budget
    return .block elements position
  | .printlnWord =>
    advance
    return .println (← parenthesized expr) start.position
  | .ifWord => branch expr
  | .whileWord => loop expr
  | _ => refuseHere .notAnExpression

def updates : Nat → Expr → Parse Expr
  | 0, _ => tooDeep
  | budget + 1, operand => do
    match updateOp? (← kind) with
    | some op =>
      let mark ← take
      updates budget (.update op false operand mark.position)
    | none => return operand

/-- An operand with its update operators and minus signs. A minus sign before a number belongs to
the literal; before anything else it subtracts from zero. -/
def unary : Nat → Parse Expr
  | 0 => tooDeep
  | budget + 1 => do
    let start ← token
    if start.kind = .minus then
      advance
      let operand ← token
      if operand.kind = .number then
        advance
        integer ("-" ++ operand.lexeme) start
      else
        let operand ← unary budget
        return .binary .subtract (.int 0 start.position) operand start.position
    else match updateOp? start.kind with
      | some op =>
        advance
        let operand ← unary budget
        return .update op true operand start.position
      | none => do
        let operand ← primary expr (budget + 1)
        updates (budget + 1) operand

/-- Operators of one level after a first operand, joined from the left. -/
def chain (operand : Parse Expr) (level : Level) : Nat → Expr → Parse Expr
  | 0, _ => tooDeep
  | budget + 1, lhs => do
    let sign ← token
    match level.lookup sign.kind with
    | some op =>
      advance
      let rhs ← operand
      chain operand level budget (.binary op lhs rhs sign.position)
    | none => return lhs

/-- Operands joined by operators of the given levels, of which the first is the loosest. -/
def joined (budget : Nat) : List Level → Parse Expr
  | [] => unary expr budget
  | level :: tighter => do
    let lhs ← joined budget tighter
    chain (joined budget tighter) level budget lhs

def expressionOf (budget : Nat) : Parse Expr := do
  match ← kind with
  | .letWord | .mutableWord => return (← declaration expr).declaration
  | .identifier => if ← aheadIs 0 .assign then assignment expr else joined expr budget levels
  | _ => joined expr budget levels

end

def expression : Nat → Parse Expr
  | 0 => tooDeep
  | budget + 1 => expressionOf (expression budget) (budget + 1)

end Koy.Grammar
