import Koy.Expr.Equality
import Koy.Expr.Printer

/-! Programs: named functions and values at the top level, and what an interactive entry holds. -/

namespace Koy

/-- The body of a function: a block with an identity. -/
structure Body where
  id : BodyId := .unloaded
  elements : List Expr
  position : Position := {}
  deriving DecidableEq, Repr, Inhabited

namespace Body

def block (body : Body) : Expr :=
  .block body.elements body.position

end Body

structure FunctionDef where
  name : String
  params : List String
  body : Body
  position : Position := {}
  deriving DecidableEq, Repr, Inhabited

namespace FunctionDef

def render (function : FunctionDef) : String :=
  "fn " ++ function.name ++ Expr.renderParams function.params ++ " " ++ function.body.block.render

end FunctionDef

structure ValueDef where
  name : String
  value : Expr
  mutable : Bool := false
  position : Position := {}
  deriving DecidableEq, Repr, Inhabited

namespace ValueDef

def declaration (definition : ValueDef) : Expr :=
  .declare definition.name definition.mutable definition.value definition.position

def render (definition : ValueDef) : String :=
  definition.declaration.render

end ValueDef

inductive Definition where
  | function (defined : FunctionDef)
  | value (defined : ValueDef)
  /-- A place where a definition should stand and none does. Only trees built by hand hold it. -/
  | missing
  deriving DecidableEq, Repr, Inhabited

namespace Definition

def render : Definition → String
  | .function defined => defined.render
  | .value defined => defined.render
  | .missing => ""

end Definition

structure Program where
  definitions : List Definition
  deriving DecidableEq, Repr, Inhabited

namespace Program

def render (program : Program) : String :=
  String.intercalate "\n" (program.definitions.map Definition.render)

end Program

inductive Entry where
  | function (defined : FunctionDef)
  | expression (expr : Expr)
  deriving DecidableEq, Repr, Inhabited

namespace Entry

def render : Entry → String
  | .function defined => defined.render
  | .expression expr => expr.render

end Entry

end Koy
