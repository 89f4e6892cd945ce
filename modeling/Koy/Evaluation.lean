import Koy.FreshStack
import Koy.Value.Operation
import Koy.World

/-! Evaluation of expressions. The rules for one expression are stated over the evaluation `sub` of
its parts, which has one level of depth less; `evaluate` ties them together. What happened before a
failure stays in the world. -/

namespace Koy

structure Conditions where
  traced : Bool := false
  logged : Bool := false
  /-- The depth at which no further expression is evaluated. -/
  maxDepth : Nat := 100000
  /-- Why nothing can be written to the output, if so. -/
  unwritable : Option String := none
  /-- How many rounds a loop may take before the evaluation is given up. -/
  rounds : Nat := 4611686018427387904

inductive Halt where
  | fault (cause : Fault)
  | unwritable (reason : String)
  /-- A loop took more rounds than the conditions allow. -/
  | unfinished
  deriving Repr

abbrev Eval (α : Type) := EStateM Halt World α

namespace Eval

def fail {α : Type} (fault : Fault) : Eval α :=
  throw (.fault fault)

def ofExcept {α : Type} : Except Fault α → Eval α
  | .ok result => pure result
  | .error fault => fail fault

def record (event : Event) : Eval Unit :=
  modify fun world => world.record event

def trace (conditions : Conditions) (expr : Expr) : Eval Unit := do
  if conditions.traced && conditions.unwritable.isNone then record (.trace expr.shown)

def print (conditions : Conditions) (line : Bytes) : Eval Unit := do
  match conditions.unwritable with
  | none => record (.print line)
  | some reason => throw (.unwritable reason)

/-- Binds a name in a scope. A function goes to the table of functions instead, whether it may be
replaced or not. -/
def declare (scope : ScopeId) (name : String) (value : Value) (mutable : Bool) : Eval Unit := do
  match value with
  | .function params body =>
    modify fun world => { world with functions := world.functions.define { name, params, body } }
  | _ =>
    modify fun world => { world with scopes := world.scopes.bind scope name { value, mutable } }

def assign (scope : ScopeId) (name : String) (value : Value) : Eval Unit := do
  let scopes ← ofExcept ((← get).scopes.assign scope name value)
  modify fun world => { world with scopes }

def openScope (scope : ScopeId) : Eval ScopeId :=
  modifyGet fun world =>
    (world.scopes.nextId, { world with scopes := world.scopes.push (some scope) })

def bindAll (scope : ScopeId) : List (String × Value) → Eval Unit
  | [] => return
  | (name, value) :: rest => do
    modify fun world =>
      { world with scopes := world.scopes.bind scope name { value, mutable := true } }
    bindAll scope rest

def closeScope (conditions : Conditions) (function : String) (failed : Bool) (world : World) :
    World :=
  let closed := { world with scopes := world.scopes.pop }
  if conditions.logged then closed.record (.leave function failed) else closed

section

variable (conditions : Conditions) (depth : Nat) (sub : ScopeId → Expr → Eval Value)

def all (scope : ScopeId) : List Expr → Eval (List Value)
  | [] => return []
  | expr :: rest => do
    let value ← sub scope expr
    return value :: (← all scope rest)

def entries (scope : ScopeId) : List (String × Expr) → Eval (List (String × Value))
  | [] => return []
  | (name, expr) :: rest => do
    let value ← sub scope expr
    return (name, value) :: (← entries scope rest)

/-- Evaluates expressions in order and yields the last value, or the given one if there is none. -/
def last (scope : ScopeId) : Value → List Expr → Eval Value
  | result, [] => return result
  | _, expr :: rest => do last scope (← sub scope expr) rest

def condition (form : String) (scope : ScopeId) (expr : Expr) : Eval Bool := do
  match ← sub scope expr with
  | .bool b => return b
  | value => fail (.condition form value)

def repeatWhile (scope : ScopeId) (test body : Expr) : Nat → Eval Value
  | 0 => throw .unfinished
  | rounds + 1 => do
    if ← condition sub "while" scope test then
      discard <| sub scope body
      repeatWhile scope test body rounds
    else return .bool true

def update (op : UpdateOp) (scope : ScopeId) (operand : Expr) : Eval Value := do
  match operand with
  | .identifier name _ =>
    match ← sub scope operand with
    | .int n =>
      let next := Value.int (op.apply n)
      assign scope name next
      return next
    | value => fail (.notAnInt op name value)
  | _ => fail (.notAVariable op operand)

/-- Evaluates the body of a function in a new scope inside the caller's, which binds the parameters
and lives as long as the call. -/
def invoke (scope : ScopeId) (function : FunctionDef) (arguments : List Value) : Eval Value := do
  let callee ← openScope scope
  bindAll callee (function.params.zip arguments)
  if conditions.logged then
    record (.enter function.name depth ((← get).scopes.depth callee))
  fun world =>
    match sub callee function.body.block world with
    | .ok value world => .ok value (closeScope conditions function.name false world)
    | .error halt world => .error halt (closeScope conditions function.name true world)

def call (scope : ScopeId) (callee : String) (arguments : List Expr) : Eval Value := do
  let function ← ofExcept ((← get).functions.find callee)
  if arguments.length ≠ function.params.length then
    fail (.argumentCount callee function.params.length arguments.length)
  let values ← all sub scope arguments
  invoke conditions depth sub scope function values

def matchLabels (callee : String) :
    List String → NameMap Expr → Except Fault (List Expr × NameMap Expr)
  | [], labels => .ok ([], labels)
  | param :: params, labels =>
    match labels.get? param with
    | none => .error (.missingLabel callee param)
    | some argument => do
      let (arguments, left) ← matchLabels callee params (labels.erase param)
      return (argument :: arguments, left)

/-- The arguments of a labeled call in the order of the parameters. Of two arguments with one label
the later one counts. -/
def arrangeLabels (callee : String) (params : List String) (labeled : List (String × Expr)) :
    Except Fault (List Expr) := do
  match ← matchLabels callee params (.ofList labeled) with
  | (arguments, []) => return arguments
  | (_, (label, _) :: _) => throw (.unknownLabel callee label)

def labeledCall (scope : ScopeId) (callee : String) (labeled : List (String × Expr)) :
    Eval Value := do
  let function ← ofExcept ((← get).functions.find callee)
  let arguments ← ofExcept (arrangeLabels callee function.params labeled)
  let values ← all sub scope arguments
  invoke conditions depth sub scope function values

def step (scope : ScopeId) : Expr → Eval Value
  | .missing => fail .missingExpression
  | .int n _ => return .int n
  | .bool b _ => return .bool b
  | .text content _ => return .text content
  | .sequence items _ => return .sequence (← all sub scope items)
  | .set items _ => return .ofSet (← all sub scope items)
  | .mapping items _ => return .ofMapping (← entries sub scope items)
  | .function params id body position _ =>
    return .function params { id, elements := body, position }
  | .identifier name _ => do
    match (← get).scopes.lookup? scope name with
    | some value => return value
    | none => fail (.undeclared name)
  | .update op _ operand _ => update sub op scope operand
  | .binary op lhs rhs _ => do
    let left ← sub scope lhs
    let right ← sub scope rhs
    ofExcept (op.apply left right)
  | .declare name mutable value _ => do
    let result ← sub scope value
    declare scope name result mutable
    return result
  | .assign name value _ => do
    let result ← sub scope value
    assign scope name result
    return result
  | .println argument _ => do
    let result ← sub scope argument
    print conditions result.display
    return result
  | .branch test consequent alternative _ => do
    if ← condition sub "if" scope test then sub scope consequent
    else match alternative with
      | some expr => sub scope expr
      | none => return .bool true
  | .loop test body _ => repeatWhile sub scope test body conditions.rounds
  | .block elements _ => last sub scope (.int 0) elements
  | .call callee arguments _ => call conditions depth sub scope callee arguments
  | .labeledCall callee arguments _ => labeledCall conditions depth sub scope callee arguments

end

def stackStride : Nat := 4096

/-- Runs a computation, on a stack of its own at every so many levels of depth. -/
def onStackOf {α : Type} (room : Nat) (computation : Eval α) : Eval α := fun world =>
  if room ≠ 0 ∧ room % stackStride = 0 then onFreshStack fun _ => computation world
  else computation world

@[simp] theorem onStackOf_eq {α : Type} (room : Nat) (computation : Eval α) :
    onStackOf room computation = computation := by
  funext world
  simp [onStackOf]

/-- Evaluates an expression when `room` levels of depth are left. -/
def withRoom (conditions : Conditions) : Nat → ScopeId → Expr → Eval Value
  | _, _, .missing => fail .missingExpression
  | 0, _, _ => fail (.tooDeep conditions.maxDepth)
  | room + 1, scope, expr => onStackOf room do
    trace conditions expr
    step conditions (conditions.maxDepth - room) (withRoom conditions room) scope expr

def evaluate (conditions : Conditions) (scope : ScopeId) (expr : Expr) : Eval Value :=
  withRoom conditions conditions.maxDepth scope expr

def define (conditions : Conditions) : Definition → Eval Value
  | .function function => do
    modify fun world => { world with functions := world.functions.define function }
    return .function function.params function.body
  | .value definition => do
    let value ← evaluate conditions Scopes.rootId definition.value
    declare Scopes.rootId definition.name value definition.mutable
    return value
  | .missing => fail .missingDefinition

def defineAll (conditions : Conditions) : List Definition → Eval Unit
  | [] => return
  | definition :: rest => do
    discard <| define conditions definition
    defineAll conditions rest

def runProgram (conditions : Conditions) : Option Program → Eval Value
  | none => fail .noProgram
  | some program => do
    defineAll conditions program.definitions
    match NameMap.get? (← get).functions entryPoint with
    | some function => evaluate conditions Scopes.rootId function.body.block
    | none => fail .noEntryPoint

end Eval

end Koy
