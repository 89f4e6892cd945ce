import Koy.Grammar
import Koy.Loading
import Koy.Settings

/-! Sessions: a world, the conditions under which it is used, and the source text that is fed to
it. -/

namespace Koy

inductive Failure where
  | malformed (source : String) (error : SyntaxError)
  | halted (halt : Halt)
  | other (text : String)
  deriving Repr

namespace Halt

def message : Halt → String
  | .fault cause => cause.message
  | .unwritable reason => "println: " ++ reason
  | .unfinished => "loop not finished"

end Halt

namespace Failure

def message : Failure → String
  | .malformed source error => error.message source
  | .halted halt => halt.message
  | .other text => text

end Failure

def unnamedSource : String := "input"

structure Session where
  conditions : Conditions
  world : World := {}
  /-- The number of the next function body that is loaded. -/
  bodies : Nat := 0

namespace Session

def new (settings : Settings) (unwritable : Option String) : Session :=
  { conditions := settings.conditions unwritable }

def run {α : Type} (session : Session) (computation : Eval α) : Except Failure α × Session :=
  match computation.run session.world with
  | .ok result world => (.ok result, { session with world })
  | .error halt world => (.error (.halted halt), { session with world })

def load {α : Type} (session : Session) (tree : Loading α) : α × Session :=
  let (loaded, bodies) := tree.run session.bodies
  (loaded, { session with bodies })

theorem load_eq {α : Type} (session : Session) (tree : Loading α) :
    session.load tree =
      ((tree session.bodies).1, { session with bodies := (tree session.bodies).2 }) := rfl

def evalIn (session : Session) (scope : ScopeId) (expr : Expr) : Except Failure Value × Session :=
  let (loaded, session) := session.load (Loading.expr expr)
  session.run (Eval.evaluate session.conditions scope loaded)

def eval (session : Session) (expr : Expr) : Except Failure Value × Session :=
  session.evalIn Scopes.rootId expr

def define (session : Session) (definition : Definition) : Except Failure Value × Session :=
  let (loaded, session) := session.load (Loading.definition definition)
  session.run (Eval.define session.conditions loaded)

def runProgram (session : Session) : Option Program → Except Failure Value × Session
  | none => session.run (Eval.runProgram session.conditions none)
  | some program =>
    let (loaded, session) := session.load (Loading.program program)
    session.run (Eval.runProgram session.conditions (some loaded))

def runSource (session : Session) (name : String) (source : Bytes) :
    Except Failure Value × Session :=
  match Program.parse source with
  | .ok program => session.runProgram (some program)
  | .error error => (.error (.malformed name error), session)

def enterOne (conditions : Conditions) : Entry → Eval Value
  | .function defined => Eval.define conditions (.function defined)
  | .expression expr => Eval.evaluate conditions Scopes.rootId expr

def enterAll (session : Session) : List Entry → List Value × Option Failure × Session
  | [] => ([], none, session)
  | entry :: rest =>
    match session.run (enterOne session.conditions entry) with
    | (.ok value, session) =>
      let (values, failure, session) := enterAll session rest
      (value :: values, failure, session)
    | (.error failure, session) => ([], some failure, session)

/-- Reads interactive input and takes in its entries. The values before a failure are kept. -/
def enter (session : Session) (source : Bytes) : List Value × Option Failure × Session :=
  match Entry.parseAll source with
  | .ok entries =>
    let (loaded, session) := session.load (entries.mapM Loading.entry)
    session.enterAll loaded
  | .error error => ([], some (.malformed unnamedSource error), session)

def evalSource (session : Session) (scope : ScopeId) (source : Bytes) :
    Except Failure Value × Session :=
  match Expr.parse source with
  | .ok expr => session.evalIn scope expr
  | .error error => (.error (.malformed unnamedSource error), session)

def openScope (session : Session) (parent : Option ScopeId) : ScopeId × Session :=
  (session.world.scopes.nextId,
    { session with world := { session.world with scopes := session.world.scopes.push parent } })

def declare (session : Session) (scope : ScopeId) (name : String) (binding : Binding) : Session :=
  { session with
    world := { session.world with scopes := session.world.scopes.bind scope name binding } }

def assign (session : Session) (scope : ScopeId) (name : String) (value : Value) :
    Except Failure Unit × Session :=
  session.run (Eval.assign scope name value)

def snapshot (session : Session) (scope : ScopeId) : List (String × Value) :=
  (session.world.scopes.bindings scope).map fun entry => (entry.1, entry.2.value)

def clearJournal (session : Session) : Session :=
  { session with world := { session.world with journal := #[] } }

end Session

end Koy
