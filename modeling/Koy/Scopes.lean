import Koy.Fault

/-! Variable scopes. Each scope holds bindings of its own and knows its enclosing scopes, nearest
first; a name means its binding in the nearest scope that has one. -/

namespace Koy

structure Binding where
  value : Value
  mutable : Bool := false
  deriving Repr, Inhabited

/-- A scope is known by its place among all scopes. -/
abbrev ScopeId := Nat

structure Scope where
  /-- The enclosing scopes, nearest first. -/
  ancestors : List ScopeId := []
  bindings : NameMap Binding := []
  deriving Repr, Inhabited

structure Scopes where
  all : Array Scope := #[]
  deriving Repr, Inhabited

namespace Scopes

def rootId : ScopeId := 0

def initial : Scopes := ⟨#[{}]⟩

def ancestors (scopes : Scopes) (id : ScopeId) : List ScopeId :=
  match scopes.all[id]? with
  | some scope => scope.ancestors
  | none => []

def chain (scopes : Scopes) (id : ScopeId) : List ScopeId :=
  id :: scopes.ancestors id

def parent? (scopes : Scopes) (id : ScopeId) : Option ScopeId :=
  (scopes.ancestors id).head?

def depth (scopes : Scopes) (id : ScopeId) : Nat :=
  (scopes.ancestors id).length

def bindings (scopes : Scopes) (id : ScopeId) : NameMap Binding :=
  match scopes.all[id]? with
  | some scope => scope.bindings
  | none => []

/-- The nearest scope, from the given one outward, that binds a name. -/
def owner? (scopes : Scopes) (id : ScopeId) (name : String) : Option ScopeId :=
  (scopes.chain id).find? fun scope => (scopes.bindings scope).contains name

def binding? (scopes : Scopes) (id : ScopeId) (name : String) : Option Binding := do
  let owner ← scopes.owner? id name
  (scopes.bindings owner).get? name

def lookup? (scopes : Scopes) (id : ScopeId) (name : String) : Option Value :=
  (scopes.binding? id name).map Binding.value

def bind (scopes : Scopes) (id : ScopeId) (name : String) (binding : Binding) : Scopes :=
  ⟨scopes.all.modify id fun scope =>
    { scope with bindings := scope.bindings.insert name binding }⟩

def assign (scopes : Scopes) (id : ScopeId) (name : String) (value : Value) :
    Except Fault Scopes :=
  match scopes.owner? id name with
  | none => .error (.undeclared name)
  | some owner =>
    match (scopes.bindings owner).get? name with
    | none => .error (.undeclared name)
    | some binding =>
      if binding.mutable then .ok (scopes.bind owner name { binding with value })
      else .error (.immutable name)

def nextId (scopes : Scopes) : ScopeId :=
  scopes.all.size

def push (scopes : Scopes) (parent : Option ScopeId) : Scopes :=
  let ancestors := match parent with
    | some id => scopes.chain id
    | none => []
  ⟨scopes.all.push { ancestors }⟩

def pop (scopes : Scopes) : Scopes :=
  ⟨scopes.all.pop⟩

end Scopes

end Koy
