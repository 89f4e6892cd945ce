import Koy.Proofs.Effects
import Koy.Proofs.Scopes

/-! What an assignment does, and what a call does around the evaluation of the body, each in one
equation. -/

namespace Koy.Eval

theorem assign_cases (scope : ScopeId) (name : String) (value : Value) (world : World) :
    (∃ fault, world.scopes.assign scope name value = .error fault ∧
      assign scope name value world = .error (.fault fault) world) ∨
    ∃ owner ∈ world.scopes.chain scope, ∃ binding,
      (world.scopes.bindings owner).get? name = some binding ∧ binding.mutable = true ∧
      assign scope name value world = .ok ()
        { world with scopes := world.scopes.bind owner name { binding with value } } := by
  have looked : assign scope name value world =
      (ofExcept (world.scopes.assign scope name value) >>= fun scopes =>
        modify fun world => { world with scopes } : Eval Unit) world := rfl
  rw [looked]
  cases assigned : world.scopes.assign scope name value with
  | error fault => exact .inl ⟨fault, rfl, rfl⟩
  | ok scopes =>
      obtain ⟨owner, binding, found, bound, mutable, rfl⟩ :=
        Scopes.assign_eq_ok _ _ _ _ _ assigned
      exact .inr ⟨owner, List.mem_of_find?_eq_some found, binding, bound, mutable, rfl⟩

theorem bindAll_eq_ok (callee : ScopeId) (entries : List (String × Value)) (world : World) :
    bindAll callee entries world = .ok () (after (bindAll callee entries) world) := by
  induction entries generalizing world with
  | nil => rfl
  | cons entry rest ih => exact ih _

/-- The world in which the body of a called function is evaluated: in a new scope, which is the last
one, the parameters are bound. -/
def entered (conditions : Conditions) (depth : Nat) (scope : ScopeId) (function : FunctionDef)
    (arguments : List Value) (world : World) : World :=
  let callee := world.scopes.nextId
  let opened : World := { world with scopes := world.scopes.push (some scope) }
  let bound := after (bindAll callee (function.params.zip arguments)) opened
  if conditions.logged then
    bound.record (.enter function.name depth (bound.scopes.depth callee))
  else bound

theorem closeScope_scopes (conditions : Conditions) (function : String) (failed : Bool)
    (world : World) : (closeScope conditions function failed world).scopes = world.scopes.pop := by
  unfold closeScope
  split <;> rfl

section

variable (conditions : Conditions) (depth : Nat) (scope : ScopeId) (function : FunctionDef)
  (arguments : List Value) (world : World)

theorem invoke_eq_match (sub : ScopeId → Expr → Eval Value) :
    invoke conditions depth sub scope function arguments world =
      match sub world.scopes.nextId function.body.block
        (entered conditions depth scope function arguments world) with
      | .ok value final => .ok value (closeScope conditions function.name false final)
      | .error halt final => .error halt (closeScope conditions function.name true final) := by
  have opened : openScope scope world = .ok world.scopes.nextId
      { world with scopes := world.scopes.push (some scope) } := rfl
  have bound := bindAll_eq_ok world.scopes.nextId (function.params.zip arguments)
    { world with scopes := world.scopes.push (some scope) }
  rw [invoke, bind_ok _ opened, bind_ok _ bound, entered]
  cases logged : conditions.logged with
  | true => rfl
  | false => rfl

theorem entered_scopes :
    (entered conditions depth scope function arguments world).scopes =
      (after (bindAll world.scopes.nextId (function.params.zip arguments))
        { world with scopes := world.scopes.push (some scope) }).scopes := by
  unfold entered
  split <;> rfl

end

end Koy.Eval
