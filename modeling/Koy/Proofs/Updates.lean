import Koy.Proofs.Invocation

/-! An update of a variable and the assignment that it abbreviates. The update narrows the value and
changes it by itself, the assignment goes through an operator, but both make their checks in one
order. -/

namespace Koy

def UpdateOp.sign : UpdateOp → BinaryOp
  | .increment => .add
  | .decrement => .subtract

namespace UpdateOp

theorem sign_apply_int (op : UpdateOp) (n : Int64) :
    op.sign.apply (.int n) (.int 1) = .ok (.int (op.apply n)) := by
  cases op <;> rfl

/-- No type but that of the integers has an operator with an integer on its right, so that a value
is refused on either way or on none. -/
theorem sign_apply_of_not_int (op : UpdateOp) (value : Value) (other : ∀ n, value ≠ .int n) :
    op.sign.apply value (.int 1) = .error (.operands op.sign value (.int 1)) := by
  cases value with
  | int n => exact absurd rfl (other n)
  | _ => cases op <;> rfl

end UpdateOp

namespace Eval

/-- Two outcomes with one value, or with faults of one kind, in the same world. -/
inductive EndsAlike {α : Type} :
    EStateM.Result Halt World α → EStateM.Result Halt World α → Prop where
  | value (value : α) (final : World) : EndsAlike (.ok value final) (.ok value final)
  | fault {cause cause' : Fault} (kind : cause.kind = cause'.kind) (final : World) :
      EndsAlike (.error (.fault cause) final) (.error (.fault cause') final)

theorem step_identifier (conditions : Conditions) (depth : Nat) (sub : ScopeId → Expr → Eval Value)
    (scope : ScopeId) (name : String) (position : Position) (world : World) :
    step conditions depth sub scope (.identifier name position) world =
      match world.scopes.lookup? scope name with
      | some value => .ok value world
      | none => .error (.fault (.undeclared name)) world := by
  have looked : step conditions depth sub scope (.identifier name position) world =
      (match world.scopes.lookup? scope name with
        | some value => pure value
        | none => fail (.undeclared name) : Eval Value) world := rfl
  rw [looked]
  cases world.scopes.lookup? scope name <;> rfl

def store (scope : ScopeId) (name : String) (value : Value) : Eval Value := do
  assign scope name value
  return value

theorem store_endsAlike (scope : ScopeId) (name : String) (value : Value) (world : World) :
    EndsAlike (store scope name value world) (store scope name value world) := by
  obtain ⟨fault, -, failed⟩ | ⟨owner, -, binding, -, -, assigned⟩ :=
    assign_cases scope name value world
  · have outcome : store scope name value world = .error (.fault fault) world :=
      bind_error _ failed
    rw [outcome]
    exact .fault rfl world
  · rw [store, bind_ok _ assigned]
    exact .value value _

section Forms

variable {conditions : Conditions} {depth : Nat} {sub : ScopeId → Expr → Eval Value}
  {scope : ScopeId} {world middle : World} (op : UpdateOp) {name : String} {position : Position}

theorem update_of_int {n : Int64}
    (read : sub scope (.identifier name position) world = .ok (.int n) middle) :
    update sub op scope (.identifier name position) world =
      store scope name (.int (op.apply n)) middle := by
  rw [update, bind_ok _ read]
  rfl

theorem update_of_not_int {value : Value} (other : ∀ n, value ≠ .int n)
    (read : sub scope (.identifier name position) world = .ok value middle) :
    update sub op scope (.identifier name position) world =
      .error (.fault (.notAnInt op name value)) middle := by
  rw [update, bind_ok _ read]
  cases value with
  | int n => exact absurd rfl (other n)
  | _ => rfl

theorem update_of_error {halt : Halt}
    (read : sub scope (.identifier name position) world = .error halt middle) :
    update sub op scope (.identifier name position) world = .error halt middle := by
  rw [update, bind_error _ read]

theorem step_binary_of_error {binary : BinaryOp} {lhs rhs : Expr} {halt : Halt}
    (failed : sub scope lhs world = .error halt middle) (sign : Position) :
    step conditions depth sub scope (.binary binary lhs rhs sign) world = .error halt middle := by
  rw [step, bind_error _ failed]

theorem step_binary_of_ok {binary : BinaryOp} {lhs rhs : Expr} {left right : Value}
    {final : World} (first : sub scope lhs world = .ok left middle)
    (second : sub scope rhs middle = .ok right final) (sign : Position) :
    step conditions depth sub scope (.binary binary lhs rhs sign) world =
      ofExcept (binary.apply left right) final := by
  rw [step, bind_ok _ first, bind_ok _ second]

theorem step_assign_of_ok {source : Expr} {value : Value}
    (computed : sub scope source world = .ok value middle) :
    step conditions depth sub scope (.assign name source position) world =
      store scope name value middle := by
  rw [step, bind_ok _ computed]
  rfl

theorem step_assign_of_error {source : Expr} {halt : Halt}
    (failed : sub scope source world = .error halt middle) :
    step conditions depth sub scope (.assign name source position) world = .error halt middle := by
  rw [step, bind_error _ failed]

end Forms

section Quiet

variable {conditions : Conditions} (quiet : conditions.traced = false)
include quiet

theorem withRoom_identifier (room : Nat) (scope : ScopeId) (name : String) (position : Position)
    (world : World) :
    withRoom conditions (room + 1) scope (.identifier name position) world =
      match world.scopes.lookup? scope name with
      | some value => .ok value world
      | none => .error (.fault (.undeclared name)) world := by
  rw [withRoom_quiet quiet room scope (.identifier name position) nofun, step_identifier]

theorem withRoom_sum (room : Nat) (op : UpdateOp) (scope : ScopeId) (name : String)
    (read one sum : Position) (world : World) :
    withRoom conditions (room + 2) scope
      (.binary op.sign (.identifier name read) (.int 1 one) sum) world =
      match world.scopes.lookup? scope name with
      | some value => ofExcept (op.sign.apply value (.int 1)) world
      | none => .error (.fault (.undeclared name)) world := by
  have literal : withRoom conditions (room + 1) scope (.int 1 one) world = .ok (.int 1) world := by
    rw [withRoom_quiet quiet room scope (.int 1 one) nofun]
    rfl
  have operand := withRoom_identifier quiet room scope name read world
  rw [withRoom_quiet quiet (room + 1) scope (.binary ..) nofun]
  cases found : world.scopes.lookup? scope name with
  | none =>
      rw [found] at operand
      exact step_binary_of_error operand sum
  | some value =>
      rw [found] at operand
      exact step_binary_of_ok operand literal sum

end Quiet

/-- An increment or decrement of a variable, before or after it, ends as the assignment of the sum
or difference does: with the same value, or with a fault of the same kind, and in the same world,
that is with the same scopes, functions and journal. The variable may be bound to anything, in any
scope, or not be bound. Three levels of depth are needed, since the assignment reads the variable
two levels inside, and no trace may be written, since it would tell the forms apart. -/
theorem update_endsAlike_assignment (conditions : Conditions) (quiet : conditions.traced = false)
    (depth : Nat) (room : depth + 2 < conditions.maxDepth) (op : UpdateOp) (before : Bool)
    (scope : ScopeId) (name : String) (operand update read one sum target : Position)
    (world : World) :
    EndsAlike
      (withRoom conditions (conditions.maxDepth - depth) scope
        (.update op before (.identifier name operand) update) world)
      (withRoom conditions (conditions.maxDepth - depth) scope
        (.assign name (.binary op.sign (.identifier name read) (.int 1 one) sum) target)
        world) := by
  obtain ⟨left, levels⟩ : ∃ left, conditions.maxDepth - depth = left + 3 :=
    ⟨conditions.maxDepth - depth - 3, by omega⟩
  have direct := withRoom_identifier quiet (left + 1) scope name operand world
  have computed := withRoom_sum quiet left op scope name read one sum world
  rw [levels, withRoom_quiet quiet (left + 2) scope (.update ..) nofun,
    withRoom_quiet quiet (left + 2) scope (.assign ..) nofun, step]
  cases found : world.scopes.lookup? scope name with
  | none =>
      rw [found] at direct computed
      rw [update_of_error op direct, step_assign_of_error computed]
      exact .fault rfl world
  | some value =>
      rw [found] at direct computed
      dsimp only at computed
      by_cases whole : ∃ n, value = .int n
      · obtain ⟨n, rfl⟩ := whole
        rw [op.sign_apply_int] at computed
        rw [update_of_int op direct, step_assign_of_ok computed]
        exact store_endsAlike scope name _ world
      · have other : ∀ n, value ≠ .int n := fun n same => whole ⟨n, same⟩
        rw [op.sign_apply_of_not_int value other] at computed
        rw [update_of_not_int op other direct, step_assign_of_error computed]
        have kind : (Fault.notAnInt op name value).kind =
            (Fault.operands op.sign value (.int 1)).kind := rfl
        exact .fault kind world

def largestSample : World where
  scopes := (Scopes.initial.push (some Scopes.rootId)).bind Scopes.rootId "n"
    { value := .int 9223372036854775807, mutable := true }

theorem update_endsAlike_assignment_sample :
    ({ maxDepth := 3 } : Conditions).traced = false ∧
    0 + 2 < ({ maxDepth := 3 } : Conditions).maxDepth ∧
    EndsAlike
      (withRoom { maxDepth := 3 } 3 1 (.update .increment false (.identifier "n" {}) {})
        largestSample)
      (withRoom { maxDepth := 3 } 3 1
        (.assign "n" (.binary .add (.identifier "n" {}) (.int 1 {}) {}) {}) largestSample) ∧
    (after (withRoom { maxDepth := 3 } 3 1 (.update .increment false (.identifier "n" {}) {}))
      largestSample).scopes.lookup? Scopes.rootId "n" matches some (.int (-9223372036854775808)) :=
  ⟨rfl, by decide,
    update_endsAlike_assignment { maxDepth := 3 } rfl 0 (by decide) .increment false 1 "n" {} {} {}
      {} {} {} largestSample,
    by decide +kernel⟩

end Eval

end Koy
