import Koy.Proofs.Effects

/-! What goes from parts to wholes. A relation between computations that is kept when computations
follow one another, and that holds between everything that two evaluations do to the world, holds
between the evaluations; so does a property of computations hold of every evaluation. -/

namespace Koy.Eval

/-- A relation in which each value and each halt stands to itself, and in which two sequences of
computations stand if their parts do. -/
structure Compositional (relates : (α : Type) → Eval α → Eval α → Prop) : Prop where
  pure {α : Type} (value : α) : relates α (pure value) (pure value)
  halt {α : Type} (reason : Halt) : relates α (throw reason) (throw reason)
  bind {α β : Type} {first first' : Eval α} {next next' : α → Eval β}
    (start : relates α first first') (rest : ∀ value, relates β (next value) (next' value)) :
    relates β (first >>= next) (first' >>= next')

/-- Such a relation holds between the two evaluations of each part in a scope, and between each thing
besides that two evaluations there do with the world. The second may have more rounds for its loops if
nothing is asked of it once the first has run out of rounds. -/
structure Lifted (conditions conditions' : Conditions) (depth depth' : Nat)
    (sub sub' : ScopeId → Expr → Eval Value) (scope : ScopeId)
    (relates : (α : Type) → Eval α → Eval α → Prop) : Prop extends Compositional relates where
  part (expr : Expr) : relates Value (sub scope expr) (sub' scope expr)
  lookup (name : String) (position : Position) :
    relates Value (step conditions depth sub scope (.identifier name position))
      (step conditions' depth' sub' scope (.identifier name position))
  find (callee : String) :
    relates FunctionDef (do ofExcept ((← get).functions.find callee))
      (do ofExcept ((← get).functions.find callee))
  declare (name : String) (value : Value) (mutable : Bool) :
    relates Unit (declare scope name value mutable) (declare scope name value mutable)
  assign (name : String) (value : Value) :
    relates Unit (assign scope name value) (assign scope name value)
  print (line : Bytes) : relates Unit (print conditions line) (print conditions' line)
  invoke (function : FunctionDef) (arguments : List Value) :
    relates Value (invoke conditions depth sub scope function arguments)
      (invoke conditions' depth' sub' scope function arguments)
  rounds : conditions.rounds ≤ conditions'.rounds
  unfinished : conditions.rounds = conditions'.rounds ∨
    ∀ second, relates Value (throw .unfinished) second

structure LiftedRun (conditions conditions' : Conditions)
    (relates : (α : Type) → Eval α → Eval α → Prop) : Prop extends Compositional relates where
  evaluate (expr : Expr) :
    relates Value (evaluate conditions Scopes.rootId expr) (evaluate conditions' Scopes.rootId expr)
  declare (name : String) (value : Value) (mutable : Bool) :
    relates Unit (declare Scopes.rootId name value mutable)
      (declare Scopes.rootId name value mutable)
  register (function : FunctionDef) :
    relates Unit (modify fun world => { world with functions := world.functions.define function })
      (modify fun world => { world with functions := world.functions.define function })
  main : relates (Option FunctionDef) (do return NameMap.get? (← get).functions entryPoint)
    (do return NameMap.get? (← get).functions entryPoint)

variable {α β : Type} {relates : (α : Type) → Eval α → Eval α → Prop}

namespace Compositional

variable (compositional : Compositional relates)

include compositional

theorem fail (fault : Fault) : relates α (fail fault) (fail fault) :=
  compositional.halt (.fault fault)

theorem ofExcept (result : Except Fault α) : relates α (ofExcept result) (ofExcept result) := by
  cases result with
  | ok value => exact compositional.pure value
  | error fault => exact compositional.fail fault

end Compositional

namespace Lifted

variable {conditions conditions' : Conditions} {depth depth' : Nat}
  {sub sub' : ScopeId → Expr → Eval Value} {scope : ScopeId}
  (lifted : Lifted conditions conditions' depth depth' sub sub' scope relates)

include lifted

theorem all (exprs : List Expr) :
    relates (List Value) (all sub scope exprs) (all sub' scope exprs) := by
  induction exprs with
  | nil => exact lifted.pure []
  | cons expr rest ih =>
      apply lifted.bind (lifted.part expr)
      intro value
      exact lifted.bind ih fun values => lifted.pure (value :: values)

theorem entries (exprs : List (String × Expr)) :
    relates (List (String × Value)) (entries sub scope exprs) (entries sub' scope exprs) := by
  induction exprs with
  | nil => exact lifted.pure []
  | cons entry rest ih =>
      apply lifted.bind (lifted.part entry.2)
      intro value
      exact lifted.bind ih fun values => lifted.pure ((entry.1, value) :: values)

theorem last (result : Value) (exprs : List Expr) :
    relates Value (last sub scope result exprs) (last sub' scope result exprs) := by
  induction exprs generalizing result with
  | nil => exact lifted.pure result
  | cons expr rest ih => exact lifted.bind (lifted.part expr) ih

theorem condition (form : String) (expr : Expr) :
    relates Bool (condition sub form scope expr) (condition sub' form scope expr) := by
  apply lifted.bind (lifted.part expr)
  intro value
  cases value with
  | bool b => exact lifted.pure b
  | _ => exact lifted.fail _

theorem repeatWhile (test body : Expr) {rounds rounds' : Nat} (fewer : rounds ≤ rounds')
    (spent : rounds = rounds' ∨ ∀ second, relates Value (throw .unfinished) second) :
    relates Value (repeatWhile sub scope test body rounds)
      (repeatWhile sub' scope test body rounds') := by
  induction rounds generalizing rounds' with
  | zero =>
      rcases spent with rfl | exempted
      · exact lifted.halt .unfinished
      · exact exempted _
  | succ rounds ih =>
      cases rounds' with
      | zero => exact absurd fewer (Nat.not_succ_le_zero rounds)
      | succ rounds' =>
          apply lifted.bind (lifted.condition "while" test)
          intro again
          split
          · rw [discard_bind, discard_bind]
            apply lifted.bind (lifted.part body)
            intro _
            exact ih (Nat.le_of_succ_le_succ fewer) (spent.imp_left Nat.succ.inj)
          · exact lifted.pure _

theorem update (op : UpdateOp) (operand : Expr) :
    relates Value (update sub op scope operand) (update sub' op scope operand) := by
  cases operand with
  | identifier name =>
      apply lifted.bind (lifted.part _)
      intro value
      cases value with
      | int n => exact lifted.bind (lifted.assign name _) fun _ => lifted.pure _
      | _ => exact lifted.fail _
  | _ => exact lifted.fail _

theorem apply (function : FunctionDef) (arguments : List Expr) :
    relates Value (Eval.all sub scope arguments >>= Eval.invoke conditions depth sub scope function)
      (Eval.all sub' scope arguments >>= Eval.invoke conditions' depth' sub' scope function) :=
  lifted.bind (lifted.all arguments) (lifted.invoke function)

theorem call (callee : String) (arguments : List Expr) :
    relates Value (call conditions depth sub scope callee arguments)
      (call conditions' depth' sub' scope callee arguments) := by
  unfold Eval.call
  rw [← bind_assoc, ← bind_assoc]
  apply lifted.bind (lifted.find callee)
  intro function
  have applied := lifted.apply function arguments
  split
  · exact lifted.bind (lifted.fail _) fun _ => applied
  · exact applied

theorem labeledCall (callee : String) (labeled : List (String × Expr)) :
    relates Value (labeledCall conditions depth sub scope callee labeled)
      (labeledCall conditions' depth' sub' scope callee labeled) := by
  unfold Eval.labeledCall
  rw [← bind_assoc, ← bind_assoc]
  apply lifted.bind (lifted.find callee)
  intro function
  exact lifted.bind (lifted.ofExcept _) (lifted.apply function)

theorem step (expr : Expr) :
    relates Value (step conditions depth sub scope expr)
      (step conditions' depth' sub' scope expr) := by
  cases expr with
  | missing => exact lifted.fail _
  | int | bool | text | function => exact lifted.pure _
  | sequence items => exact lifted.bind (lifted.all items) fun values => lifted.pure _
  | set items => exact lifted.bind (lifted.all items) fun values => lifted.pure _
  | mapping items => exact lifted.bind (lifted.entries items) fun values => lifted.pure _
  | identifier name position => exact lifted.lookup name position
  | update op before operand => exact lifted.update op operand
  | binary op lhs rhs =>
      apply lifted.bind (lifted.part lhs)
      intro left
      exact lifted.bind (lifted.part rhs) fun right => lifted.ofExcept _
  | declare name mutable value =>
      apply lifted.bind (lifted.part value)
      intro result
      exact lifted.bind (lifted.declare name result mutable) fun _ => lifted.pure result
  | assign name value =>
      apply lifted.bind (lifted.part value)
      intro result
      exact lifted.bind (lifted.assign name result) fun _ => lifted.pure result
  | println argument =>
      apply lifted.bind (lifted.part argument)
      intro result
      exact lifted.bind (lifted.print result.display) fun _ => lifted.pure result
  | branch test consequent alternative =>
      apply lifted.bind (lifted.condition "if" test)
      intro chosen
      split
      · exact lifted.part consequent
      · cases alternative with
        | none => exact lifted.pure _
        | some other => exact lifted.part other
  | loop test body => exact lifted.repeatWhile test body lifted.rounds lifted.unfinished
  | block elements => exact lifted.last (.int 0) elements
  | call callee arguments => exact lifted.call callee arguments
  | labeledCall callee arguments => exact lifted.labeledCall callee arguments

end Lifted

/-- A relation that is lifted from the evaluations of parts to those of wholes holds between the
evaluations of every expression, the second with some extra room, if it does when the first has no
room left. -/
theorem withRoom_lifts {conditions conditions' : Conditions} {extra : Nat}
    {relates : ScopeId → (α : Type) → Eval α → Eval α → Prop}
    (compositional : ∀ scope, Compositional (relates scope))
    (traces : ∀ scope expr, relates scope Unit (trace conditions expr) (trace conditions' expr))
    (exhausted : ∀ scope expr, expr ≠ .missing →
      relates scope Value (fail (.tooDeep conditions.maxDepth)) (withRoom conditions' extra scope expr))
    (lifts : ∀ room,
      (∀ scope expr, relates scope Value (withRoom conditions room scope expr)
        (withRoom conditions' (room + extra) scope expr)) → ∀ scope,
        Lifted conditions conditions' (conditions.maxDepth - room)
          (conditions'.maxDepth - (room + extra)) (withRoom conditions room)
          (withRoom conditions' (room + extra)) scope (relates scope))
    (room : Nat) (scope : ScopeId) (expr : Expr) :
    relates scope Value (withRoom conditions room scope expr)
      (withRoom conditions' (room + extra) scope expr) := by
  have refused (room room' : Nat) (scope : ScopeId) : relates scope Value
      (withRoom conditions room scope .missing) (withRoom conditions' room' scope .missing) := by
    rw [withRoom, withRoom]
    exact (compositional scope).fail _
  induction room generalizing scope expr with
  | zero =>
      by_cases present : expr = .missing
      · subst present
        exact refused ..
      · rw [withRoom.eq_2 _ _ _ present, Nat.zero_add]
        exact exhausted scope expr present
  | succ room ih =>
      by_cases present : expr = .missing
      · subst present
        exact refused ..
      · rw [Nat.succ_add, withRoom.eq_3 _ _ _ _ present, withRoom.eq_3 _ _ _ _ present, onStackOf_eq,
          onStackOf_eq]
        exact (compositional scope).bind (traces scope expr) fun _ => (lifts room ih scope).step expr

theorem runProgram_some (conditions : Conditions) (program : Program) :
    runProgram conditions (some program) = (do
      defineAll conditions program.definitions
      let main ← (do return NameMap.get? (← get).functions entryPoint)
      main.elim (fail .noEntryPoint) fun function =>
        evaluate conditions Scopes.rootId function.body.block) := by
  unfold runProgram
  apply bind_congr
  intro _
  rw [bind_assoc]
  apply bind_congr
  intro world
  rw [pure_bind]
  cases NameMap.get? world.functions entryPoint with
  | none => rfl
  | some function => rfl

namespace LiftedRun

variable {conditions conditions' : Conditions} (lifted : LiftedRun conditions conditions' relates)

include lifted

theorem define (definition : Definition) :
    relates Value (define conditions definition) (define conditions' definition) := by
  cases definition with
  | function defined => exact lifted.bind (lifted.register defined) fun _ => lifted.pure _
  | value defined =>
      apply lifted.bind (lifted.evaluate defined.value)
      intro value
      exact lifted.bind (lifted.declare defined.name value _) fun _ => lifted.pure value
  | missing => exact lifted.fail _

theorem defineAll (definitions : List Definition) :
    relates Unit (defineAll conditions definitions) (defineAll conditions' definitions) := by
  induction definitions with
  | nil => exact lifted.pure ()
  | cons definition rest ih =>
      unfold Eval.defineAll
      rw [discard_bind, discard_bind]
      exact lifted.bind (lifted.define definition) fun _ => ih

theorem runProgram (program : Option Program) :
    relates Value (runProgram conditions program) (runProgram conditions' program) := by
  cases program with
  | none => exact lifted.fail _
  | some program =>
      rw [runProgram_some, runProgram_some]
      apply lifted.bind (lifted.defineAll program.definitions)
      intro _
      apply lifted.bind lifted.main
      intro main
      cases main with
      | none => exact lifted.fail _
      | some function => exact lifted.evaluate _

end LiftedRun

/-! Properties of one computation. -/

structure Sequential (holds : (α : Type) → Eval α → Prop) : Prop where
  pure {α : Type} (value : α) : holds α (pure value)
  throw {α : Type} (halt : Halt) : holds α (throw halt)
  bind {α β : Type} {first : Eval α} {next : α → Eval β} (start : holds α first)
    (rest : ∀ value, holds β (next value)) : holds β (first >>= next)

/-- Such a property holds of the evaluation of parts in a scope, and of each thing besides that an
evaluation there does with the world. -/
structure Inherited (conditions : Conditions) (depth : Nat) (sub : ScopeId → Expr → Eval Value)
    (scope : ScopeId) (holds : (α : Type) → Eval α → Prop) : Prop extends Sequential holds where
  part (expr : Expr) : holds Value (sub scope expr)
  lookup (name : String) (position : Position) :
    holds Value (step conditions depth sub scope (.identifier name position))
  find (callee : String) : holds FunctionDef (do ofExcept ((← get).functions.find callee))
  declare (name : String) (value : Value) (mutable : Bool) :
    holds Unit (declare scope name value mutable)
  assign (name : String) (value : Value) : holds Unit (assign scope name value)
  print (line : Bytes) : holds Unit (print conditions line)
  invoke (function : FunctionDef) (arguments : List Value) :
    holds Value (invoke conditions depth sub scope function arguments)

variable {holds : (α : Type) → Eval α → Prop}

theorem Sequential.compositional (sequential : Sequential holds) :
    Compositional fun α first _ => holds α first where
  pure := sequential.pure
  halt := sequential.throw
  bind := sequential.bind

theorem Sequential.ofExcept (sequential : Sequential holds) (result : Except Fault α) :
    holds α (ofExcept result) :=
  sequential.compositional.ofExcept result

theorem Inherited.lifted {conditions : Conditions} {depth : Nat}
    {sub : ScopeId → Expr → Eval Value} {scope : ScopeId}
    (inherited : Inherited conditions depth sub scope holds) :
    Lifted conditions conditions depth depth sub sub scope fun α first _ => holds α first where
  toCompositional := inherited.compositional
  part := inherited.part
  lookup := inherited.lookup
  find := inherited.find
  declare := inherited.declare
  assign := inherited.assign
  print := inherited.print
  invoke := inherited.invoke
  rounds := Nat.le_refl _
  unfinished := .inl rfl

theorem withRoom_inherits {conditions : Conditions}
    {holds : ScopeId → (α : Type) → Eval α → Prop}
    (sequential : ∀ scope, Sequential (holds scope))
    (traces : ∀ scope expr, holds scope Unit (trace conditions expr))
    (inherits : ∀ room,
      (∀ scope expr, holds scope Value (withRoom conditions room scope expr)) → ∀ scope,
        Inherited conditions (conditions.maxDepth - room) (withRoom conditions room) scope
          (holds scope))
    (room : Nat) (scope : ScopeId) (expr : Expr) :
    holds scope Value (withRoom conditions room scope expr) :=
  @withRoom_lifts conditions conditions 0 (fun scope α first _ => holds scope α first)
    (fun scope => (sequential scope).compositional) traces
    (fun scope _ _ => (sequential scope).compositional.fail _)
    (fun room inner scope => (inherits room inner scope).lifted) room scope expr

end Koy.Eval
