import Koy.Proofs.Composition

/-! The bounds on an evaluation, on its depth and on the rounds of its loops. They decide whether an
evaluation is stopped, and nothing else: under larger bounds what was not stopped comes to the same
outcome and leaves the same world. -/

namespace Koy

/-- The bounds of the conditions are at most these. Where one is less, the halts that come of it are
of the kind. -/
structure Conditions.Tighter (kind : Halt → Prop) (conditions : Conditions) (limit rounds : Nat) :
    Prop where
  deeper : conditions.maxDepth ≤ limit
  overflow : conditions.maxDepth = limit ∨ ∀ depth, kind (.fault (.tooDeep depth))
  longer : conditions.rounds ≤ rounds
  unfinished : conditions.rounds = rounds ∨ kind .unfinished

namespace Eval

variable {α β : Type}

def Halts (kind : Halt → Prop) : EStateM.Result Halt World α → Prop
  | .error halt _ => kind halt
  | .ok _ _ => False

/-- Wherever the first computation does not come to a halt of the kind, the second does the same. -/
def Extends (kind : Halt → Prop) (first second : Eval α) : Prop :=
  ∀ world, ¬ Halts kind (first world) → second world = first world

namespace Extends

variable {kind : Halt → Prop}

theorem refl (computation : Eval α) : Extends kind computation computation :=
  fun _ _ => rfl

theorem halted {halt : Halt} (exempted : kind halt) (second : Eval α) :
    Extends kind (throw halt) second :=
  fun _ calm => absurd exempted calm

theorem bind {first second : Eval α} {next next' : α → Eval β} (start : Extends kind first second)
    (rest : ∀ value, Extends kind (next value) (next' value)) :
    Extends kind (first >>= next) (second >>= next') := by
  intro world calm
  cases outcome : first world with
  | error halt final =>
      rw [bind_error next outcome] at calm ⊢
      have same : second world = first world := start world (by rw [outcome]; exact calm)
      exact bind_error next' (same.trans outcome)
  | ok value middle =>
      have same : second world = first world := start world (by rw [outcome]; exact id)
      rw [bind_ok next outcome] at calm ⊢
      rw [bind_ok next' (same.trans outcome)]
      exact rest value middle calm

theorem compositional : Compositional fun _ => Extends kind where
  pure _ := refl _
  halt _ := refl _
  bind := bind

theorem after {first : Eval α} {next next' : α → Eval β}
    (rest : ∀ value, Extends kind (next value) (next' value)) :
    Extends kind (first >>= next) (first >>= next') :=
  (refl first).bind rest

theorem ite {condition : Prop} [Decidable condition] {first first' second second' : Eval α}
    (holds : Extends kind first second) (fails : Extends kind first' second') :
    Extends kind (if condition then first else first') (if condition then second else second') := by
  split
  · exact holds
  · exact fails

end Extends

section Forms

variable {kind : Halt → Prop} {conditions : Conditions} {sub sub' : ScopeId → Expr → Eval Value}
  (inner : ∀ scope expr, Extends kind (sub scope expr) (sub' scope expr)) (scope : ScopeId)

include inner

theorem body_extends (function : FunctionDef) :
    Extends kind
      (fun world => match sub scope function.body.block world with
        | .ok value world => .ok value (closeScope conditions function.name false world)
        | .error halt world => .error halt (closeScope conditions function.name true world))
      (fun world => match sub' scope function.body.block world with
        | .ok value world => .ok value (closeScope conditions function.name false world)
        | .error halt world => .error halt (closeScope conditions function.name true world)) := by
  intro world calm
  have same : sub' scope function.body.block world = sub scope function.body.block world := by
    apply inner scope function.body.block world
    intro halted
    apply calm
    dsimp only
    cases outcome : sub scope function.body.block world with
    | ok value final =>
        rw [outcome] at halted
        exact halted
    | error halt final =>
        rw [outcome] at halted
        exact halted
  simp only [same]

theorem invoke_extends (depth : Nat) (function : FunctionDef) (arguments : List Value) :
    Extends kind (invoke conditions depth sub scope function arguments)
      (invoke conditions depth sub' scope function arguments) := by
  apply Extends.after
  intro callee
  apply Extends.after
  intro _
  have body := @body_extends kind conditions sub sub' inner callee function
  exact .ite (.after fun _ => .after fun _ => body) body

/-- Beside the rounds of a loop, no rule for one expression reads the bounds. -/
theorem extends_lifted {limit rounds : Nat} (tighter : conditions.Tighter kind limit rounds)
    (depth : Nat) :
    Lifted conditions { conditions with maxDepth := limit, rounds } depth depth sub sub' scope
      fun _ => Extends kind where
  toCompositional := Extends.compositional
  part := inner scope
  lookup _ _ := .refl _
  find _ := .refl _
  declare _ _ _ := .refl _
  assign _ _ := .refl _
  print _ := .refl _
  invoke := invoke_extends inner scope depth
  rounds := tighter.longer
  unfinished := tighter.unfinished.imp_right .halted

end Forms

section Runs

variable {kind : Halt → Prop} {conditions : Conditions} {limit rounds : Nat}
  (tighter : conditions.Tighter kind limit rounds)

include tighter

theorem evaluate_extends (scope : ScopeId) (expr : Expr) :
    Extends kind (evaluate conditions scope expr)
      (evaluate { conditions with maxDepth := limit, rounds } scope expr) := by
  obtain ⟨extra, rfl⟩ := Nat.exists_eq_add_of_le tighter.deeper
  let larger : Conditions :=
    { conditions with maxDepth := conditions.maxDepth + extra, rounds }
  have exhausted (scope : ScopeId) (expr : Expr) (present : expr ≠ .missing) :
      Extends kind (fail (.tooDeep conditions.maxDepth)) (withRoom larger extra scope expr) := by
    rcases tighter.overflow with same | exempted
    · obtain rfl : extra = 0 := by omega
      rw [withRoom.eq_2 _ _ _ present]
      exact .refl _
    · exact .halted (exempted _) _
  refine @withRoom_lifts conditions larger extra (fun _ _ => Extends kind)
    (fun _ => Extends.compositional) (fun _ _ => .refl _) exhausted ?_ conditions.maxDepth scope expr
  intro room inner scope
  have same : larger.maxDepth - (room + extra) = conditions.maxDepth - room :=
    Nat.add_sub_add_right conditions.maxDepth extra room
  rw [same]
  exact extends_lifted inner scope tighter _

theorem runProgram_extends (program : Option Program) :
    Extends kind (runProgram conditions program)
      (runProgram { conditions with maxDepth := limit, rounds } program) := by
  have lifted : LiftedRun conditions { conditions with maxDepth := limit, rounds }
      fun _ => Extends kind := {
    toCompositional := Extends.compositional
    evaluate := evaluate_extends tighter Scopes.rootId
    declare := fun _ _ _ => .refl _
    register := fun _ => .refl _
    main := .refl _ }
  exact lifted.runProgram program

end Runs

/-- With more rounds for its loops an evaluation, or a run of a program, that is not given up has the
same outcome: the same value or halt, and the same scopes, functions and journal in the world that it
leaves. -/
theorem more_rounds_keep_outcome (conditions : Conditions) (rounds : Nat)
    (more : conditions.rounds ≤ rounds) (world : World) :
    (∀ scope expr, ¬ Halts (· = .unfinished) (evaluate conditions scope expr world) →
      evaluate { conditions with rounds } scope expr world =
        evaluate conditions scope expr world) ∧
    (∀ program, ¬ Halts (· = .unfinished) (runProgram conditions program world) →
      runProgram { conditions with rounds } program world = runProgram conditions program world) := by
  have tighter : conditions.Tighter (· = .unfinished) conditions.maxDepth rounds :=
    ⟨Nat.le_refl _, .inl rfl, more, .inr rfl⟩
  constructor
  · intro scope expr calm
    exact evaluate_extends tighter scope expr world calm
  · intro program calm
    exact runProgram_extends tighter program world calm

example : let loop : Expr := .loop (.bool false {}) (.int 1 {}) {}
    Halts (· = .unfinished) (evaluate { maxDepth := 2, rounds := 0 } Scopes.rootId loop {}) ∧
      evaluate { maxDepth := 2, rounds := 1 } Scopes.rootId loop {} = .ok (.bool true) {} :=
  ⟨rfl, rfl⟩

end Eval

end Koy
