import Koy.Proofs.Bounds

/-! The limit on the depth of evaluation. A larger limit changes nothing but overflows: an evaluation
that does not overflow has the same outcome, and leaves the same world, under every larger limit. -/

namespace Koy

def Halt.isOverflow : Halt → Bool
  | .fault cause => cause.kind = .stackOverflow
  | .unwritable _ | .unfinished => false

namespace Eval

variable {α : Type}

def Overflows : EStateM.Result Halt World α → Prop
  | .error halt _ => halt.isOverflow = true
  | .ok _ _ => False

instance (outcome : EStateM.Result Halt World α) : Decidable (Overflows outcome) :=
  match outcome with
  | .error halt _ => inferInstanceAs (Decidable (halt.isOverflow = true))
  | .ok _ _ => inferInstanceAs (Decidable False)

/-- Wherever the first computation does not overflow, the second does the same. -/
def Outlasts (first second : Eval α) : Prop :=
  ∀ world, ¬ Overflows (first world) → second world = first world

theorem Outlasts.of_extends {first second : Eval α}
    (kept : Extends (·.isOverflow = true) first second) : Outlasts first second := by
  intro world calm
  apply kept world
  intro halted
  apply calm
  generalize first world = outcome at halted
  cases outcome <;> exact halted

section Runs

variable (conditions : Conditions) (limit extra : Nat)

theorem tighter_limit : { conditions with maxDepth := limit }.Tighter (·.isOverflow = true)
    (limit + extra) conditions.rounds where
  deeper := Nat.le_add_right limit extra
  overflow := .inr fun _ => rfl
  longer := Nat.le_refl _
  unfinished := .inl rfl

theorem evaluate_outlasts (scope : ScopeId) (expr : Expr) :
    Outlasts (evaluate { conditions with maxDepth := limit } scope expr)
      (evaluate { conditions with maxDepth := limit + extra } scope expr) :=
  .of_extends (evaluate_extends (tighter_limit conditions limit extra) scope expr)

theorem runProgram_outlasts (program : Option Program) :
    Outlasts (runProgram { conditions with maxDepth := limit } program)
      (runProgram { conditions with maxDepth := limit + extra } program) :=
  .of_extends (runProgram_extends (tighter_limit conditions limit extra) program)

end Runs

/-- Under a larger depth limit an evaluation, or a run of a program, that does not overflow has the
same outcome: the same value or halt, and the same scopes, functions and journal in the world that it
leaves. Nothing else in the conditions matters, the bound on the rounds of a loop among them. -/
theorem deeper_limit_keeps_outcome (conditions : Conditions) (limit limit' : Nat)
    (larger : limit ≤ limit') (world : World) :
    (∀ scope expr,
      ¬ Overflows (evaluate { conditions with maxDepth := limit } scope expr world) →
      evaluate { conditions with maxDepth := limit' } scope expr world =
        evaluate { conditions with maxDepth := limit } scope expr world) ∧
    (∀ program,
      ¬ Overflows (runProgram { conditions with maxDepth := limit } program world) →
      runProgram { conditions with maxDepth := limit' } program world =
        runProgram { conditions with maxDepth := limit } program world) := by
  obtain ⟨extra, rfl⟩ := Nat.exists_eq_add_of_le larger
  constructor
  · intro scope expr calm
    exact evaluate_outlasts conditions limit extra scope expr world calm
  · intro program calm
    exact runProgram_outlasts conditions limit extra program world calm

def countingSample : Program where
  definitions :=
    [.value { name := "n", value := .int 0 {}, mutable := true },
     .function { name := "show", params := ["k"], body := { elements :=
       [.println (.binary .multiply (.identifier "k" {}) (.int 2 {}) {}) {}] } },
     .function { name := "main", params := [], body := { elements :=
       [.loop (.binary .less (.identifier "n" {}) (.int 2 {}) {})
         (.call "show" [.update .increment false (.identifier "n" {}) {}] {}) {}] } }]

theorem deeper_limit_keeps_outcome_sample :
    Overflows (runProgram { maxDepth := 6 } (some countingSample) {}) ∧
    ¬ Overflows (runProgram { maxDepth := 7 } (some countingSample) {}) ∧
    runProgram { maxDepth := 100 } (some countingSample) {} =
      runProgram { maxDepth := 7 } (some countingSample) {} ∧
    ¬ Overflows (evaluate { maxDepth := 1 } Scopes.rootId (.identifier "x" {}) {}) ∧
    evaluate { maxDepth := 100 } Scopes.rootId (.identifier "x" {}) {} =
      evaluate { maxDepth := 1 } Scopes.rootId (.identifier "x" {}) {} := by
  have program : ¬ Overflows (runProgram { maxDepth := 7 } (some countingSample) {}) := by
    decide +kernel
  have name : ¬ Overflows (evaluate { maxDepth := 1 } Scopes.rootId (.identifier "x" {}) {}) := by
    decide +kernel
  exact ⟨by decide +kernel, program,
    (deeper_limit_keeps_outcome {} 7 100 (by decide) {}).2 (some countingSample) program, name,
    (deeper_limit_keeps_outcome {} 1 100 (by decide) {}).1 Scopes.rootId (.identifier "x" {}) name⟩

end Eval

end Koy
