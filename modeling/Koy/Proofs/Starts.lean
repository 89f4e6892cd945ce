import Koy.Proofs.Agreement
import Koy.Proofs.Walk

/-! Which evaluations are started, and in what order. What is started is found by going through an
expression as evaluation does, and a trace that is written reports exactly this, one record for each
start. -/

namespace Koy

def Event.traced : Event → Bytes
  | .trace expression => (trace expression).output
  | .print _ | .enter _ _ _ | .leave _ _ => []

def Expr.report (expr : Expr) : Bytes :=
  Bytes.ofString ("|- " ++ expr.shown ++ "\n")

namespace Eval

variable {α : Type}

/-- The expressions whose evaluation is started when an expression is evaluated with `room` levels of
depth left, in the order in which they are started. Without room none is. -/
def started (conditions : Conditions) : Nat → ScopeId → Expr → World → List Expr
  | _, _, .missing, _ => []
  | 0, _, _, _ => []
  | room + 1, scope, expr, world =>
    let body := walkBody conditions (started conditions room) (conditions.maxDepth - room)
    let inside : World → List Expr :=
      walk conditions (withRoom conditions room) (started conditions room) body scope expr
    expr :: onward (trace conditions expr) (fun _ => inside) world

/-- From this world the computation adds the reports of the given expressions to the trace, and they
are allowed. -/
structure Reports (regime : Regime) (computation : Eval α) (nodes : List Expr) (world : World) :
    Prop where
  written : (after computation world).seen Event.traced =
    world.seen Event.traced ++ nodes.flatMap Expr.report
  allowed : ∀ node ∈ nodes, regime.expr node

theorem reports_telling (regime : Regime) : Telling
    (fun before after => after.seen Event.traced = before.seen Event.traced)
    (fun _ => Reports regime) where
  refl _ := rfl
  trans _ _ _ sooner later := later.trans sooner
  print world line := by
    rw [World.seen_record]
    exact List.append_nil _
  bind _ _ _ _ := rfl
  define _ _ := rfl
  silent same := ⟨by rw [same, List.flatMap_nil, List.append_nil], by simp⟩
  bind_ok outcome begun continued := by
    refine ⟨?_, List.forall_mem_append.mpr ⟨begun.allowed, continued.allowed⟩⟩
    rw [after_bind_ok _ outcome, continued.written, ← after_of_ok outcome, begun.written,
      List.flatMap_append, List.append_assoc]
  bind_error outcome begun := by
    refine ⟨?_, begun.allowed⟩
    rw [after_bind_error _ outcome, begun.written]

variable {regime : Regime}

theorem seen_closeScope (conditions : Conditions) (function : String) (failed : Bool)
    (world : World) :
    (closeScope conditions function failed world).seen Event.traced = world.seen Event.traced := by
  unfold closeScope
  split
  · rw [World.seen_record]
    exact List.append_nil _
  · rfl

theorem seen_entered (conditions : Conditions) (depth : Nat) (scope : ScopeId)
    (function : FunctionDef) (arguments : List Value) (world : World) :
    (entered conditions depth scope function arguments world).seen Event.traced =
      world.seen Event.traced := by
  have bound := (reports_telling .any).still_bindAll world.scopes.nextId
    (function.params.zip arguments) { world with scopes := world.scopes.push (some scope) }
  unfold entered
  split
  · rw [World.seen_record]
    exact (List.append_nil _).trans bound
  · exact bound

theorem seen_invoke (conditions : Conditions) (depth : Nat) (sub : ScopeId → Expr → Eval Value)
    (scope : ScopeId) (function : FunctionDef) (arguments : List Value) (world : World) :
    (after (invoke conditions depth sub scope function arguments) world).seen Event.traced =
      (after (sub world.scopes.nextId function.body.block)
        (entered conditions depth scope function arguments world)).seen Event.traced := by
  rw [after, invoke_eq_match, after]
  cases sub world.scopes.nextId function.body.block
    (entered conditions depth scope function arguments world) with
  | ok value final => exact seen_closeScope conditions function.name false final
  | error halt final => exact seen_closeScope conditions function.name true final

theorem entered_holds (conditions : Conditions) (depth : Nat) (scope : ScopeId)
    (function : FunctionDef) {arguments : List Value} {world : World}
    (given : ∀ argument ∈ arguments, regime.value argument) (holds : regime.Holds world) :
    regime.Holds (entered conditions depth scope function arguments world) := by
  have each : ∀ entry ∈ function.params.zip arguments, regime.value entry.2 :=
    fun entry member => given entry.2 (List.of_mem_zip member).2
  have bound := (bindAll_upholds world.scopes.nextId _ each).after (holds.push (some scope))
  unfold entered
  split
  · exact bound.record _
  · exact bound

theorem invoke_reports {conditions : Conditions} {depth : Nat} {sub : ScopeId → Expr → Eval Value}
    {starts : ScopeId → Expr → World → List Expr}
    (follows : ∀ scope expr, regime.expr expr →
      Follows regime (fun _ => Reports regime) (sub scope expr) (starts scope expr))
    (scope : ScopeId) (function : FunctionDef) (arguments : List Value)
    (allowed : regime.value (.function function.params function.body))
    (given : ∀ argument ∈ arguments, regime.value argument) :
    Follows regime (fun _ => Reports regime)
      (invoke conditions depth sub scope function arguments)
      (walkBody conditions starts depth scope function arguments) := by
  intro world holds
  have begun := entered_holds conditions depth scope function given holds
  have body := follows world.scopes.nextId _ (regime.body allowed) _ begun
  refine ⟨?_, body.allowed⟩
  rw [seen_invoke, body.written, seen_entered]
  rfl

theorem trace_reports {conditions : Conditions} (traced : conditions.traced = true)
    (writable : conditions.unwritable = none) (expr : Expr) (world : World) :
    (after (trace conditions expr) world).seen Event.traced =
      world.seen Event.traced ++ expr.report := by
  have recorded : trace conditions expr = record (.trace expr.shown) := by
    rw [trace, traced, writable]
    rfl
  rw [recorded]
  exact World.seen_record world _

theorem withRoom_reports {conditions : Conditions} (traced : conditions.traced = true)
    (writable : conditions.unwritable = none) (room : Nat) (scope : ScopeId) (expr : Expr)
    (allowed : regime.expr expr) :
    Follows regime (fun _ => Reports regime) (withRoom conditions room scope expr)
      (started conditions room scope expr) := by
  induction room generalizing scope expr with
  | zero => cases expr <;> exact (reports_telling regime).follows_fail _
  | succ room ih =>
      by_cases present : expr = .missing
      · subst present
        exact (reports_telling regime).follows_fail _
      · rw [withRoom.eq_3 _ _ _ _ present, onStackOf_eq]
        -- The report comes before anything inside is started.
        have reported : Follows regime (fun _ => Reports regime) (trace conditions expr)
            fun _ => [expr] := by
          intro world _
          refine ⟨?_, List.forall_mem_singleton.mpr allowed⟩
          rw [trace_reports traced writable, List.flatMap_singleton]
        intro world holds
        rw [started.eq_3 _ _ _ _ _ present]
        refine (reports_telling regime).follows_bind reported (trace_upholds conditions expr) ?_
          world holds
        intro _ _
        exact (reports_telling regime).step_follows (withRoom_upholds conditions room) scope (ih scope)
          (invoke_reports ih scope) expr allowed

theorem evaluate_reports {conditions : Conditions} (traced : conditions.traced = true)
    (writable : conditions.unwritable = none) (scope : ScopeId) (expr : Expr)
    (allowed : regime.expr expr) :
    Follows regime (fun _ => Reports regime) (evaluate conditions scope expr)
      (started conditions conditions.maxDepth scope expr) :=
  withRoom_reports traced writable conditions.maxDepth scope expr allowed

end Eval

end Koy
