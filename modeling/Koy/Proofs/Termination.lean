import Mathlib.Data.List.Perm.Basic
import Koy.Proofs.Everywhere
import Koy.Proofs.Starts

/-! Evaluation without loops ends by itself. Nothing but a loop can use up the rounds that a loop is
given, however functions call one another and whatever is registered on the way, and no evaluation
starts as deep as the depth limit. -/

namespace Koy

def Expr.isLoop : Expr → Bool
  | .loop _ _ _ => true
  | _ => false

/-- Neither the expression nor anything inside it, the bodies of function literals included, is a
loop. -/
abbrev Expr.LoopFree (expr : Expr) : Prop :=
  expr.Every fun inner => inner.isLoop = false

def Body.LoopFree (body : Body) : Prop :=
  ∀ element ∈ body.elements, element.LoopFree

def Value.LoopFree : Value → Prop
  | .function _ body => body.LoopFree
  | _ => True

structure World.LoopFree (world : World) : Prop where
  registered (name : String) (function : FunctionDef) :
    NameMap.get? world.functions name = some function → function.body.LoopFree
  bound (id : ScopeId) (name : String) (binding : Binding) :
    (world.scopes.bindings id).get? name = some binding → binding.value.LoopFree

/-- Functions are called through the table, into which only values come that are functions
themselves, so that nothing need be known of functions inside other values. -/
def Regime.loopFree : Regime where
  expr := Expr.LoopFree
  value := Value.LoopFree
  halt halt := halt ≠ .unfinished
  part every member := every.part member
  int _ := trivial
  bool _ := trivial
  text _ := trivial
  sequence _ := trivial
  set _ := trivial
  mapping _ := trivial
  function every := every.inside
  body allowed := .intro rfl allowed
  fault _ := nofun
  unwritable _ := nofun
  missing _ := nofun
  operator _ := nofun
  unfinished every := nomatch every.here

theorem World.LoopFree.holds {world : World} (free : world.LoopFree) :
    Regime.loopFree.Holds world :=
  ⟨free.bound, free.registered, trivial⟩

namespace Eval

/-- The expressions whose evaluation is started just this many levels inside, when an expression is
evaluated with `room` levels of depth left, in the order in which they are started. -/
def startedAt (conditions : Conditions) : Nat → Nat → ScopeId → Expr → World → List Expr
  | _, _, _, .missing, _ => []
  | 0, _, _, _, _ => []
  | _ + 1, 0, _, expr, _ => [expr]
  | room + 1, level + 1, scope, expr, world =>
    let slice := startedAt conditions room level
    let body := walkBody conditions slice (conditions.maxDepth - room)
    let inside : World → List Expr := walk conditions (withRoom conditions room) slice body scope expr
    onward (trace conditions expr) (fun _ => inside) world

def Divides (levels : List Nat) (whole : World → List Expr) (slice : Nat → World → List Expr) :
    Prop :=
  ∀ world, (whole world).Perm (levels.flatMap fun level => slice level world)

namespace Divides

variable {α : Type} {levels : List Nat} {whole whole' : World → List Expr}
  {slice slice' : Nat → World → List Expr}

theorem nil : Divides levels (fun _ => []) fun _ _ => [] := by
  intro world
  simp

theorem append (first : Divides levels whole slice) (second : Divides levels whole' slice') :
    Divides levels (fun world => whole world ++ whole' world)
      fun level world => slice level world ++ slice' level world :=
  fun world => ((first world).append (second world)).trans (List.flatMap_append_perm levels _ _)

theorem onward (first : Eval α) {later : α → World → List Expr}
    {slices : Nat → α → World → List Expr}
    (rest : ∀ value, Divides levels (later value) fun level => slices level value) :
    Divides levels (onward first later) fun level => Eval.onward first (slices level) := by
  intro world
  cases outcome : first world with
  | ok value middle =>
      simp only [Eval.onward, outcome]
      exact rest value middle
  | error halt final =>
      simp only [Eval.onward, outcome]
      exact nil final

theorem ite {condition : Prop} [Decidable condition] (holds : Divides levels whole slice)
    (fails : Divides levels whole' slice') :
    Divides levels (if condition then whole else whole')
      fun level => if condition then slice level else slice' level := by
  split
  · exact holds
  · exact fails

end Divides

section Forms

variable {conditions : Conditions} {depth : Nat} {sub : ScopeId → Expr → Eval Value}
  {starts : ScopeId → Expr → World → List Expr}
  {slice : Nat → ScopeId → Expr → World → List Expr} {levels : List Nat}
  (divides : ∀ scope expr, Divides levels (starts scope expr) fun level => slice level scope expr)
  (scope : ScopeId)

include divides

theorem walkAll_divides (exprs : List Expr) :
    Divides levels (walkAll sub starts scope exprs)
      fun level => walkAll sub (slice level) scope exprs := by
  induction exprs with
  | nil => exact .nil
  | cons expr rest ih => exact (divides scope expr).append (.onward _ fun _ => ih)

theorem walkLoop_divides (test body : Expr) (rounds : Nat) :
    Divides levels (walkLoop sub starts scope test body rounds)
      fun level => walkLoop sub (slice level) scope test body rounds := by
  induction rounds with
  | zero => exact .nil
  | succ rounds ih =>
      refine (divides scope test).append (.onward _ fun holds => ?_)
      cases holds with
      | true => exact (divides scope body).append (.onward _ fun _ => ih)
      | false => exact .nil

theorem walkCall_divides (function : FunctionDef) (arguments : List Expr) :
    Divides levels (walkCall sub starts (walkBody conditions starts depth) scope function arguments)
      fun level =>
        walkCall sub (slice level) (walkBody conditions (slice level) depth) scope function
          arguments :=
  (walkAll_divides divides scope arguments).append
    (.onward _ fun _ world => divides world.scopes.nextId function.body.block _)

theorem walk_divides (expr : Expr) :
    Divides levels (walk conditions sub starts (walkBody conditions starts depth) scope expr)
      fun level =>
        walk conditions sub (slice level) (walkBody conditions (slice level) depth) scope expr := by
  cases expr with
  | missing | int | bool | text | identifier | function => exact .nil
  | sequence items => exact walkAll_divides divides scope items
  | set items => exact walkAll_divides divides scope items
  | mapping items => exact walkAll_divides divides scope (items.map Prod.snd)
  | update op before operand =>
      cases operand with
      | identifier name position => exact divides scope (.identifier name position)
      | _ => exact .nil
  | binary op lhs rhs => exact (divides scope lhs).append (.onward _ fun _ => divides scope rhs)
  | declare name mutable value => exact divides scope value
  | assign name value => exact divides scope value
  | println argument => exact divides scope argument
  | branch test consequent alternative =>
      refine (divides scope test).append (.onward _ fun holds => ?_)
      cases holds with
      | true => exact divides scope consequent
      | false =>
          cases alternative with
          | none => exact .nil
          | some other => exact divides scope other
  | loop test body => exact walkLoop_divides divides scope test body conditions.rounds
  | block elements => exact walkAll_divides divides scope elements
  | call callee arguments =>
      intro world
      refine Divides.onward _ (fun function => ?_) world
      exact .ite .nil (walkCall_divides divides scope function arguments)
  | labeledCall callee labeled =>
      intro world
      refine Divides.onward _ (fun function => .onward _ fun arguments => ?_) world
      exact walkCall_divides divides scope function arguments

end Forms

theorem started_divides (conditions : Conditions) (room : Nat) (scope : ScopeId) (expr : Expr) :
    Divides (List.range room) (started conditions room scope expr)
      fun level => startedAt conditions room level scope expr := by
  induction room generalizing scope expr with
  | zero =>
      intro world
      rw [List.range_zero, List.flatMap_nil]
      cases expr <;> exact .nil
  | succ room ih =>
      by_cases present : expr = .missing
      · subst present
        intro world
        simp [started, startedAt]
      · intro world
        have top : startedAt conditions (room + 1) 0 scope expr world = [expr] :=
          startedAt.eq_3 _ _ _ _ _ present
        have below (level : Nat) : startedAt conditions (room + 1) (level + 1) scope expr world =
            onward (trace conditions expr) (fun _ => walk conditions (withRoom conditions room)
              (startedAt conditions room level)
              (walkBody conditions (startedAt conditions room level) (conditions.maxDepth - room))
              scope expr) world :=
          startedAt.eq_4 _ _ _ _ _ _ present
        rw [started.eq_3 _ _ _ _ _ present, List.range_succ_eq_map, List.flatMap_cons,
          List.flatMap_map]
        simp only [top, below]
        exact .cons expr (Divides.onward _ (fun _ => walk_divides ih scope expr) world)

theorem startedAt_of_le (conditions : Conditions) {room level : Nat} (deep : room ≤ level)
    (scope : ScopeId) (expr : Expr) (world : World) :
    startedAt conditions room level scope expr world = [] := by
  induction room generalizing level scope expr world with
  | zero => cases expr <;> rfl
  | succ room ih =>
      by_cases present : expr = .missing
      · subst present
        rfl
      · obtain ⟨level, rfl⟩ : ∃ before, level = before + 1 := ⟨level - 1, by omega⟩
        -- On no level at all anything is started inside.
        have none (scope : ScopeId) (expr : Expr) :
            Divides [] (startedAt conditions room level scope expr) fun _ _ => [] := by
          intro world
          rw [ih (Nat.le_of_succ_le_succ deep)]
          exact .nil
        let body := walkBody conditions (startedAt conditions room level) (conditions.maxDepth - room)
        have inside : Divides [] (walk conditions (withRoom conditions room)
            (startedAt conditions room level) body scope expr)
            fun _ => walk conditions (withRoom conditions room) (fun _ _ _ => [])
              (walkBody conditions (fun _ _ _ => []) (conditions.maxDepth - room)) scope expr :=
          walk_divides none scope expr
        rw [startedAt.eq_4 _ _ _ _ _ _ present]
        exact (Divides.onward (trace conditions expr) (fun _ => inside) world).eq_nil

/-- Evaluation without loops. In a world where neither the functions of the table nor those that
names are bound to contain a loop, an expression without loops comes to a value, to a fault or, if
nothing can be written, to that failure: whatever the depth limit is, however the functions call and
replace one another, and however few rounds a loop would be given. All that is started on the way is
started on levels before the depth limit, and on no level from the limit on. -/
theorem evaluate_ends_of_loopFree (conditions : Conditions) (scope : ScopeId) (expr : Expr)
    (world : World) (free : expr.LoopFree) (free' : world.LoopFree) :
    ((∃ value final, evaluate conditions scope expr world = .ok value final) ∨
      (∃ fault final, evaluate conditions scope expr world = .error (.fault fault) final) ∨
      ∃ reason final, evaluate conditions scope expr world = .error (.unwritable reason) final) ∧
    (started conditions conditions.maxDepth scope expr world).Perm
      ((List.range conditions.maxDepth).flatMap fun level =>
        startedAt conditions conditions.maxDepth level scope expr world) ∧
    ∀ level, conditions.maxDepth ≤ level →
      startedAt conditions conditions.maxDepth level scope expr world = [] := by
  refine ⟨?_, started_divides conditions conditions.maxDepth scope expr world,
    fun level deep => startedAt_of_le conditions deep scope expr world⟩
  have admitted : Admits Regime.loopFree Value.LoopFree (evaluate conditions scope expr world) :=
    evaluate_upholds conditions scope expr free world free'.holds
  cases outcome : evaluate conditions scope expr world with
  | ok value final => exact .inl ⟨value, final, rfl⟩
  | error halt final =>
      rw [outcome] at admitted
      cases halt with
      | fault cause => exact .inr (.inl ⟨cause, final, rfl⟩)
      | unwritable reason => exact .inr (.inr ⟨reason, final, rfl⟩)
      | unfinished => exact absurd rfl admitted.1

def spinningSample : World where
  functions :=
    [("spin", { name := "spin", params := [], body := { elements := [.call "spin" [] {}] } })]

theorem evaluate_ends_of_loopFree_sample :
    Expr.LoopFree (.call "spin" [] {}) ∧ spinningSample.LoopFree ∧
    ((∃ value final, evaluate { maxDepth := 5 } Scopes.rootId (.call "spin" [] {}) spinningSample =
        .ok value final) ∨
      (∃ fault final, evaluate { maxDepth := 5 } Scopes.rootId (.call "spin" [] {}) spinningSample =
        .error (.fault fault) final) ∨
      ∃ reason final, evaluate { maxDepth := 5 } Scopes.rootId (.call "spin" [] {}) spinningSample =
        .error (.unwritable reason) final) ∧
    startedAt { maxDepth := 5 } 5 4 Scopes.rootId (.call "spin" [] {}) spinningSample =
      [.call "spin" [] {}] ∧
    startedAt { maxDepth := 5 } 5 5 Scopes.rootId (.call "spin" [] {}) spinningSample = [] := by
  have free : Expr.LoopFree (.call "spin" [] {}) := .intro rfl (by simp [Expr.children, Expr.parts])
  have free' : spinningSample.LoopFree := by
    refine ⟨?_, Regime.Holds.initial Regime.loopFree |>.bound⟩
    intro name function found
    rcases List.mem_singleton.mp (NameMap.mem_of_get? _ found) with ⟨⟩
    exact List.forall_mem_singleton.mpr free
  obtain ⟨ends, -, bounded⟩ := evaluate_ends_of_loopFree { maxDepth := 5 } Scopes.rootId
    (.call "spin" [] {}) spinningSample free free'
  exact ⟨free, free', ends, by rfl, bounded 5 (by decide)⟩

end Eval

end Koy
