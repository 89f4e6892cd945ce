import Koy.Proofs.DepthLimit

/-! The depth that data needs. An expression made of literals, collections and blocks is evaluated
exactly where there is room for its height, wherever in it the highest part is. -/

namespace Koy

namespace Expr

/-- Data: literals, functions among them whatever is in their bodies, and collections and blocks of
data. -/
inductive Data : Expr → Prop where
  | int (value : Int64) (position : Position) : Data (.int value position)
  | bool (value : Bool) (position : Position) : Data (.bool value position)
  | text (value : Bytes) (position : Position) : Data (.text value position)
  | function (params : List String) (id : BodyId) (body : List Expr)
      (bodyPosition position : Position) : Data (.function params id body bodyPosition position)
  | sequence {items : List Expr} (each : ∀ item ∈ items, Data item) (position : Position) :
      Data (.sequence items position)
  | set {items : List Expr} (each : ∀ item ∈ items, Data item) (position : Position) :
      Data (.set items position)
  | mapping {entries : List (String × Expr)} (each : ∀ entry ∈ entries, Data entry.2)
      (position : Position) : Data (.mapping entries position)
  | block {elements : List Expr} (each : ∀ element ∈ elements, Data element)
      (position : Position) : Data (.block elements position)

mutual

/-- How high data is: 1 if nothing is inside, and else one more than the highest thing inside. -/
def height : Expr → Nat
  | .sequence items _ | .set items _ | .block items _ => heightAll items + 1
  | .mapping entries _ => heightEntries entries + 1
  | _ => 1

def heightAll : List Expr → Nat
  | [] => 0
  | expr :: rest => max (height expr) (heightAll rest)

def heightEntries : List (String × Expr) → Nat
  | [] => 0
  | (_, expr) :: rest => max (height expr) (heightEntries rest)

end

theorem height_pos (expr : Expr) : 0 < expr.height := by
  cases expr <;> simp [height]

theorem Data.present {expr : Expr} (data : expr.Data) : expr ≠ .missing := by
  cases data <;> exact Expr.noConfusion

end Expr

namespace Eval

variable {α β : Type} {conditions : Conditions} {roomy roomy' : Prop}

/-- The computation yields a value if there is room for it, and overflows otherwise. The scopes and
the functions stay as they are. -/
def Fits (conditions : Conditions) (roomy : Prop) (computation : Eval α) : Prop :=
  ∀ world, ∃ final : World, final.scopes = world.scopes ∧ final.functions = world.functions ∧
    ((roomy ∧ ∃ value, computation world = .ok value final) ∨
      (¬ roomy ∧ computation world = .error (.fault (.tooDeep conditions.maxDepth)) final))

namespace Fits

theorem pure (value : α) : Fits conditions True (pure value) := by
  intro world
  exact ⟨world, rfl, rfl, .inl ⟨trivial, value, rfl⟩⟩

theorem tooDeep (small : ¬ roomy) :
    Fits conditions roomy (fail (.tooDeep conditions.maxDepth) : Eval α) := by
  intro world
  exact ⟨world, rfl, rfl, .inr ⟨small, rfl⟩⟩

theorem bind {first : Eval α} {next : α → Eval β} (start : Fits conditions roomy first)
    (rest : ∀ value, Fits conditions roomy' (next value)) :
    Fits conditions (roomy ∧ roomy') (first >>= next) := by
  intro world
  obtain ⟨middle, scopes, functions, ⟨enough, value, outcome⟩ | ⟨small, outcome⟩⟩ := start world
  · obtain ⟨final, scopes', functions', ends⟩ := rest value middle
    refine ⟨final, scopes'.trans scopes, functions'.trans functions, ?_⟩
    rw [bind_ok next outcome]
    rcases ends with ⟨enough', result⟩ | ⟨small', outcome'⟩
    · exact .inl ⟨⟨enough, enough'⟩, result⟩
    · exact .inr ⟨fun both => small' both.2, outcome'⟩
  · exact ⟨middle, scopes, functions, .inr ⟨fun both => small both.1, bind_error next outcome⟩⟩

theorem congr {computation : Eval α} (fits : Fits conditions roomy computation)
    (same : roomy ↔ roomy') : Fits conditions roomy' computation := by
  rwa [propext same] at fits

theorem map {first : Eval α} (start : Fits conditions roomy first) (f : α → β) :
    Fits conditions roomy (do return f (← first)) :=
  (start.bind fun value => .pure (f value)).congr (iff_of_eq (and_true roomy))

end Fits

theorem trace_fits (expr : Expr) : Fits conditions True (trace conditions expr) := by
  intro world
  by_cases written : (conditions.traced && conditions.unwritable.isNone) = true
  · refine ⟨world.record (.trace expr.shown), rfl, rfl, .inl ⟨trivial, (), ?_⟩⟩
    rw [trace, if_pos written]
    rfl
  · refine ⟨world, rfl, rfl, .inl ⟨trivial, (), ?_⟩⟩
    rw [trace, if_neg written]
    rfl

section Forms

variable {sub : ScopeId → Expr → Eval Value} {scope : ScopeId} {room : Nat}

theorem all_fits {exprs : List Expr}
    (inner : ∀ expr ∈ exprs, Fits conditions (expr.height ≤ room) (sub scope expr)) :
    Fits conditions (Expr.heightAll exprs ≤ room) (all sub scope exprs) := by
  induction exprs with
  | nil => exact (Fits.pure []).congr (by simp [Expr.heightAll])
  | cons expr rest ih =>
      obtain ⟨first, others⟩ := List.forall_mem_cons.mp inner
      have both := first.bind fun value => (ih others).map (value :: ·)
      exact both.congr Nat.max_le.symm

theorem entries_fits {exprs : List (String × Expr)}
    (inner : ∀ entry ∈ exprs, Fits conditions (entry.2.height ≤ room) (sub scope entry.2)) :
    Fits conditions (Expr.heightEntries exprs ≤ room) (entries sub scope exprs) := by
  induction exprs with
  | nil => exact (Fits.pure []).congr (by simp [Expr.heightEntries])
  | cons entry rest ih =>
      obtain ⟨first, others⟩ := List.forall_mem_cons.mp inner
      have both := first.bind fun value => (ih others).map ((entry.1, value) :: ·)
      exact both.congr Nat.max_le.symm

theorem last_fits {exprs : List Expr} (result : Value)
    (inner : ∀ expr ∈ exprs, Fits conditions (expr.height ≤ room) (sub scope expr)) :
    Fits conditions (Expr.heightAll exprs ≤ room) (last sub scope result exprs) := by
  induction exprs generalizing result with
  | nil => exact (Fits.pure result).congr (by simp [Expr.heightAll])
  | cons expr rest ih =>
      obtain ⟨first, others⟩ := List.forall_mem_cons.mp inner
      exact (first.bind fun value => ih value others).congr Nat.max_le.symm

theorem step_fits (depth : Nat) {expr : Expr} (data : expr.Data)
    (inner : ∀ part : Expr, part.Data → Fits conditions (part.height ≤ room) (sub scope part)) :
    Fits conditions (expr.height ≤ room + 1) (step conditions depth sub scope expr) := by
  have literal (value : Value) : Fits conditions (1 ≤ room + 1) (Pure.pure value) :=
    (Fits.pure value).congr (by simp)
  cases data with
  | int value => exact literal (.int value)
  | bool value => exact literal (.bool value)
  | text value => exact literal (.text value)
  | function params id body position =>
      exact literal (.function params { id, elements := body, position })
  | sequence each =>
      have items := all_fits fun item member => inner item (each item member)
      exact (items.map Value.sequence).congr Nat.add_le_add_iff_right.symm
  | set each =>
      have items := all_fits fun item member => inner item (each item member)
      exact (items.map Value.ofSet).congr Nat.add_le_add_iff_right.symm
  | mapping each =>
      have items := entries_fits fun entry member => inner entry.2 (each entry member)
      exact (items.map Value.ofMapping).congr Nat.add_le_add_iff_right.symm
  | block each =>
      have elements := last_fits (.int 0) fun element member => inner element (each element member)
      exact elements.congr Nat.add_le_add_iff_right.symm

end Forms

theorem withRoom_fits (conditions : Conditions) (room : Nat) (scope : ScopeId) {expr : Expr}
    (data : expr.Data) :
    Fits conditions (expr.height ≤ room) (withRoom conditions room scope expr) := by
  induction room generalizing expr with
  | zero =>
      rw [withRoom.eq_2 _ _ _ data.present]
      exact .tooDeep (Nat.not_le_of_lt expr.height_pos)
  | succ room ih =>
      rw [withRoom.eq_3 _ _ _ _ data.present, onStackOf_eq]
      have inside := (trace_fits expr).bind fun _ =>
        step_fits (conditions.maxDepth - room) data fun part data' => ih data'
      exact inside.congr (iff_of_eq (true_and _))

/-- Evaluates an expression in a scope at a depth that has been reached already. -/
def evaluateAt (conditions : Conditions) (depth : Nat) (scope : ScopeId) (expr : Expr) :
    Eval Value :=
  withRoom conditions (conditions.maxDepth - depth) scope expr

/-- The depth limit on data. At every depth, in every world and scope, data is evaluated to a value
if and only if the depth and the height of the data together are within the limit; otherwise the
evaluation is a stack overflow. In both cases the scopes and the functions stay as they are. -/
theorem evaluateAt_data (conditions : Conditions) (depth : Nat) (scope : ScopeId) (expr : Expr)
    (data : expr.Data) (world : World) :
    ((∃ value final, evaluateAt conditions depth scope expr world = .ok value final) ↔
      depth + expr.height ≤ conditions.maxDepth) ∧
    (Overflows (evaluateAt conditions depth scope expr world) ↔
      conditions.maxDepth < depth + expr.height) ∧
    (after (evaluateAt conditions depth scope expr) world).scopes = world.scopes ∧
    (after (evaluateAt conditions depth scope expr) world).functions = world.functions := by
  have positive := expr.height_pos
  obtain ⟨final, scopes, functions, ends⟩ :=
    withRoom_fits conditions (conditions.maxDepth - depth) scope data world
  rw [after, evaluateAt]
  rcases ends with ⟨enough, value, outcome⟩ | ⟨small, outcome⟩
  · rw [outcome]
    have within : depth + expr.height ≤ conditions.maxDepth := by omega
    exact ⟨iff_of_true ⟨value, final, rfl⟩ within, iff_of_false id (Nat.not_lt_of_le within),
      scopes, functions⟩
  · rw [outcome]
    have beyond : conditions.maxDepth < depth + expr.height := by omega
    refine ⟨iff_of_false ?_ (Nat.not_le_of_lt beyond), iff_of_true rfl beyond, scopes, functions⟩
    rintro ⟨value, after, ⟨⟩⟩

def dataSample : Expr :=
  .sequence
    [.block [] {},
     .mapping [("k", .set [.function ["x"] .unloaded [.println (.identifier "x" {}) {}] {} {}] {})] {}]
    {}

theorem evaluateAt_data_sample :
    dataSample.Data ∧ dataSample.height = 4 ∧
    (∃ value final, evaluateAt { maxDepth := 6 } 2 Scopes.rootId dataSample {} = .ok value final) ∧
    Overflows (evaluateAt { maxDepth := 5 } 2 Scopes.rootId dataSample {}) := by
  have data : dataSample.Data := by
    refine .sequence (List.forall_mem_cons.mpr ⟨.block (by simp) _, ?_⟩) _
    refine List.forall_mem_singleton.mpr (.mapping (List.forall_mem_singleton.mpr ?_) _)
    exact .set (List.forall_mem_singleton.mpr (.function _ _ _ _ _)) _
  have enough := evaluateAt_data { maxDepth := 6 } 2 Scopes.rootId dataSample data {}
  have small := evaluateAt_data { maxDepth := 5 } 2 Scopes.rootId dataSample data {}
  exact ⟨data, rfl, enough.1.mpr (by decide), small.2.1.mpr (by decide)⟩

end Eval

end Koy
