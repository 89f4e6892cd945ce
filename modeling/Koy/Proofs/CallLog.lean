import Koy.Proofs.Walk

/-! The log of calls. The calls of an evaluation are found by going through an expression as
evaluation does, and they form trees: inside a call are the calls that its body makes. What is
logged are these trees with a record where a call starts and a record where it ends. -/

namespace Koy

def Event.isLogged : Event → Bool
  | .enter _ _ _ | .leave _ _ => true
  | .trace _ | .print _ => false

namespace World

def logged (world : World) : List Event :=
  world.journal.toList.filter Event.isLogged

@[simp] theorem logged_record (world : World) (event : Event) :
    (world.record event).logged = world.logged ++ [event].filter Event.isLogged := by
  simp [logged, record]

theorem log_of_not_isLogged {event : Event} (other : event.isLogged = false) : event.log = "" := by
  cases event with
  | trace | print => rfl
  | enter | leave => cases other

theorem log_eq (world : World) : world.log = String.join (world.logged.map Event.log) := by
  unfold log logged
  induction world.journal.toList with
  | nil => rfl
  | cons event rest ih =>
      rw [List.map_cons, String.join_cons, ih]
      cases kind : event.isLogged with
      | true => rw [List.filter_cons_of_pos kind, List.map_cons, String.join_cons]
      | false =>
          rw [log_of_not_isLogged kind, String.empty_append, List.filter_cons_of_neg]
          exact ne_true_of_eq_false kind

end World

/-- A call: the name of the function, the depth and the depth of the scope at which its body is
evaluated, the calls that the body makes, and whether the body is stopped by a halt. -/
structure Call where
  function : String
  depth : Nat
  scopeDepth : Nat
  inner : List Call
  failed : Bool

namespace Call

mutual

def records : Call → List Event
  | ⟨function, depth, scopeDepth, inner, failed⟩ =>
    .enter function depth scopeDepth :: (allRecords inner ++ [.leave function failed])

def allRecords : List Call → List Event
  | [] => []
  | call :: rest => records call ++ allRecords rest

end

@[simp] theorem allRecords_append (calls more : List Call) :
    allRecords (calls ++ more) = allRecords calls ++ allRecords more := by
  induction calls with
  | nil => rfl
  | cons call rest ih => simp [allRecords, ih]

/-- While `opened` calls are open, the innermost of them at the depth `floor`, a call is made that is
deeper, has the next scope, and fails if a call in it fails. -/
inductive Nested (limit : Nat) : Nat → Nat → Call → Prop
  | intro {opened floor : Nat} {call : Call} (deeper : floor < call.depth)
      (bounded : call.depth ≤ limit) (counted : call.scopeDepth = opened + 1)
      (carried : ∀ part ∈ call.inner, part.failed = true → call.failed = true)
      (inside : ∀ part ∈ call.inner, Nested limit (opened + 1) call.depth part) :
      Nested limit opened floor call

theorem Nested.of_floor_le {limit opened floor floor' : Nat} {call : Call}
    (nested : call.Nested limit opened floor) (lower : floor' ≤ floor) :
    call.Nested limit opened floor' := by
  cases nested with
  | intro deeper bounded counted carried inside =>
      exact .intro (Nat.lt_of_le_of_lt lower deeper) bounded counted carried inside

end Call

namespace Eval

variable {α : Type}

def stops (computation : Eval α) (world : World) : Bool :=
  match computation world with
  | .ok _ _ => false
  | .error _ _ => true

def invocation (conditions : Conditions) (depth : Nat) (sub : ScopeId → Expr → Eval Value)
    (calls : ScopeId → Expr → World → List Call) (scope : ScopeId) (function : FunctionDef)
    (arguments : List Value) (world : World) : Call :=
  let callee := world.scopes.nextId
  let start := entered conditions depth scope function arguments world
  { function := function.name, depth, scopeDepth := start.scopes.depth callee,
    inner := walkBody conditions calls depth scope function arguments world,
    failed := stops (sub callee function.body.block) start }

/-- The calls that are made when an expression is evaluated with `room` levels of depth left, in the
order in which they start; those made by the body of a call are inside it. -/
def called (conditions : Conditions) : Nat → ScopeId → Expr → World → List Call
  | _, _, .missing, _ => []
  | 0, _, _, _ => []
  | room + 1, scope, expr, world =>
    let depth := conditions.maxDepth - room
    let sub := withRoom conditions room
    let within (scope : ScopeId) (function : FunctionDef) (arguments : List Value) (world : World) :
        List Call :=
      [invocation conditions depth sub (called conditions room) scope function arguments world]
    let inside : World → List Call :=
      walk conditions sub (called conditions room) within scope expr
    onward (trace conditions expr) (fun _ => inside) world

/-- From this world the computation logs the given calls, and it is stopped if one of them fails. -/
structure Logs (limit floor : Nat) (scope : ScopeId) (computation : Eval α) (calls : List Call)
    (world : World) : Prop where
  written : (after computation world).logged = world.logged ++ Call.allRecords calls
  nested : ∀ call ∈ calls, call.Nested limit (world.scopes.depth scope) floor
  carried : ∀ call ∈ calls, call.failed = true → stops computation world = true
  placed : (after computation world).scopes.depth scope = world.scopes.depth scope

structure Unlogged (before after : World) : Prop where
  logged : after.logged = before.logged
  depth (id : ScopeId) : after.scopes.depth id = before.scopes.depth id

namespace Unlogged

theorem refl (world : World) : Unlogged world world :=
  ⟨rfl, fun _ => rfl⟩

theorem trans (first second third : World) (sooner : Unlogged first second)
    (later : Unlogged second third) : Unlogged first third :=
  ⟨later.logged.trans sooner.logged, fun id => (later.depth id).trans (sooner.depth id)⟩

theorem record (world : World) {event : Event} (other : event.isLogged = false) :
    Unlogged world (world.record event) := by
  constructor
  · simp [other]
  · exact fun _ => rfl

theorem bind (world : World) (scope : ScopeId) (name : String) (binding : Binding) :
    Unlogged world { world with scopes := world.scopes.bind scope name binding } := by
  constructor
  · rfl
  · simp

end Unlogged

theorem trace_unlogged (conditions : Conditions) (expr : Expr) :
    Keeps Unlogged (trace conditions expr) := by
  unfold trace
  split
  · exact keeps_modify fun world => .record world rfl
  · exact keeps_pure Unlogged.refl ()

theorem logs_telling (limit floor : Nat) (scope : ScopeId) :
    Telling Unlogged fun _ => Logs limit floor scope where
  refl := Unlogged.refl
  trans := Unlogged.trans
  print world line := .record world rfl
  bind := Unlogged.bind
  define _ _ := ⟨rfl, fun _ => rfl⟩
  silent kept := {
    written := by simp [kept.logged, Call.allRecords]
    nested := by simp
    carried := by simp
    placed := kept.depth scope }
  bind_ok {_ _ first next world middle value before later} outcome begun continued := by
    have reached : after first world = middle := after_of_ok outcome
    have ended := after_bind_ok next outcome
    have stopped : stops (first >>= next) world = stops (next value) middle := by
      simp only [stops, bind_ok next outcome]
    have placed : middle.scopes.depth scope = world.scopes.depth scope := reached ▸ begun.placed
    constructor
    · rw [ended, continued.written, ← reached, begun.written, Call.allRecords_append,
        List.append_assoc]
    · rw [← placed]
      exact List.forall_mem_append.mpr ⟨placed ▸ begun.nested, continued.nested⟩
    · rw [stopped]
      -- No call of the first part has failed, since that part has yielded a value.
      refine List.forall_mem_append.mpr ⟨fun call member failed => ?_, continued.carried⟩
      have halted := begun.carried call member failed
      simp [stops, outcome] at halted
    · rw [ended, continued.placed, placed]
  bind_error {_ _ first next world _ _ _} outcome begun := by
    have ended := after_bind_error next outcome
    have stopped : stops (first >>= next) world = true := by
      simp only [stops, bind_error next outcome]
    constructor
    · rw [ended, begun.written]
    · exact begun.nested
    · exact fun _ _ _ => stopped
    · rw [ended, begun.placed]

abbrev LogsAll (limit floor : Nat) (scope : ScopeId) (computation : Eval α)
    (calls : World → List Call) : Prop :=
  Follows .any (fun _ => Logs limit floor scope) computation calls

theorem LogsAll.of_floor_le {limit floor floor' : Nat} {scope : ScopeId} {computation : Eval α}
    {calls : World → List Call} (logs : LogsAll limit floor scope computation calls)
    (lower : floor' ≤ floor) : LogsAll limit floor' scope computation calls := fun world holds =>
  { logs world holds with
    nested := fun call member => ((logs world holds).nested call member).of_floor_le lower }

/-! Calls. The body is evaluated deeper than the call, and so are the calls that it makes. -/

section

variable {conditions : Conditions} {limit floor depth : Nat} {sub : ScopeId → Expr → Eval Value}
  {calls : ScopeId → Expr → World → List Call} (scope : ScopeId)

theorem entered_logged (logged : conditions.logged = true) (function : FunctionDef)
    (arguments : List Value) (world : World) :
    (entered conditions depth scope function arguments world).logged =
      world.logged ++ [.enter function.name depth (world.scopes.depth scope + 1)] := by
  let opened : World := { world with scopes := world.scopes.push (some scope) }
  let bindings := function.params.zip arguments
  have bound : (after (bindAll world.scopes.nextId bindings) opened).logged = world.logged :=
    ((logs_telling 0 0 scope).still_bindAll world.scopes.nextId bindings opened).logged
  have place := depth_entered conditions depth scope function arguments world
  rw [entered_scopes] at place
  simp only [entered, logged, if_true, World.logged_record, place]
  rw [bound]
  rfl

theorem logged_closeScope (logged : conditions.logged = true) (function : String) (failed : Bool)
    (world : World) :
    (closeScope conditions function failed world).logged =
      world.logged ++ [.leave function failed] := by
  simp only [closeScope, logged, if_true, World.logged_record]
  rfl

theorem invoke_ends (function : FunctionDef) (arguments : List Value) (world : World) :
    let body := sub world.scopes.nextId function.body.block
    let start := entered conditions depth scope function arguments world
    after (invoke conditions depth sub scope function arguments) world =
        closeScope conditions function.name (stops body start) (after body start) ∧
      stops (invoke conditions depth sub scope function arguments) world = stops body start := by
  simp only [after, stops, invoke_eq_match]
  cases sub world.scopes.nextId function.body.block
    (entered conditions depth scope function arguments world) with
  | ok value final => exact ⟨rfl, rfl⟩
  | error halt final => exact ⟨rfl, rfl⟩

theorem invoke_logs (logged : conditions.logged = true) (above : floor < depth)
    (bounded : depth ≤ limit) (disciplined : Disciplined sub)
    (deep : ∀ scope expr, LogsAll limit depth scope (sub scope expr) (calls scope expr))
    (function : FunctionDef) (arguments : List Value) :
    LogsAll limit floor scope (invoke conditions depth sub scope function arguments)
      fun world => [invocation conditions depth sub calls scope function arguments world] := by
  intro world _
  let callee := world.scopes.nextId
  let start := entered conditions depth scope function arguments world
  let failed := stops (sub callee function.body.block) start
  have body := deep callee function.body.block start (Regime.holds_any start)
  have place : start.scopes.depth callee = world.scopes.depth scope + 1 := depth_entered ..
  have opened : start.logged =
      world.logged ++ [.enter function.name depth (start.scopes.depth callee)] := by
    rw [place]
    exact entered_logged scope logged function arguments world
  obtain ⟨ended, stopped⟩ :=
    @invoke_ends conditions depth sub scope function arguments world
  constructor
  · calc
      (after (invoke conditions depth sub scope function arguments) world).logged
          = (after (sub callee function.body.block) start).logged ++
              [.leave function.name failed] := by
            rw [ended, logged_closeScope logged]
        _ = start.logged ++ Call.allRecords (calls callee function.body.block start) ++
              [.leave function.name failed] := by
            rw [body.written]
        _ = world.logged ++ Call.allRecords
              [invocation conditions depth sub calls scope function arguments world] := by
            rw [opened]
            simp [invocation, walkBody, Call.allRecords, Call.records, callee, start, failed]
  · simp only [List.mem_singleton, forall_eq]
    apply Call.Nested.intro above bounded place
    · intro part member halted
      exact body.carried part member halted
    · intro part member
      exact place ▸ body.nested part member
  · simp only [List.mem_singleton, forall_eq]
    exact fun halted => stopped.trans halted
  · have kept : Keeps (Frame scope fun _ => True)
        (invoke conditions depth sub scope function arguments) :=
      frame_invoke disciplined scope function arguments
    exact congrArg List.length ((kept world).ancestors scope)

end

theorem withRoom_logs {conditions : Conditions} (logged : conditions.logged = true) (room : Nat)
    (left : room ≤ conditions.maxDepth) (scope : ScopeId) (expr : Expr) :
    LogsAll conditions.maxDepth (conditions.maxDepth - room) scope
      (withRoom conditions room scope expr) (called conditions room scope expr) := by
  induction room generalizing scope expr with
  | zero => cases expr <;> exact (logs_telling _ _ _).follows_fail _
  | succ room ih =>
      by_cases present : expr = .missing
      · subst present
        exact (logs_telling _ _ _).follows_fail _
      · have deep := ih (Nat.le_of_succ_le left)
        have above : conditions.maxDepth - (room + 1) < conditions.maxDepth - room := by omega
        have telling := logs_telling conditions.maxDepth (conditions.maxDepth - (room + 1)) scope
        intro world holds
        rw [withRoom.eq_3 _ _ _ _ present, onStackOf_eq, called.eq_3 _ _ _ _ _ present]
        refine telling.follows_silent_bind (trace_unlogged conditions expr) (any_upholds _) ?_
          world holds
        intro _ _
        apply telling.step_follows (fun _ _ _ => any_upholds _) scope
        · exact fun part _ => (deep scope part).of_floor_le (Nat.le_of_lt above)
        · exact fun function arguments _ _ => invoke_logs scope logged above (Nat.sub_le _ _)
            (withRoom_disciplined conditions room) deep function arguments
        · trivial

/-- The log of calls of an evaluation in the root scope. Its records are those of the calls that are
made, each call in brackets around the calls that its body makes. The scope depth of a call counts
the calls that are open, its depth is greater than that of the call around it and at most the limit,
and it fails where the evaluation of its body does, and with it every call around it. -/
theorem evaluate_logs_calls (conditions : Conditions) (logged : conditions.logged = true)
    (expr : Expr) (world : World) (root : world.scopes.parent? Scopes.rootId = none) :
    let calls := called conditions conditions.maxDepth Scopes.rootId expr world
    let final := after (evaluate conditions Scopes.rootId expr) world
    final.logged = world.logged ++ Call.allRecords calls ∧
      final.log = world.log ++ String.join ((Call.allRecords calls).map Event.log) ∧
      (∀ call ∈ calls, call.Nested conditions.maxDepth 0 0) ∧
      ∀ call ∈ calls, call.failed = true →
        stops (evaluate conditions Scopes.rootId expr) world = true := by
  intro calls final
  have logs := withRoom_logs logged conditions.maxDepth (Nat.le_refl _) Scopes.rootId expr world
    (Regime.holds_any world)
  have top : world.scopes.depth Scopes.rootId = 0 :=
    List.length_eq_zero_iff.mpr (List.head?_eq_none_iff.mp root)
  have nested := logs.nested
  rw [top, Nat.sub_self] at nested
  have written : final.logged = world.logged ++ Call.allRecords calls := logs.written
  refine ⟨written, ?_, nested, logs.carried⟩
  rw [World.log_eq, World.log_eq, written, List.map_append, String.join_append]

def callingWorld : World where
  functions :=
    [("f", { name := "f", params := [], body := { elements := [.call "g" [.bool false {}] {}] } }),
     ("g", { name := "g", params := ["n"],
             body := { elements := [.branch (.identifier "n" {}) (.identifier "n" {})
               (some (.identifier "m" {})) {}] } })]

theorem evaluate_logs_calls_sample :
    let conditions : Conditions := { logged := true, maxDepth := 9 }
    let expr : Expr := .block [.call "g" [.bool true {}] {}, .call "f" [] {}] {}
    let final := after (evaluate conditions Scopes.rootId expr) callingWorld
    callingWorld.scopes.parent? Scopes.rootId = none ∧
      final.logged = [.enter "g" 2 1, .leave "g" false,
        .enter "f" 2 1, .enter "g" 4 2, .leave "g" true, .leave "f" true] ∧
      stops (evaluate conditions Scopes.rootId expr) callingWorld = true := by
  let call : Call := ⟨"f", 2, 1, [⟨"g", 4, 2, [], true⟩], true⟩
  have calls : called { logged := true, maxDepth := 9 } 9 Scopes.rootId
      (.block [.call "g" [.bool true {}] {}, .call "f" [] {}] {}) callingWorld =
        [⟨"g", 2, 1, [], false⟩, call] := by
    rfl
  intro conditions expr final
  have root : callingWorld.scopes.parent? Scopes.rootId = none := rfl
  obtain ⟨written, -, -, carried⟩ := evaluate_logs_calls conditions rfl expr callingWorld root
  refine ⟨root, written.trans (congrArg Call.allRecords calls), carried call ?_ rfl⟩
  rw [calls]
  simp

end Eval

end Koy
