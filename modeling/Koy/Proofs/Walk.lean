import Koy.Proofs.Regimes

/-! Going through an expression as evaluation does. A walk collects what is met on the way, given what
is met inside the parts of an expression and within a call of a function. A relation between
computations and what is met in them that goes from parts to wholes holds of an evaluation and its
walk. -/

namespace Koy

def Regime.any : Regime where
  expr _ := True
  value _ := True
  halt _ := True
  part _ _ := trivial
  int _ := trivial
  bool _ := trivial
  text _ := trivial
  sequence _ := trivial
  set _ := trivial
  mapping _ := trivial
  function _ := trivial
  body _ := trivial
  fault _ := trivial
  unwritable _ := trivial
  missing _ := trivial
  operator _ := trivial
  unfinished _ := trivial

theorem Regime.holds_any (world : World) : Regime.any.Holds world :=
  ⟨fun _ _ _ _ => trivial, fun _ _ _ => trivial, trivial⟩

namespace Eval

variable {α β ι : Type}

theorem any_upholds (computation : Eval α) : Upholds .any (fun _ => True) computation := by
  intro world _
  unfold Admits
  split
  · exact ⟨trivial, Regime.holds_any _⟩
  · exact ⟨trivial, Regime.holds_any _⟩

def onward (first : Eval α) (later : α → World → List ι) (world : World) : List ι :=
  match first world with
  | .ok value middle => later value middle
  | .error _ _ => []

section

variable (conditions : Conditions) (sub : ScopeId → Expr → Eval Value)
  (inside : ScopeId → Expr → World → List ι)
  (within : ScopeId → FunctionDef → List Value → World → List ι)

def walkAll (scope : ScopeId) : List Expr → World → List ι
  | [], _ => []
  | expr :: rest, world =>
    inside scope expr world ++ onward (sub scope expr) (fun _ => walkAll scope rest) world

def walkLoop (scope : ScopeId) (test body : Expr) : Nat → World → List ι
  | 0, _ => []
  | rounds + 1, world =>
    let round (holds : Bool) (world : World) : List ι :=
      if holds then
        inside scope body world ++
          onward (sub scope body) (fun _ => walkLoop scope test body rounds) world
      else []
    inside scope test world ++ onward (condition sub "while" scope test) round world

/-- What is met when a function is given these arguments: first in the arguments, then in the call. -/
def walkCall (scope : ScopeId) (function : FunctionDef) (arguments : List Expr) (world : World) :
    List ι :=
  walkAll sub inside scope arguments world ++
    onward (all sub scope arguments) (within scope function) world

/-- What is met in the parts of an expression. -/
def walk (scope : ScopeId) : Expr → World → List ι
  | .missing, _ | .int _ _, _ | .bool _ _, _ | .text _ _, _ | .identifier _ _, _
  | .function _ _ _ _ _, _ => []
  | .sequence items _, world | .set items _, world | .block items _, world =>
    walkAll sub inside scope items world
  | .mapping entries _, world => walkAll sub inside scope (entries.map Prod.snd) world
  | .update _ _ (.identifier name position) _, world =>
    inside scope (.identifier name position) world
  | .update _ _ _ _, _ => []
  | .binary _ lhs rhs _, world =>
    inside scope lhs world ++ onward (sub scope lhs) (fun _ => inside scope rhs) world
  | .declare _ _ value _, world | .assign _ value _, world | .println value _, world =>
    inside scope value world
  | .branch test consequent alternative _, world =>
    let chosen (holds : Bool) : World → List ι :=
      if holds then inside scope consequent else alternative.elim (fun _ => []) (inside scope)
    inside scope test world ++ onward (condition sub "if" scope test) chosen world
  | .loop test body _, world => walkLoop sub inside scope test body conditions.rounds world
  | .call callee arguments _, world =>
    let given (function : FunctionDef) : World → List ι :=
      if arguments.length ≠ function.params.length then fun _ => []
      else walkCall sub inside within scope function arguments
    onward (ofExcept (world.functions.find callee)) given world
  | .labeledCall callee labeled _, world =>
    let given (function : FunctionDef) : World → List ι :=
      onward (ofExcept (arrangeLabels callee function.params labeled)) fun arguments =>
        walkCall sub inside within scope function arguments
    onward (ofExcept (world.functions.find callee)) given world

def walkBody (depth : Nat) (scope : ScopeId) (function : FunctionDef) (arguments : List Value)
    (world : World) : List ι :=
  inside world.scopes.nextId function.body.block
    (entered conditions depth scope function arguments world)

end

/-- A relation between computations, what is met in them and the worlds they start from, that goes
from parts to wholes. Where nothing is met the worlds before and after are related by `still`. -/
structure Telling (still : World → World → Prop)
    (tells : (α : Type) → Eval α → List ι → World → Prop) : Prop where
  refl (world : World) : still world world
  trans (first second third : World) : still first second → still second third → still first third
  print (world : World) (line : Bytes) : still world (world.record (.print line))
  bind (world : World) (scope : ScopeId) (name : String) (binding : Binding) :
    still world { world with scopes := world.scopes.bind scope name binding }
  define (world : World) (function : FunctionDef) :
    still world { world with functions := world.functions.define function }
  silent {α : Type} {computation : Eval α} {world : World} :
    still world (after computation world) → tells α computation [] world
  bind_ok {α β : Type} {first : Eval α} {next : α → Eval β} {world middle : World} {value : α}
    {before later : List ι} : first world = .ok value middle → tells α first before world →
    tells β (next value) later middle → tells β (first >>= next) (before ++ later) world
  bind_error {α β : Type} {first : Eval α} {next : α → Eval β} {world final : World} {halt : Halt}
    {before : List ι} : first world = .error halt final → tells α first before world →
    tells β (first >>= next) before world

namespace Telling

variable {still : World → World → Prop} {tells : (α : Type) → Eval α → List ι → World → Prop}
  (telling : Telling still tells)

include telling

theorem still_print (conditions : Conditions) (line : Bytes) :
    Keeps still (Eval.print conditions line) := by
  unfold Eval.print
  split
  · exact keeps_modify fun world => telling.print world line
  · exact keeps_throw telling.refl _

theorem still_declare (scope : ScopeId) (name : String) (value : Value) (mutable : Bool) :
    Keeps still (declare scope name value mutable) := by
  unfold declare
  split
  · exact keeps_modify fun world => telling.define world _
  · exact keeps_modify fun world => telling.bind world _ _ _

theorem still_assign (scope : ScopeId) (name : String) (value : Value) :
    Keeps still (assign scope name value) := by
  intro world
  rcases assign_cases scope name value world with
    ⟨fault, -, refused⟩ | ⟨owner, -, binding, -, -, done⟩
  · rw [after, refused]
    exact telling.refl world
  · rw [after, done]
    exact telling.bind world _ _ _

theorem still_bindAll (scope : ScopeId) (entries : List (String × Value)) :
    Keeps still (bindAll scope entries) := by
  induction entries with
  | nil => exact keeps_pure telling.refl ()
  | cons entry rest ih =>
      apply Keeps.bind telling.trans (keeps_modify fun world => telling.bind world _ _ _)
      exact fun _ => ih

end Telling

def Follows (regime : Regime) (tells : (α : Type) → Eval α → List ι → World → Prop)
    (computation : Eval α) (met : World → List ι) : Prop :=
  ∀ world, regime.Holds world → tells α computation (met world) world

theorem Follows.ite {regime : Regime} {tells : (α : Type) → Eval α → List ι → World → Prop}
    {condition : Prop} [Decidable condition] {first second : Eval α} {met met' : World → List ι}
    (holds : Follows regime tells first met) (fails : Follows regime tells second met') :
    Follows regime tells (if condition then first else second) (if condition then met else met') := by
  split
  · exact holds
  · exact fails

namespace Telling

variable {regime : Regime} {still : World → World → Prop}
  {tells : (α : Type) → Eval α → List ι → World → Prop} (telling : Telling still tells)

include telling

theorem follows_silent {computation : Eval α} (kept : Keeps still computation) :
    Follows regime tells computation fun _ => [] :=
  fun world _ => telling.silent (kept world)

theorem follows_pure (value : α) : Follows regime tells (pure value) fun _ => [] :=
  telling.follows_silent (keeps_pure telling.refl value)

theorem follows_fail (fault : Fault) : Follows regime tells (fail fault : Eval α) fun _ => [] :=
  telling.follows_silent (keeps_throw telling.refl _)

theorem follows_bind {post : α → Prop} {first : Eval α} {next : α → Eval β}
    {before : World → List ι} {later : α → World → List ι}
    (start : Follows regime tells first before) (upholds : Upholds regime post first)
    (rest : ∀ value, post value → Follows regime tells (next value) (later value)) :
    Follows regime tells (first >>= next) fun world => before world ++ onward first later world := by
  intro world holds
  have begun := start world holds
  have admitted := upholds world holds
  cases outcome : first world with
  | ok value middle =>
      rw [outcome] at admitted
      simp only [onward, outcome]
      exact telling.bind_ok outcome begun (rest value admitted.1 middle admitted.2)
  | error halt final =>
      simp only [onward, outcome, List.append_nil]
      exact telling.bind_error outcome begun

theorem follows_bind_silent {first : Eval α} {next : α → Eval β} {before : World → List ι}
    (start : Follows regime tells first before) (rest : ∀ value, Keeps still (next value)) :
    Follows regime tells (first >>= next) before := by
  intro world holds
  have begun := start world holds
  cases outcome : first world with
  | ok value middle =>
      rw [← List.append_nil (before world)]
      exact telling.bind_ok outcome begun (telling.silent (rest value middle))
  | error halt final => exact telling.bind_error outcome begun

theorem follows_silent_bind {post : α → Prop} {first : Eval α} {next : α → Eval β}
    {later : α → World → List ι} (kept : Keeps still first) (upholds : Upholds regime post first)
    (rest : ∀ value, post value → Follows regime tells (next value) (later value)) :
    Follows regime tells (first >>= next) (onward first later) :=
  telling.follows_bind (telling.follows_silent kept) upholds rest

theorem follows_get_bind {next : World → Eval β} {met : World → List ι}
    (rest : ∀ world, regime.Holds world → tells β (next world) (met world) world) :
    Follows regime tells (get >>= next) met := by
  intro world holds
  have read : (get : Eval World) world = .ok world world := rfl
  exact telling.bind_ok read (telling.silent (telling.refl world)) (rest world holds)

section Forms

variable {conditions : Conditions} {depth : Nat} {sub : ScopeId → Expr → Eval Value}
  {inside : ScopeId → Expr → World → List ι}
  {within : ScopeId → FunctionDef → List Value → World → List ι}
  (inner : ∀ scope expr, regime.expr expr → Upholds regime regime.value (sub scope expr))
  (scope : ScopeId)
  (follows : ∀ expr, regime.expr expr → Follows regime tells (sub scope expr) (inside scope expr))

include inner follows

theorem all_follows (exprs : List Expr) (allowed : ∀ expr ∈ exprs, regime.expr expr) :
    Follows regime tells (all sub scope exprs) (walkAll sub inside scope exprs) := by
  induction exprs with
  | nil => exact telling.follows_pure _
  | cons expr rest ih =>
      obtain ⟨here, others⟩ := List.forall_mem_cons.mp allowed
      apply telling.follows_bind (follows expr here) (inner scope expr here)
      intro value _
      exact telling.follows_bind_silent (ih others) fun values => keeps_pure telling.refl _

theorem entries_follows (exprs : List (String × Expr))
    (allowed : ∀ entry ∈ exprs, regime.expr entry.2) :
    Follows regime tells (entries sub scope exprs)
      (walkAll sub inside scope (exprs.map Prod.snd)) := by
  induction exprs with
  | nil => exact telling.follows_pure _
  | cons entry rest ih =>
      obtain ⟨here, others⟩ := List.forall_mem_cons.mp allowed
      apply telling.follows_bind (follows entry.2 here) (inner scope entry.2 here)
      intro value _
      exact telling.follows_bind_silent (ih others) fun values => keeps_pure telling.refl _

theorem last_follows (result : Value) (exprs : List Expr)
    (allowed : ∀ expr ∈ exprs, regime.expr expr) :
    Follows regime tells (last sub scope result exprs) (walkAll sub inside scope exprs) := by
  induction exprs generalizing result with
  | nil => exact telling.follows_pure _
  | cons expr rest ih =>
      obtain ⟨here, others⟩ := List.forall_mem_cons.mp allowed
      apply telling.follows_bind (follows expr here) (inner scope expr here)
      intro value _
      exact ih value others

omit inner in
theorem condition_follows (form : String) (expr : Expr) (allowed : regime.expr expr) :
    Follows regime tells (condition sub form scope expr) (inside scope expr) := by
  apply telling.follows_bind_silent (follows expr allowed)
  intro value
  cases value with
  | bool b => exact keeps_pure telling.refl b
  | _ => exact keeps_throw telling.refl _

theorem repeatWhile_follows (test body : Expr) (rounds : Nat) (allowed : regime.expr test)
    (allowed' : regime.expr body) :
    Follows regime tells (repeatWhile sub scope test body rounds)
      (walkLoop sub inside scope test body rounds) := by
  induction rounds with
  | zero => exact telling.follows_silent (keeps_throw telling.refl _)
  | succ rounds ih =>
      apply telling.follows_bind (telling.condition_follows scope follows "while" test allowed)
        (condition_upholds inner scope "while" test allowed)
      intro holds _
      cases holds with
      | true =>
          change Follows regime tells (discard (sub scope body) >>= fun _ =>
            repeatWhile sub scope test body rounds) _
          rw [discard_bind]
          exact telling.follows_bind (follows body allowed') (inner scope body allowed')
            fun _ _ => ih
      | false => exact telling.follows_pure _

omit inner in
theorem update_follows (op : UpdateOp) (before : Bool) (operand : Expr) (position : Position)
    (allowed : regime.expr operand) :
    Follows regime tells (update sub op scope operand)
      (walk conditions sub inside within scope (.update op before operand position)) := by
  cases operand with
  | identifier name =>
      apply telling.follows_bind_silent (follows _ allowed)
      intro value
      cases value with
      | int n =>
          apply Keeps.bind telling.trans (telling.still_assign _ _ _)
          exact fun _ => keeps_pure telling.refl _
      | _ => exact keeps_throw telling.refl _
  | _ => exact telling.follows_fail _

variable (invoked : ∀ function arguments,
  regime.value (.function function.params function.body) →
  (∀ argument ∈ arguments, regime.value argument) →
  Follows regime tells (invoke conditions depth sub scope function arguments)
    (within scope function arguments))

include invoked

theorem invocation_follows (function : FunctionDef) (arguments : List Expr)
    (registered : regime.value (.function function.params function.body))
    (allowed : ∀ argument ∈ arguments, regime.expr argument) :
    Follows regime tells (do
        let values ← all sub scope arguments
        invoke conditions depth sub scope function values)
      (walkCall sub inside within scope function arguments) := by
  apply telling.follows_bind (telling.all_follows inner scope follows arguments allowed)
    (all_upholds inner scope arguments allowed)
  intro values given
  exact invoked function values registered given

theorem call_follows (callee : String) (arguments : List Expr) (position : Position)
    (allowed : ∀ argument ∈ arguments, regime.expr argument) :
    Follows regime tells (call conditions depth sub scope callee arguments)
      (walk conditions sub inside within scope (.call callee arguments position)) := by
  apply telling.follows_get_bind
  intro world holds
  refine telling.follows_silent_bind (keeps_ofExcept telling.refl _) (find_upholds holds callee) ?_
    world holds
  intro function registered
  apply Follows.ite
  · exact telling.follows_silent fun world => telling.refl world
  · exact telling.invocation_follows inner scope follows invoked function arguments registered allowed

theorem labeledCall_follows (callee : String) (labeled : List (String × Expr)) (position : Position)
    (allowed : ∀ entry ∈ labeled, regime.expr entry.2) :
    Follows regime tells (labeledCall conditions depth sub scope callee labeled)
      (walk conditions sub inside within scope (.labeledCall callee labeled position)) := by
  apply telling.follows_get_bind
  intro world holds
  refine telling.follows_silent_bind (keeps_ofExcept telling.refl _) (find_upholds holds callee) ?_
    world holds
  intro function registered
  apply telling.follows_silent_bind (keeps_ofExcept telling.refl _)
    (arrangeLabels_upholds callee function.params labeled allowed)
  intro arguments each
  exact telling.invocation_follows inner scope follows invoked function arguments registered each

theorem step_follows (expr : Expr) (allowed : regime.expr expr) :
    Follows regime tells (step conditions depth sub scope expr)
      (walk conditions sub inside within scope expr) := by
  have parts : ∀ part ∈ expr.parts, regime.expr part := fun part member => regime.part allowed member
  have done {α : Type} (value : α) : Keeps still (pure value : Eval α) := keeps_pure telling.refl value
  cases expr with
  | missing => exact telling.follows_fail _
  | int | bool | text | function => exact telling.follows_pure _
  | sequence items =>
      exact telling.follows_bind_silent (telling.all_follows inner scope follows items parts)
        fun _ => done _
  | set items =>
      exact telling.follows_bind_silent (telling.all_follows inner scope follows items parts)
        fun _ => done _
  | mapping items =>
      have each := List.forall_mem_map.mp parts
      exact telling.follows_bind_silent (telling.entries_follows inner scope follows items each)
        fun _ => done _
  | identifier name =>
      apply telling.follows_silent
      apply Keeps.bind telling.trans (keeps_get telling.refl)
      intro world
      split
      · exact done _
      · exact keeps_throw telling.refl _
  | update op before operand position =>
      exact telling.update_follows scope follows op before operand position
        (parts operand (by simp [Expr.parts]))
  | binary op lhs rhs =>
      have left := parts lhs (by simp [Expr.parts])
      have right := parts rhs (by simp [Expr.parts])
      apply telling.follows_bind (follows lhs left) (inner scope lhs left)
      intro _ _
      exact telling.follows_bind_silent (follows rhs right) fun _ => keeps_ofExcept telling.refl _
  | declare name mutable value =>
      apply telling.follows_bind_silent (follows value (parts value (by simp [Expr.parts])))
      exact fun _ => Keeps.bind telling.trans (telling.still_declare _ _ _ _) fun _ => done _
  | assign name value =>
      apply telling.follows_bind_silent (follows value (parts value (by simp [Expr.parts])))
      exact fun _ => Keeps.bind telling.trans (telling.still_assign _ _ _) fun _ => done _
  | println argument =>
      apply telling.follows_bind_silent (follows argument (parts argument (by simp [Expr.parts])))
      exact fun _ => Keeps.bind telling.trans (telling.still_print _ _) fun _ => done _
  | branch test consequent alternative =>
      have tested := parts test (by simp [Expr.parts])
      apply telling.follows_bind (telling.condition_follows scope follows "if" test tested)
        (condition_upholds inner scope "if" test tested)
      intro holds _
      apply Follows.ite
      · exact follows consequent (parts consequent (by simp [Expr.parts]))
      · cases alternative with
        | none => exact telling.follows_pure _
        | some other => exact follows other (parts other (by simp [Expr.parts]))
  | loop test body =>
      exact telling.repeatWhile_follows inner scope follows test body conditions.rounds
        (parts test (by simp [Expr.parts])) (parts body (by simp [Expr.parts]))
  | block elements => exact telling.last_follows inner scope follows _ elements parts
  | call callee arguments position =>
      exact telling.call_follows inner scope follows invoked callee arguments position parts
  | labeledCall callee arguments position =>
      exact telling.labeledCall_follows inner scope follows invoked callee arguments position
        (List.forall_mem_map.mp parts)

end Forms

end Telling

end Eval

end Koy
