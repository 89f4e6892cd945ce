import Koy.Proofs.ScopeDiscipline
import Koy.Session

/-! What evaluation keeps to. A regime says which expressions may be evaluated, which values may come
of them and which halts may stop them, such that parts and results of what is allowed are allowed
again, and what the table of functions keeps to as it grows. From a world that keeps to a regime
evaluation comes to such a world, whether it yields a value or halts. -/

namespace Koy

/-- The expressions that are evaluated for the sake of an expression. The body of a function literal
is not among them. -/
def Expr.parts : Expr → List Expr
  | .missing | .int _ _ | .bool _ _ | .text _ _ | .identifier _ _ | .function _ _ _ _ _ => []
  | .sequence items _ | .set items _ | .block items _ | .call _ items _ => items
  | .mapping entries _ | .labeledCall _ entries _ => entries.map Prod.snd
  | .update _ _ operand _ => [operand]
  | .binary _ lhs rhs _ => [lhs, rhs]
  | .declare _ _ value _ | .assign _ value _ | .println value _ => [value]
  | .branch condition consequent alternative _ => condition :: consequent :: alternative.toList
  | .loop condition body _ => [condition, body]

/-- What is allowed in an evaluation. -/
structure Regime where
  expr : Expr → Prop
  value : Value → Prop
  halt : Halt → Prop
  part {whole part : Expr} : expr whole → part ∈ whole.parts → expr part
  int (n : Int64) : value (.int n)
  bool (b : Bool) : value (.bool b)
  text (content : Bytes) : value (.text content)
  sequence {items : List Value} : (∀ item ∈ items, value item) → value (.sequence items)
  set {members : List Value} : (∀ member ∈ members, value member) → value (.ofSet members)
  mapping {entries : List (String × Value)} :
    (∀ entry ∈ entries, value entry.2) → value (.ofMapping entries)
  function {params : List String} {id : BodyId} {elements : List Expr} {place position : Position} :
    expr (.function params id elements place position) →
      value (.function params { id, elements, position := place })
  body {params : List String} {body : Body} : value (.function params body) → expr body.block
  fault {cause : Fault} : cause.kind ≠ .unsupported → halt (.fault cause)
  unwritable (reason : String) : halt (.unwritable reason)
  missing : expr .missing → halt (.fault .missingExpression)
  operator {code : Int} {lhs rhs : Expr} {position : Position} :
    expr (.binary (.unknown code) lhs rhs position) → halt (.fault (.unknownOperator code))
  unfinished {condition body : Expr} {position : Position} :
    expr (.loop condition body position) → halt .unfinished
  table : FunctionTable → Prop := fun _ => True
  define {functions : FunctionTable} (function : FunctionDef) :
    table functions → table (functions.define function) := by exact fun _ _ => trivial

def Value.isScalar : Value → Bool
  | .int _ | .bool _ | .text _ => true
  | _ => false

namespace BinaryOp

theorem apply_ok {op : BinaryOp} {lhs rhs result : Value}
    (applied : op.apply lhs rhs = .ok result) : result.isScalar = true := by
  unfold apply onInts at applied
  repeat' split at applied
  all_goals cases applied <;> rfl

theorem apply_error {op : BinaryOp} {lhs rhs : Value} {fault : Fault}
    (refused : op.apply lhs rhs = .error fault) :
    fault.kind ≠ .unsupported ∨ ∃ code, op = .unknown code ∧ fault = .unknownOperator code := by
  unfold apply onInts at refused
  repeat' split at refused
  all_goals cases refused
  all_goals simp [Fault.kind]

end BinaryOp

theorem Scopes.assign_error {scopes : Scopes} {id : ScopeId} {name : String} {value : Value}
    {fault : Fault} (refused : scopes.assign id name value = .error fault) :
    fault.kind ≠ .unsupported := by
  unfold assign at refused
  repeat' split at refused
  all_goals cases refused
  all_goals simp [Fault.kind]

theorem FunctionTable.find_error {table : FunctionTable} {name : String} {fault : Fault}
    (refused : table.find name = .error fault) : fault.kind ≠ .unsupported := by
  unfold find at refused
  split at refused
  · cases refused
  · cases refused
    simp [Fault.kind]

theorem FunctionTable.find_ok {table : FunctionTable} {name : String} {function : FunctionDef}
    (found : table.find name = .ok function) : NameMap.get? table name = some function := by
  unfold find at found
  split at found
  · rename_i entry present
    cases found
    exact present
  · cases found

theorem Scopes.exists_binding_of_lookup? {scopes : Scopes} {id : ScopeId} {name : String}
    {value : Value} (found : scopes.lookup? id name = some value) :
    ∃ owner binding, (scopes.bindings owner).get? name = some binding ∧ binding.value = value := by
  obtain ⟨binding, bound, same⟩ := Option.map_eq_some_iff.mp found
  obtain ⟨owner, -, present⟩ := Option.bind_eq_some_iff.mp bound
  exact ⟨owner, binding, present, same⟩

/-- What the last scope binds is gone with it; all else stays. -/
theorem Scopes.get?_bindings_of_pop {scopes : Scopes} {id : ScopeId} {name : String}
    {binding : Binding} (bound : (scopes.pop.bindings id).get? name = some binding) :
    (scopes.bindings id).get? name = some binding := by
  by_cases below : id + 1 < scopes.all.size
  · rwa [bindings_pop_of_lt scopes id below] at bound
  · have gone : scopes.pop.all.size ≤ id := by
      rw [size_pop]
      exact Nat.sub_le_of_le_add (Nat.not_lt.mp below)
    rw [bindings_of_size_le _ id gone] at bound
    cases bound

namespace Eval

theorem matchLabels_error {callee : String} {params : List String} {labels : NameMap Expr}
    {fault : Fault} (refused : matchLabels callee params labels = .error fault) :
    fault.kind ≠ .unsupported := by
  induction params generalizing labels with
  | nil => cases refused
  | cons param params ih =>
      rw [matchLabels] at refused
      split at refused
      · cases refused
        simp [Fault.kind]
      · cases deeper : matchLabels callee params (labels.erase param) with
        | error found =>
            rw [deeper] at refused
            cases refused
            exact ih deeper
        | ok result =>
            rw [deeper] at refused
            cases refused

theorem arrangeLabels_error {callee : String} {params : List String}
    {labeled : List (String × Expr)} {fault : Fault}
    (refused : arrangeLabels callee params labeled = .error fault) : fault.kind ≠ .unsupported := by
  unfold arrangeLabels at refused
  cases matched : matchLabels callee params (.ofList labeled) with
  | error found =>
      rw [matched] at refused
      cases refused
      exact matchLabels_error matched
  | ok result =>
      obtain ⟨arguments, left⟩ := result
      rw [matched] at refused
      cases left with
      | nil => cases refused
      | cons entry rest =>
          cases refused
          simp [Fault.kind]

end Eval

structure Regime.Holds (regime : Regime) (world : World) : Prop where
  bound (id : ScopeId) (name : String) (binding : Binding) :
    (world.scopes.bindings id).get? name = some binding → regime.value binding.value
  registered (name : String) (function : FunctionDef) :
    NameMap.get? world.functions name = some function →
      regime.value (.function function.params function.body)
  table : regime.table world.functions

namespace Regime.Holds

variable {regime : Regime} {world : World}

theorem record (holds : regime.Holds world) (event : Event) : regime.Holds (world.record event) :=
  ⟨holds.bound, holds.registered, holds.table⟩

theorem bind (holds : regime.Holds world) (id : ScopeId) (name : String) (binding : Binding)
    (allowed : regime.value binding.value) :
    regime.Holds { world with scopes := world.scopes.bind id name binding } := by
  refine ⟨fun other key found present => ?_, holds.registered, holds.table⟩
  rw [Scopes.get?_bindings_bind] at present
  split at present
  · cases present
    exact allowed
  · exact holds.bound other key found present

theorem define (holds : regime.Holds world) (function : FunctionDef)
    (allowed : regime.value (.function function.params function.body)) :
    regime.Holds { world with functions := world.functions.define function } := by
  refine ⟨holds.bound, fun name found present => ?_, regime.define function holds.table⟩
  rw [FunctionTable.define, NameMap.get?_insert] at present
  split at present
  · cases present
    exact allowed
  · exact holds.registered name found present

theorem push (holds : regime.Holds world) (parent : Option ScopeId) :
    regime.Holds { world with scopes := world.scopes.push parent } := by
  refine ⟨fun id name binding present => ?_, holds.registered, holds.table⟩
  rw [Scopes.bindings_push] at present
  exact holds.bound id name binding present

theorem closeScope (holds : regime.Holds world) (conditions : Conditions) (function : String)
    (failed : Bool) : regime.Holds (Eval.closeScope conditions function failed world) := by
  have popped : regime.Holds { world with scopes := world.scopes.pop } :=
    ⟨fun id name binding present => holds.bound id name binding (Scopes.get?_bindings_of_pop present),
      holds.registered, holds.table⟩
  unfold Eval.closeScope
  split
  · exact popped.record _
  · exact popped

theorem initial (regime : Regime) (empty : regime.table [] := by trivial) : regime.Holds {} := by
  refine ⟨?_, ?_, empty⟩
  · intro id name binding present
    match id with
    | 0 => cases present
    | id + 1 => cases present
  · intro name function present
    cases present

end Regime.Holds

namespace Eval

variable {α β : Type} {regime : Regime}

def Admits (regime : Regime) (post : α → Prop) : EStateM.Result Halt World α → Prop
  | .ok value world => post value ∧ regime.Holds world
  | .error halt world => regime.halt halt ∧ regime.Holds world

/-- From an allowed world the computation comes to an allowed outcome. -/
def Upholds (regime : Regime) (post : α → Prop) (computation : Eval α) : Prop :=
  ∀ world, regime.Holds world → Admits regime post (computation world)

namespace Upholds

variable {post : α → Prop} {post' : β → Prop}

theorem after {computation : Eval α} {world : World} (upholds : Upholds regime post computation)
    (holds : regime.Holds world) : regime.Holds (after computation world) := by
  have admitted := upholds world holds
  unfold Eval.after
  generalize computation world = reached at admitted
  cases reached with
  | ok value final => exact admitted.2
  | error halt final => exact admitted.2

theorem pure {value : α} (allowed : post value) : Upholds regime post (pure value) :=
  fun _ holds => ⟨allowed, holds⟩

theorem throw {halt : Halt} (allowed : regime.halt halt) : Upholds regime post (throw halt) :=
  fun _ holds => ⟨allowed, holds⟩

theorem fail {cause : Fault} (supported : cause.kind ≠ .unsupported) :
    Upholds regime post (fail cause) :=
  throw (regime.fault supported)

theorem ofExcept {result : Except Fault α} (allowed : ∀ value, result = .ok value → post value)
    (supported : ∀ cause, result = .error cause → regime.halt (.fault cause)) :
    Upholds regime post (ofExcept result) := by
  cases result with
  | ok value => exact pure (allowed value rfl)
  | error cause => exact throw (supported cause rfl)

theorem bind {first : Eval α} {next : α → Eval β} (start : Upholds regime post first)
    (rest : ∀ value, post value → Upholds regime post' (next value)) :
    Upholds regime post' (first >>= next) := by
  intro world holds
  have begun := start world holds
  cases outcome : first world with
  | ok value middle =>
      rw [outcome] at begun
      rw [bind_ok next outcome]
      exact rest value begun.1 middle begun.2
  | error halt final =>
      rw [outcome] at begun
      rw [bind_error next outcome]
      exact begun

theorem get_bind {next : World → Eval β}
    (rest : ∀ world, regime.Holds world → Upholds regime post' (next world)) :
    Upholds regime post' (get >>= next) :=
  fun world holds => rest world holds world holds

theorem modify {change : World → World}
    (kept : ∀ world, regime.Holds world → regime.Holds (change world)) :
    Upholds regime (fun _ => True) (modify change) :=
  fun world holds => ⟨trivial, kept world holds⟩

theorem ite {condition : Prop} [Decidable condition] {first second : Eval α}
    (holds : Upholds regime post first) (fails : Upholds regime post second) :
    Upholds regime post (if condition then first else second) := by
  split
  · exact holds
  · exact fails

end Upholds

section Steps

theorem trace_upholds (conditions : Conditions) (expr : Expr) :
    Upholds regime (fun _ => True) (trace conditions expr) := by
  apply Upholds.ite
  · exact .modify fun _ holds => holds.record _
  · exact .pure trivial

theorem print_upholds (conditions : Conditions) (line : Bytes) :
    Upholds regime (fun _ => True) (print conditions line) := by
  unfold print
  split
  · exact .modify fun _ holds => holds.record _
  · exact .throw (regime.unwritable _)

theorem declare_upholds (scope : ScopeId) (name : String) (value : Value) (mutable : Bool)
    (allowed : regime.value value) :
    Upholds regime (fun _ => True) (declare scope name value mutable) := by
  unfold declare
  split
  · exact .modify fun _ holds => holds.define _ allowed
  · exact .modify fun _ holds => holds.bind _ _ _ allowed

theorem assign_upholds (scope : ScopeId) (name : String) (value : Value)
    (allowed : regime.value value) :
    Upholds regime (fun _ => True) (assign scope name value) := by
  intro world holds
  rcases assign_cases scope name value world with
    ⟨fault, refused, stopped⟩ | ⟨owner, -, binding, -, -, done⟩
  · rw [stopped]
    exact ⟨regime.fault (Scopes.assign_error refused), holds⟩
  · rw [done]
    exact ⟨trivial, holds.bind owner name _ allowed⟩

theorem bindAll_upholds (scope : ScopeId) (entries : List (String × Value))
    (allowed : ∀ entry ∈ entries, regime.value entry.2) :
    Upholds regime (fun _ => True) (bindAll scope entries) := by
  induction entries with
  | nil => exact .pure trivial
  | cons entry rest ih =>
      have first : Upholds regime (fun _ => True) (modify fun world => { world with
          scopes := world.scopes.bind scope entry.1 { value := entry.2, mutable := true } }) :=
        .modify fun _ holds => holds.bind _ _ _ (allowed entry List.mem_cons_self)
      apply first.bind
      intro _ _
      exact ih fun other member => allowed other (List.mem_cons_of_mem _ member)

end Steps

section Forms

variable {conditions : Conditions} {depth : Nat} {sub : ScopeId → Expr → Eval Value}
  (inner : ∀ scope expr, regime.expr expr → Upholds regime regime.value (sub scope expr))
  (scope : ScopeId)

include inner

theorem all_upholds (exprs : List Expr) (allowed : ∀ expr ∈ exprs, regime.expr expr) :
    Upholds regime (fun values => ∀ value ∈ values, regime.value value) (all sub scope exprs) := by
  induction exprs with
  | nil => exact .pure (by simp)
  | cons expr rest ih =>
      apply (inner scope expr (allowed expr List.mem_cons_self)).bind
      intro value first
      apply (ih fun other member => allowed other (List.mem_cons_of_mem _ member)).bind
      intro values others
      exact .pure (List.forall_mem_cons.mpr ⟨first, others⟩)

theorem entries_upholds (exprs : List (String × Expr))
    (allowed : ∀ entry ∈ exprs, regime.expr entry.2) :
    Upholds regime (fun entries => ∀ entry ∈ entries, regime.value entry.2)
      (entries sub scope exprs) := by
  induction exprs with
  | nil => exact .pure (by simp)
  | cons entry rest ih =>
      apply (inner scope entry.2 (allowed entry List.mem_cons_self)).bind
      intro value first
      apply (ih fun other member => allowed other (List.mem_cons_of_mem _ member)).bind
      intro values others
      exact .pure (List.forall_mem_cons.mpr ⟨first, others⟩)

theorem last_upholds (result : Value) (exprs : List Expr) (start : regime.value result)
    (allowed : ∀ expr ∈ exprs, regime.expr expr) :
    Upholds regime regime.value (last sub scope result exprs) := by
  induction exprs generalizing result with
  | nil => exact .pure start
  | cons expr rest ih =>
      apply (inner scope expr (allowed expr List.mem_cons_self)).bind
      intro value next
      exact ih value next fun other member => allowed other (List.mem_cons_of_mem _ member)

theorem condition_upholds (form : String) (expr : Expr) (allowed : regime.expr expr) :
    Upholds regime (fun _ => True) (condition sub form scope expr) := by
  apply (inner scope expr allowed).bind
  intro value _
  cases value with
  | bool b => exact .pure trivial
  | _ => exact .fail (by simp [Fault.kind])

theorem repeatWhile_upholds (test body : Expr) (rounds : Nat) (unfinished : regime.halt .unfinished)
    (allowed : regime.expr test) (allowed' : regime.expr body) :
    Upholds regime regime.value (repeatWhile sub scope test body rounds) := by
  induction rounds with
  | zero => exact .throw unfinished
  | succ rounds ih =>
      apply (condition_upholds inner scope "while" test allowed).bind
      intro holds _
      apply Upholds.ite
      · have round : Upholds regime (fun _ => True) (discard (sub scope body)) :=
          (inner scope body allowed').bind fun _ _ => .pure trivial
        exact round.bind fun _ _ => ih
      · exact .pure (regime.bool true)

theorem update_upholds (op : UpdateOp) (operand : Expr) (allowed : regime.expr operand) :
    Upholds regime regime.value (update sub op scope operand) := by
  cases operand with
  | identifier name =>
      apply (inner scope _ allowed).bind
      intro value _
      cases value with
      | int n =>
          apply (assign_upholds scope name _ (regime.int _)).bind
          intro _ _
          exact .pure (regime.int _)
      | _ => exact .fail (by simp [Fault.kind])
  | _ => exact .fail (by simp [Fault.kind])

theorem body_upholds (function : FunctionDef)
    (allowed : regime.value (.function function.params function.body)) :
    Upholds regime regime.value (fun world => match sub scope function.body.block world with
      | .ok value world => .ok value (closeScope conditions function.name false world)
      | .error halt world => .error halt (closeScope conditions function.name true world)) := by
  intro world holds
  have ran := inner scope function.body.block (regime.body allowed) world holds
  dsimp only
  generalize sub scope function.body.block world = reached at ran
  cases reached with
  | ok value final => exact ⟨ran.1, ran.2.closeScope conditions function.name false⟩
  | error halt final => exact ⟨ran.1, ran.2.closeScope conditions function.name true⟩

theorem invoke_upholds (function : FunctionDef) (arguments : List Value)
    (allowed : regime.value (.function function.params function.body))
    (given : ∀ argument ∈ arguments, regime.value argument) :
    Upholds regime regime.value (invoke conditions depth sub scope function arguments) := by
  have opened : Upholds regime (fun _ => True) (openScope scope) :=
    fun _ holds => ⟨trivial, holds.push (some scope)⟩
  apply opened.bind
  intro callee _
  have bound : Upholds regime (fun _ => True) (bindAll callee (function.params.zip arguments)) :=
    bindAll_upholds callee _ fun entry member => given entry.2 (List.of_mem_zip member).2
  apply bound.bind
  intro _ _
  have body := @body_upholds regime conditions sub inner callee function allowed
  apply Upholds.ite
  · exact fun world holds => body (world.record _) (holds.record _)
  · exact body

omit inner in
theorem find_upholds {world : World} (holds : regime.Holds world) (callee : String) :
    Upholds regime (fun function => regime.value (.function function.params function.body))
      (ofExcept (world.functions.find callee)) := by
  apply Upholds.ofExcept
  · intro function found
    exact holds.registered callee function (FunctionTable.find_ok found)
  · intro cause refused
    exact regime.fault (FunctionTable.find_error refused)

theorem call_upholds (callee : String) (arguments : List Expr)
    (allowed : ∀ argument ∈ arguments, regime.expr argument) :
    Upholds regime regime.value (call conditions depth sub scope callee arguments) := by
  apply Upholds.get_bind
  intro world holds
  apply (find_upholds holds callee).bind
  intro function registered
  have rest : Upholds regime regime.value (do
      let values ← all sub scope arguments
      invoke conditions depth sub scope function values) :=
    (all_upholds inner scope arguments allowed).bind fun values given =>
      invoke_upholds inner scope function values registered given
  apply Upholds.ite
  · have refused : Upholds regime (fun _ => True)
        (fail (.argumentCount callee function.params.length arguments.length) : Eval Unit) :=
      .fail (by simp [Fault.kind])
    exact refused.bind fun _ _ => rest
  · exact rest

omit inner in
theorem arrangeLabels_upholds (callee : String) (params : List String)
    (labeled : List (String × Expr)) (allowed : ∀ entry ∈ labeled, regime.expr entry.2) :
    Upholds regime (fun arguments => ∀ argument ∈ arguments, regime.expr argument)
      (ofExcept (arrangeLabels callee params labeled)) := by
  apply Upholds.ofExcept
  · intro arguments arranged argument member
    obtain ⟨label, present⟩ := mem_of_arrangeLabels _ _ _ _ arranged argument member
    exact allowed (label, argument) present
  · intro cause refused
    exact regime.fault (arrangeLabels_error refused)

theorem labeledCall_upholds (callee : String) (labeled : List (String × Expr))
    (allowed : ∀ entry ∈ labeled, regime.expr entry.2) :
    Upholds regime regime.value (labeledCall conditions depth sub scope callee labeled) := by
  apply Upholds.get_bind
  intro world holds
  apply (find_upholds holds callee).bind
  intro function registered
  apply (arrangeLabels_upholds callee function.params labeled allowed).bind
  intro arguments each
  apply (all_upholds inner scope arguments each).bind
  intro values given
  exact invoke_upholds inner scope function values registered given

omit inner in
theorem apply_upholds (op : BinaryOp) (lhs rhs : Value)
    (unknown : ∀ code, op = .unknown code → regime.halt (.fault (.unknownOperator code))) :
    Upholds regime regime.value (ofExcept (op.apply lhs rhs)) := by
  apply Upholds.ofExcept
  · intro result applied
    have scalar := BinaryOp.apply_ok applied
    cases result with
    | int n => exact regime.int n
    | bool b => exact regime.bool b
    | text content => exact regime.text content
    | _ => cases scalar
  · intro cause refused
    rcases BinaryOp.apply_error refused with supported | ⟨code, named, rfl⟩
    · exact regime.fault supported
    · exact unknown code named

theorem step_upholds (expr : Expr) (allowed : regime.expr expr) :
    Upholds regime regime.value (step conditions depth sub scope expr) := by
  have parts : ∀ part ∈ expr.parts, regime.expr part := fun part member => regime.part allowed member
  cases expr with
  | missing => exact .throw (regime.missing allowed)
  | int n => exact .pure (regime.int n)
  | bool b => exact .pure (regime.bool b)
  | text content => exact .pure (regime.text content)
  | sequence items =>
      apply (all_upholds inner scope items parts).bind
      intro values each
      exact .pure (regime.sequence each)
  | set items =>
      apply (all_upholds inner scope items parts).bind
      intro values each
      exact .pure (regime.set each)
  | mapping items =>
      apply (entries_upholds inner scope items (List.forall_mem_map.mp parts)).bind
      intro values each
      exact .pure (regime.mapping each)
  | function => exact .pure (regime.function allowed)
  | identifier name =>
      apply Upholds.get_bind
      intro world holds
      split
      · rename_i value found
        obtain ⟨owner, binding, bound, rfl⟩ := Scopes.exists_binding_of_lookup? found
        exact .pure (holds.bound owner name binding bound)
      · exact .fail (by simp [Fault.kind])
  | update op before operand =>
      exact update_upholds inner scope op operand (parts operand (by simp [Expr.parts]))
  | binary op lhs rhs =>
      apply (inner scope lhs (parts lhs (by simp [Expr.parts]))).bind
      intro left _
      apply (inner scope rhs (parts rhs (by simp [Expr.parts]))).bind
      intro right _
      apply apply_upholds
      rintro code rfl
      exact regime.operator allowed
  | declare name mutable value =>
      apply (inner scope value (parts value (by simp [Expr.parts]))).bind
      intro result yielded
      apply (declare_upholds scope name result mutable yielded).bind
      intro _ _
      exact .pure yielded
  | assign name value =>
      apply (inner scope value (parts value (by simp [Expr.parts]))).bind
      intro result yielded
      apply (assign_upholds scope name result yielded).bind
      intro _ _
      exact .pure yielded
  | println argument =>
      apply (inner scope argument (parts argument (by simp [Expr.parts]))).bind
      intro result yielded
      apply (print_upholds conditions _).bind
      intro _ _
      exact .pure yielded
  | branch test consequent alternative =>
      apply (condition_upholds inner scope _ test (parts test (by simp [Expr.parts]))).bind
      intro holds _
      apply Upholds.ite
      · exact inner scope consequent (parts consequent (by simp [Expr.parts]))
      · cases alternative with
        | none => exact .pure (regime.bool true)
        | some other => exact inner scope other (parts other (by simp [Expr.parts]))
  | loop test body =>
      apply repeatWhile_upholds inner scope test body conditions.rounds (regime.unfinished allowed)
      · exact parts test (by simp [Expr.parts])
      · exact parts body (by simp [Expr.parts])
  | block elements => exact last_upholds inner scope _ elements (regime.int 0) parts
  | call callee arguments => exact call_upholds inner scope callee arguments parts
  | labeledCall callee arguments =>
      exact labeledCall_upholds inner scope callee arguments (List.forall_mem_map.mp parts)

end Forms

theorem withRoom_upholds (conditions : Conditions) (room : Nat) (scope : ScopeId) (expr : Expr)
    (allowed : regime.expr expr) :
    Upholds regime regime.value (withRoom conditions room scope expr) := by
  induction room generalizing scope expr with
  | zero =>
      rw [withRoom.eq_def]
      split
      · exact .throw (regime.missing allowed)
      · exact .fail (by simp [Fault.kind])
      · contradiction
  | succ room ih =>
      by_cases present : expr = .missing
      · subst present
        rw [withRoom]
        exact .throw (regime.missing allowed)
      · rw [withRoom.eq_3 _ _ _ _ present, onStackOf_eq]
        exact (trace_upholds conditions expr).bind fun _ _ => step_upholds ih scope expr allowed

theorem evaluate_upholds (conditions : Conditions) (scope : ScopeId) (expr : Expr)
    (allowed : regime.expr expr) :
    Upholds regime regime.value (evaluate conditions scope expr) :=
  withRoom_upholds conditions conditions.maxDepth scope expr allowed

end Eval

def Regime.definition (regime : Regime) : Definition → Prop
  | .function defined => regime.value (.function defined.params defined.body)
  | .value defined => regime.expr defined.value
  | .missing => regime.halt (.fault .missingDefinition)

def Regime.entry (regime : Regime) : Entry → Prop
  | .function defined => regime.value (.function defined.params defined.body)
  | .expression expr => regime.expr expr

namespace Eval

variable {regime : Regime}

theorem define_upholds (conditions : Conditions) (definition : Definition)
    (allowed : regime.definition definition) :
    Upholds regime regime.value (define conditions definition) := by
  cases definition with
  | function defined =>
      have added : Upholds regime (fun _ => True) (modify fun world =>
          { world with functions := world.functions.define defined }) :=
        .modify fun _ holds => holds.define defined allowed
      exact added.bind fun _ _ => .pure allowed
  | value defined =>
      apply (evaluate_upholds conditions Scopes.rootId defined.value allowed).bind
      intro value yielded
      apply (declare_upholds Scopes.rootId defined.name value defined.mutable yielded).bind
      intro _ _
      exact .pure yielded
  | missing => exact .throw allowed

theorem defineAll_upholds (conditions : Conditions) (definitions : List Definition)
    (allowed : ∀ definition ∈ definitions, regime.definition definition) :
    Upholds regime (fun _ => True) (defineAll conditions definitions) := by
  induction definitions with
  | nil => exact .pure trivial
  | cons definition rest ih =>
      have first : Upholds regime (fun _ => True) (discard (define conditions definition)) :=
        (define_upholds conditions definition (allowed definition List.mem_cons_self)).bind
          fun _ _ => .pure trivial
      apply first.bind
      intro _ _
      exact ih fun other member => allowed other (List.mem_cons_of_mem _ member)

theorem runProgram_upholds (conditions : Conditions) (program : Program)
    (allowed : ∀ definition ∈ program.definitions, regime.definition definition) :
    Upholds regime regime.value (runProgram conditions (some program)) := by
  apply (defineAll_upholds conditions program.definitions allowed).bind
  intro _ _
  apply Upholds.get_bind
  intro world holds
  split
  · rename_i function found
    exact evaluate_upholds conditions _ _ (regime.body (holds.registered entryPoint function found))
  · exact .fail (by simp [Fault.kind])

theorem enterOne_upholds (conditions : Conditions) (entry : Entry) (allowed : regime.entry entry) :
    Upholds regime regime.value (Session.enterOne conditions entry) := by
  cases entry with
  | function defined => exact define_upholds conditions (.function defined) allowed
  | expression expr => exact evaluate_upholds conditions Scopes.rootId expr allowed

end Eval

def Regime.failure (regime : Regime) : Failure → Prop
  | .halted halt => regime.halt halt
  | .malformed _ _ | .other _ => True

namespace Session

variable {regime : Regime} {session : Session}

theorem run_upholds {α : Type} {post : α → Prop} {computation : Eval α}
    (holds : regime.Holds session.world) (upholds : Eval.Upholds regime post computation) :
    (∀ failure, (session.run computation).1 = .error failure → regime.failure failure) ∧
      regime.Holds (session.run computation).2.world := by
  have admitted := upholds session.world holds
  simp only [run, EStateM.run]
  generalize computation session.world = reached at admitted
  cases reached with
  | ok value world => exact ⟨fun _ failed => (by cases failed), admitted.2⟩
  | error halt world =>
      refine ⟨fun failure failed => ?_, admitted.2⟩
      cases failed
      exact admitted.1

theorem run_yields {α : Type} {post : α → Prop} {computation : Eval α} {value : α}
    (holds : regime.Holds session.world) (upholds : Eval.Upholds regime post computation)
    (yielded : (session.run computation).1 = .ok value) : post value := by
  have admitted := upholds session.world holds
  simp only [run, EStateM.run] at yielded
  generalize computation session.world = reached at admitted yielded
  cases reached with
  | ok result world =>
      cases yielded
      exact admitted.1
  | error halt world => cases yielded

theorem enterAll_upholds (holds : regime.Holds session.world) (entries : List Entry)
    (allowed : ∀ entry ∈ entries, regime.entry entry) :
    (∀ failure ∈ (session.enterAll entries).2.1, regime.failure failure) ∧
      regime.Holds (session.enterAll entries).2.2.world := by
  induction entries generalizing session with
  | nil => exact ⟨fun _ failed => (by cases failed), holds⟩
  | cons entry rest ih =>
      obtain ⟨here, others⟩ := List.forall_mem_cons.mp allowed
      obtain ⟨failing, kept⟩ := run_upholds holds (Eval.enterOne_upholds session.conditions entry here)
      rw [enterAll]
      generalize session.run (enterOne session.conditions entry) = first at failing kept
      obtain ⟨result, reached⟩ := first
      cases result with
      | ok value => exact ih kept others
      | error failure =>
          refine ⟨fun found stopped => ?_, kept⟩
          cases stopped
          exact failing failure rfl

theorem enterAll_yields (holds : regime.Holds session.world) (entries : List Entry)
    (allowed : ∀ entry ∈ entries, regime.entry entry) :
    ∀ value ∈ (session.enterAll entries).1, regime.value value := by
  induction entries generalizing session with
  | nil => exact fun _ none => absurd none List.not_mem_nil
  | cons entry rest ih =>
      obtain ⟨here, others⟩ := List.forall_mem_cons.mp allowed
      have upholds := Eval.enterOne_upholds session.conditions entry here
      have kept := (run_upholds holds upholds).2
      have yields := fun value => @run_yields regime session _ _ _ value holds upholds
      rw [enterAll]
      generalize session.run (enterOne session.conditions entry) = first at kept yields
      obtain ⟨result, reached⟩ := first
      cases result with
      | ok value => exact List.forall_mem_cons.mpr ⟨yields value rfl, ih kept others⟩
      | error failure => exact fun _ none => absurd none List.not_mem_nil

end Session

end Koy
