import Mathlib.Data.List.Find
import Koy.Proofs.Composition
import Koy.Proofs.ScopeDiscipline

/-! What an evaluation can see. Of the scopes an evaluation reads and changes only the active one and
those around it: in two worlds that agree on these and on the table of functions, whatever other
scopes hold, an evaluation comes to the same outcome, writes the same, and leaves worlds that agree
again. -/

namespace Koy

/-- As many scopes, with the same scopes around the given one and the same bindings in all of
these. -/
structure Scopes.Share (scope : ScopeId) (scopes other : Scopes) : Prop where
  size : other.all.size = scopes.all.size
  chain : other.chain scope = scopes.chain scope
  bindings (id : ScopeId) : id ∈ scopes.chain scope → other.bindings id = scopes.bindings id

structure World.Share (scope : ScopeId) (world other : World) : Prop where
  functions : other.functions = world.functions
  scopes : world.scopes.Share scope other.scopes

namespace Scopes

namespace Share

variable {scope callee : ScopeId} {scopes other : Scopes} (share : scopes.Share scope other)

include share

theorem ancestors : other.ancestors scope = scopes.ancestors scope :=
  (List.cons.inj share.chain).2

theorem depth : other.depth scope = scopes.depth scope :=
  congrArg List.length share.ancestors

theorem owner? (name : String) : other.owner? scope name = scopes.owner? scope name := by
  unfold Scopes.owner?
  rw [share.chain]
  apply List.find?_congr
  intro id inside
  rw [share.bindings id inside]

theorem lookup? (name : String) : other.lookup? scope name = scopes.lookup? scope name := by
  have found : other.binding? scope name = scopes.binding? scope name := by
    unfold binding?
    rw [share.owner? name]
    cases owned : scopes.owner? scope name with
    | none => rfl
    | some owner =>
        have inside : owner ∈ scopes.chain scope := List.mem_of_find?_eq_some owned
        exact congrArg (NameMap.get? · name) (share.bindings owner inside)
  rw [Scopes.lookup?, found, Scopes.lookup?]

theorem bind {owner : ScopeId} (inside : owner ∈ scopes.chain scope) (name : String)
    (binding : Binding) :
    (scopes.bind owner name binding).Share scope (other.bind owner name binding) where
  size := by rw [size_bind, size_bind, share.size]
  chain := by
    rw [Scopes.chain, Scopes.chain, ancestors_bind, ancestors_bind, share.ancestors]
  bindings id visible := by
    have seen : id ∈ scopes.chain scope := by rwa [Scopes.chain, ancestors_bind] at visible
    rw [bindings_bind, bindings_bind, share.size, share.bindings owner inside,
      share.bindings id seen]

theorem assign (name : String) (value : Value) :
    (∃ fault, scopes.assign scope name value = .error fault ∧
      other.assign scope name value = .error fault) ∨
    ∃ final final', scopes.assign scope name value = .ok final ∧
      other.assign scope name value = .ok final' ∧ final.Share scope final' := by
  unfold Scopes.assign
  rw [share.owner? name]
  cases owned : scopes.owner? scope name with
  | none => exact .inl ⟨_, rfl, rfl⟩
  | some owner =>
      have inside : owner ∈ scopes.chain scope := List.mem_of_find?_eq_some owned
      dsimp only
      rw [share.bindings owner inside]
      cases bound : (scopes.bindings owner).get? name with
      | none => exact .inl ⟨_, rfl, rfl⟩
      | some binding =>
          dsimp only
          cases changeable : binding.mutable with
          | false => exact .inl ⟨_, rfl, rfl⟩
          | true => exact .inr ⟨_, _, rfl, rfl, share.bind inside name _⟩

theorem nextId : other.nextId = scopes.nextId :=
  share.size

theorem push : (scopes.push (some scope)).Share scopes.nextId (other.push (some scope)) where
  size := by rw [size_push, size_push, share.size]
  chain := by
    have around : (other.push (some scope)).ancestors scopes.nextId = other.chain scope := by
      rw [← share.nextId]
      exact ancestors_push_nextId other scope
    rw [Scopes.chain, Scopes.chain, around, ancestors_push_nextId, share.chain]
  bindings id visible := by
    rw [Scopes.chain, ancestors_push_nextId] at visible
    rw [bindings_push, bindings_push]
    rcases List.mem_cons.mp visible with rfl | inside
    · have absent : other.all.size ≤ scopes.nextId := Nat.le_of_eq share.size
      rw [bindings_of_size_le other _ absent]
      exact (bindings_of_size_le scopes _ (Nat.le_refl _)).symm
    · exact share.bindings id inside

theorem pop {outer : ScopeId} (around : other.pop.chain outer = scopes.pop.chain outer)
    (seen : ∀ id ∈ scopes.pop.chain outer, id ∈ scopes.chain scope) :
    scopes.pop.Share outer other.pop where
  size := by rw [size_pop, size_pop, share.size]
  chain := around
  bindings id visible := by
    rw [bindings_pop, bindings_pop, share.size, share.bindings id (seen id visible)]

end Share

end Scopes

namespace Eval

variable {α β : Type}

def outcome (computation : Eval α) (world : World) : Except Halt α :=
  match computation world with
  | .ok value _ => .ok value
  | .error halt _ => .error halt

inductive Paired (r : World → World → Prop) :
    EStateM.Result Halt World α → EStateM.Result Halt World α → Prop
  | ok {world other : World} (value : α) (related : r world other) :
      Paired r (.ok value world) (.ok value other)
  | error {world other : World} (halt : Halt) (related : r world other) :
      Paired r (.error halt world) (.error halt other)

def Respects (r : World → World → Prop) (α : Type) (computation : Eval α) : Prop :=
  ∀ world other, r world other → Paired r (computation world) (computation other)

namespace Respects

variable {r : World → World → Prop}

theorem outcome_eq {computation : Eval α} (respects : Respects r α computation)
    {world other : World} (related : r world other) :
    outcome computation other = outcome computation world := by
  have paired := respects world other related
  unfold outcome
  generalize computation world = reached at paired
  generalize computation other = reached' at paired
  cases paired <;> rfl

theorem after {computation : Eval α} (respects : Respects r α computation)
    {world other : World} (related : r world other) :
    r (after computation world) (after computation other) := by
  have paired := respects world other related
  unfold Eval.after
  generalize computation world = reached at paired
  generalize computation other = reached' at paired
  cases paired <;> assumption

theorem sequential : Sequential (Respects r) where
  pure value _ _ related := .ok value related
  throw halt _ _ related := .error halt related
  bind {_ _ first next} start rest world other related := by
    have begun := start world other related
    generalize reached : first world = result at begun
    generalize reached' : first other = result' at begun
    cases begun with
    | ok value between =>
        rw [bind_ok next reached, bind_ok next reached']
        exact rest value _ _ between
    | error halt between =>
        rw [bind_error next reached, bind_error next reached']
        exact .error halt between

theorem get_bind {next : World → Eval β}
    (rest : ∀ world other, r world other → Paired r (next world world) (next other other)) :
    Respects r β (get >>= next) :=
  rest

theorem modify {change : World → World}
    (respected : ∀ world other, r world other → r (change world) (change other)) :
    Respects r Unit (modify change) :=
  fun world other related => .ok () (respected world other related)

end Respects

/-- From the scope the two worlds cannot be told apart, and the same has been written in both since
the one was `start` and the other `start'`. -/
structure InStep (start start' : World) (scope : ScopeId) (world other : World) : Prop where
  share : world.Share scope other
  written : ∃ events, world.journal.toList = start.journal.toList ++ events ∧
    other.journal.toList = start'.journal.toList ++ events

variable {start start' : World}

namespace InStep

variable {scope : ScopeId} {world other : World} (together : InStep start start' scope world other)

include together

theorem record (event : Event) :
    InStep start start' scope (world.record event) (other.record event) where
  share := ⟨together.share.functions, together.share.scopes⟩
  written := by
    obtain ⟨events, written, written'⟩ := together.written
    refine ⟨events ++ [event], ?_, ?_⟩
    · simp [World.record, written]
    · simp [World.record, written']

theorem withScopes {inner : ScopeId} {scopes scopes' : Scopes} (share : scopes.Share inner scopes') :
    InStep start start' inner { world with scopes } { other with scopes := scopes' } where
  share := ⟨together.share.functions, share⟩
  written := together.written

theorem withFunctions (functions : FunctionTable) :
    InStep start start' scope { world with functions } { other with functions } where
  share := ⟨rfl, together.share.scopes⟩
  written := together.written

theorem bind {owner : ScopeId} (inside : owner ∈ world.scopes.chain scope) (name : String)
    (binding : Binding) :
    InStep start start' scope
      { world with scopes := world.scopes.bind owner name binding }
      { other with scopes := other.scopes.bind owner name binding } :=
  together.withScopes (together.share.scopes.bind inside name binding)

theorem closeScope {outer : ScopeId} (conditions : Conditions) (function : String) (failed : Bool)
    (around : other.scopes.pop.chain outer = world.scopes.pop.chain outer)
    (seen : ∀ id ∈ world.scopes.pop.chain outer, id ∈ world.scopes.chain scope) :
    InStep start start' outer (closeScope conditions function failed world)
      (closeScope conditions function failed other) := by
  have popped := together.withScopes (together.share.scopes.pop around seen)
  unfold Eval.closeScope
  split
  · exact popped.record _
  · exact popped

end InStep

section Steps

variable (scope : ScopeId)

theorem trace_respects (conditions : Conditions) (expr : Expr) :
    Respects (InStep start start' scope) Unit (trace conditions expr) := by
  unfold trace
  split
  · exact .modify fun _ _ together => together.record _
  · exact Respects.sequential.pure ()

theorem print_respects (conditions : Conditions) (line : Bytes) :
    Respects (InStep start start' scope) Unit (print conditions line) := by
  unfold print
  split
  · exact .modify fun _ _ together => together.record _
  · exact Respects.sequential.throw _

theorem declare_respects (name : String) (value : Value) (mutable : Bool) :
    Respects (InStep start start' scope) Unit (declare scope name value mutable) := by
  unfold declare
  split
  · apply Respects.modify
    intro world other together
    rw [together.share.functions]
    exact together.withFunctions _
  · exact .modify fun _ _ together => together.bind List.mem_cons_self _ _

theorem assign_respects (name : String) (value : Value) :
    Respects (InStep start start' scope) Unit (assign scope name value) := by
  apply Respects.get_bind
  intro world other together
  rcases together.share.scopes.assign name value with
    ⟨fault, refused, refused'⟩ | ⟨scopes, scopes', done, done', share⟩
  · rw [refused, refused']
    exact .error _ together
  · rw [done, done']
    exact .ok () (together.withScopes share)

theorem lookup_respects (conditions : Conditions) (depth : Nat)
    (sub : ScopeId → Expr → Eval Value) (name : String) (position : Position) :
    Respects (InStep start start' scope) Value
      (step conditions depth sub scope (.identifier name position)) := by
  apply Respects.get_bind
  intro world other together
  rw [together.share.scopes.lookup? name]
  cases world.scopes.lookup? scope name with
  | some value => exact .ok value together
  | none => exact .error _ together

theorem find_respects (callee : String) :
    Respects (InStep start start' scope) FunctionDef
      (do ofExcept ((← get).functions.find callee)) := by
  apply Respects.get_bind
  intro world other together
  rw [together.share.functions]
  exact Respects.sequential.ofExcept _ world other together

theorem bindAll_respects (entries : List (String × Value)) :
    Respects (InStep start start' scope) Unit (bindAll scope entries) := by
  induction entries with
  | nil => exact Respects.sequential.pure ()
  | cons entry rest ih =>
      apply Respects.sequential.bind
      · exact .modify fun _ _ together => together.bind List.mem_cons_self _ _
      · exact fun _ => ih

theorem entered_inStep (conditions : Conditions) (depth : Nat) (function : FunctionDef)
    (arguments : List Value) {world other : World}
    (together : InStep start start' scope world other) :
    InStep start start' world.scopes.nextId
      (entered conditions depth scope function arguments world)
      (entered conditions depth scope function arguments other) := by
  have opened := together.withScopes together.share.scopes.push
  have bound := (bindAll_respects _ (function.params.zip arguments)).after opened
  unfold entered
  dsimp only
  rw [together.share.scopes.nextId]
  split
  · rw [bound.share.scopes.depth]
    exact bound.record _
  · exact bound

end Steps

/-- A call sees what its caller sees. When its scope is taken away the caller still sees the same,
since all of it was in sight of the body. -/
theorem invoke_respects {conditions : Conditions} {depth : Nat} {sub : ScopeId → Expr → Eval Value}
    (disciplined : Disciplined sub)
    (inner : ∀ scope expr, Respects (InStep start start' scope) Value (sub scope expr))
    (scope : ScopeId) (function : FunctionDef) (arguments : List Value) :
    Respects (InStep start start' scope) Value
      (invoke conditions depth sub scope function arguments) := by
  intro world other together
  have within := entered_inStep scope conditions depth function arguments together
  have ran := inner world.scopes.nextId function.body.block _ _ within
  have inside := ancestors_bodyRun conditions depth disciplined scope function arguments world
  have outside := chain_bodyRun conditions depth disciplined scope function arguments world
  have outside' := chain_bodyRun conditions depth disciplined scope function arguments other
  rw [together.share.scopes.nextId, together.share.scopes.chain] at outside'
  rw [invoke_eq_match, invoke_eq_match, together.share.scopes.nextId]
  have seen : ∀ final : World, final.scopes.ancestors world.scopes.nextId = world.scopes.chain scope →
      final.scopes.pop.chain scope = world.scopes.chain scope →
      ∀ id ∈ final.scopes.pop.chain scope, id ∈ final.scopes.chain world.scopes.nextId := by
    intro final around kept id member
    rw [kept, ← around] at member
    exact List.mem_cons_of_mem _ member
  generalize reached : sub world.scopes.nextId function.body.block
    (entered conditions depth scope function arguments world) = result at ran
  generalize reached' : sub world.scopes.nextId function.body.block
    (entered conditions depth scope function arguments other) = result' at ran
  cases ran with
  | ok value ended =>
      simp only [after, reached, reached'] at inside outside outside'
      exact .ok value (ended.closeScope conditions function.name false
        (outside'.trans outside.symm) (seen _ inside outside))
  | error halt ended =>
      simp only [after, reached, reached'] at inside outside outside'
      exact .error halt (ended.closeScope conditions function.name true
        (outside'.trans outside.symm) (seen _ inside outside))

/-- An evaluation sees only the scopes of its chain and the table of functions. In two worlds that
share these, and have as many scopes, it comes to the same outcome, adds the same to the journal, and
leaves worlds that share them again. -/
theorem evaluate_sees_chain (conditions : Conditions) (scope : ScopeId) (expr : Expr)
    (world other : World) (share : world.Share scope other) :
    let run := evaluate conditions scope expr
    outcome run other = outcome run world ∧
      (after run world).Share scope (after run other) ∧
      ∃ events, (after run world).journal.toList = world.journal.toList ++ events ∧
        (after run other).journal.toList = other.journal.toList ++ events := by
  intro run
  have inherits (room : Nat) (inner : ∀ scope expr,
      Respects (InStep world other scope) Value (withRoom conditions room scope expr))
      (scope : ScopeId) : Inherited conditions (conditions.maxDepth - room)
        (withRoom conditions room) scope (Respects (InStep world other scope)) := {
    toSequential := Respects.sequential
    part := inner scope
    lookup := lookup_respects scope conditions _ _
    find := find_respects scope
    declare := declare_respects scope
    assign := assign_respects scope
    print := print_respects scope conditions
    invoke := invoke_respects (withRoom_disciplined conditions room) inner scope }
  have respects : Respects (InStep world other scope) Value run :=
    @withRoom_inherits conditions (fun scope => Respects (InStep world other scope))
      (fun _ => Respects.sequential) (fun scope expr => trace_respects scope conditions expr) inherits
      conditions.maxDepth scope expr
  have together : InStep world other scope world other := ⟨share, [], by simp⟩
  have ended := respects.after together
  exact ⟨respects.outcome_eq together, ended.share, ended.written⟩

def branchingWorld (n : Int64) : World where
  scopes :=
    ⟨#[{ bindings := [("x", { value := .int 1, mutable := true })] },
       { ancestors := [0], bindings := [("y", { value := .int 2 })] },
       { ancestors := [0], bindings := [("y", { value := .int n })] }]⟩
  functions :=
    [("f", { name := "f", params := ["z"],
             body := { elements := [.assign "x" (.identifier "z" {}) {}] } })]

theorem evaluate_sees_chain_sample :
    let run := evaluate { maxDepth := 9 } 1 (.call "f" [.identifier "y" {}] {})
    (branchingWorld 5).Share 1 (branchingWorld 7) ∧
      outcome run (branchingWorld 7) = .ok (.int 2) ∧
      (after run (branchingWorld 5)).Share 1 (after run (branchingWorld 7)) := by
  have value : outcome (evaluate { maxDepth := 9 } 1 (.call "f" [.identifier "y" {}] {}))
      (branchingWorld 5) = .ok (.int 2) := by
    rfl
  have share : (branchingWorld 5).Share 1 (branchingWorld 7) := by
    refine ⟨rfl, rfl, rfl, ?_⟩
    exact List.forall_mem_cons.mpr ⟨rfl, List.forall_mem_singleton.mpr rfl⟩
  intro run
  obtain ⟨same, shared, -⟩ := evaluate_sees_chain { maxDepth := 9 } 1
    (.call "f" [.identifier "y" {}] {}) (branchingWorld 5) (branchingWorld 7) share
  exact ⟨share, same.trans value, shared⟩

end Eval

end Koy
