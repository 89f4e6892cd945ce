import Koy.Proofs.Composition

/-! Two runs side by side. They may differ in what is traced and logged, and in the room that is left
for nested evaluations; what they do to scopes and functions, and what is seen of their journals, is
the same. The rules here carry this from the parts of an evaluation to the whole. -/

namespace Koy

def World.seen (view : Event → Bytes) (world : World) : Bytes :=
  world.journal.toList.flatMap view

/-- Two worlds between which only what is not seen of their journals makes a difference. -/
structure World.Alike (view : Event → Bytes) (world other : World) : Prop where
  scopes : world.scopes = other.scopes
  functions : world.functions = other.functions
  seen : world.seen view = other.seen view

/-- Two ways to run an evaluation that differ only in what is traced and logged, and of this nothing
is seen. -/
structure Conditions.Unseen (view : Event → Bytes) (conditions other : Conditions) : Prop where
  unwritable : conditions.unwritable = other.unwritable
  rounds : conditions.rounds = other.rounds
  trace : conditions.traced = other.traced ∨ ∀ text, view (.trace text) = []
  enter (function : String) (depth scopeDepth : Nat) : view (.enter function depth scopeDepth) = []
  leave (function : String) (failed : Bool) : view (.leave function failed) = []

namespace World

variable {view : Event → Bytes} {world other : World}

theorem Alike.refl (world : World) : world.Alike view world :=
  ⟨rfl, rfl, rfl⟩

theorem seen_record (world : World) (event : Event) :
    (world.record event).seen view = world.seen view ++ view event := by
  simp [seen, record]

theorem Alike.record (alike : world.Alike view other) (event : Event) :
    (world.record event).Alike view (other.record event) := by
  refine ⟨alike.scopes, alike.functions, ?_⟩
  rw [seen_record, seen_record, alike.seen]

theorem Alike.record_left (alike : world.Alike view other) {event : Event}
    (hidden : view event = []) : (world.record event).Alike view other := by
  refine ⟨alike.scopes, alike.functions, ?_⟩
  rw [seen_record, hidden, List.append_nil, alike.seen]

theorem Alike.record_right (alike : world.Alike view other) {event : Event}
    (hidden : view event = []) : world.Alike view (other.record event) := by
  refine ⟨alike.scopes, alike.functions, ?_⟩
  rw [seen_record, hidden, List.append_nil, alike.seen]

theorem Alike.withScopes (alike : world.Alike view other) (scopes : Scopes) :
    ({ world with scopes } : World).Alike view { other with scopes } :=
  ⟨rfl, alike.functions, alike.seen⟩

theorem Alike.withFunctions (alike : world.Alike view other) (functions : FunctionTable) :
    ({ world with functions } : World).Alike view { other with functions } :=
  ⟨alike.scopes, rfl, alike.seen⟩

end World

namespace Eval

/-- The outcomes are the same and the worlds alike, or the first outcome is a halt for which nothing
is asked of the second. -/
inductive Matches {α : Type} (view : Event → Bytes) (exempt : Halt → Prop) :
    EStateM.Result Halt World α → EStateM.Result Halt World α → Prop where
  | ok {world other : World} (value : α) (alike : world.Alike view other) :
      Matches view exempt (.ok value world) (.ok value other)
  | error {world other : World} (halt : Halt) (alike : world.Alike view other) :
      Matches view exempt (.error halt world) (.error halt other)
  | exempted {world : World} {halt : Halt} (reason : exempt halt)
      (second : EStateM.Result Halt World α) : Matches view exempt (.error halt world) second

def Agrees {α : Type} (view : Event → Bytes) (exempt : Halt → Prop) (first second : Eval α) : Prop :=
  ∀ world other : World, world.Alike view other → Matches view exempt (first world) (second other)

namespace Agrees

variable {α β : Type} {view : Event → Bytes} {exempt : Halt → Prop} {first second : Eval α}

theorem bind {next next' : α → Eval β} (start : Agrees view exempt first second)
    (rest : ∀ value, Agrees view exempt (next value) (next' value)) :
    Agrees view exempt (first >>= next) (second >>= next') := by
  intro world other alike
  have begun := start world other alike
  generalize outcome : first world = reached at begun
  generalize outcome' : second other = reached' at begun
  cases begun with
  | ok value alike' =>
      rw [bind_ok next outcome, bind_ok next' outcome']
      exact rest value _ _ alike'
  | error halt alike' =>
      rw [bind_error next outcome, bind_error next' outcome']
      exact .error halt alike'
  | exempted reason =>
      rw [bind_error next outcome]
      exact .exempted reason _

theorem compositional : Compositional fun _ => Agrees view exempt where
  pure value _ _ alike := .ok value alike
  halt reason _ _ alike := .error reason alike
  bind := bind

theorem pure (value : α) : Agrees view exempt (pure value) (pure value) :=
  compositional.pure value

theorem throw (halt : Halt) : Agrees view exempt (throw halt : Eval α) (throw halt) :=
  compositional.halt halt

theorem ofExcept (result : Except Fault α) :
    Agrees view exempt (ofExcept result) (ofExcept result) :=
  compositional.ofExcept result

theorem get_bind {next next' : World → Eval β}
    (rest : ∀ world other : World, world.Alike view other →
      Agrees view exempt (next world) (next' other)) :
    Agrees view exempt (get >>= next) (get >>= next') :=
  fun world other alike => rest world other alike world other alike

theorem modify {change change' : World → World}
    (alike : ∀ world other : World, world.Alike view other →
      (change world).Alike view (change' other)) :
    Agrees view exempt (modify change) (modify change') :=
  fun world other before => .ok () (alike world other before)

theorem record (event : Event) : Agrees view exempt (record event) (record event) :=
  modify fun _ _ alike => alike.record event

theorem ite {condition : Prop} [Decidable condition] {first' second' : Eval α}
    (holds : Agrees view exempt first second) (fails : Agrees view exempt first' second') :
    Agrees view exempt (if condition then first else first')
      (if condition then second else second') := by
  split
  · exact holds
  · exact fails

end Agrees

section Steps

variable {view : Event → Bytes} {exempt : Halt → Prop} {conditions conditions' : Conditions}

theorem trace_agrees (unseen : conditions.Unseen view conditions') (expr : Expr) :
    Agrees view exempt (trace conditions expr) (trace conditions' expr) := by
  unfold trace
  rw [← unseen.unwritable]
  rcases unseen.trace with same | hidden
  · rw [← same]
    exact .ite (.record _) (.pure ())
  · -- Either side may write the trace alone.
    split <;> split
    · exact .record _
    · exact fun world other alike => .ok () (alike.record_left (hidden _))
    · exact fun world other alike => .ok () (alike.record_right (hidden _))
    · exact .pure ()

theorem print_agrees (unseen : conditions.Unseen view conditions') (line : Bytes) :
    Agrees view exempt (print conditions line) (print conditions' line) := by
  unfold print
  rw [← unseen.unwritable]
  split
  · exact .record _
  · exact .throw _

theorem declare_agrees (scope : ScopeId) (name : String) (value : Value) (mutable : Bool) :
    Agrees view exempt (declare scope name value mutable) (declare scope name value mutable) := by
  unfold declare
  split
  · apply Agrees.modify
    intro world other alike
    rw [alike.functions]
    exact alike.withFunctions _
  · apply Agrees.modify
    intro world other alike
    rw [alike.scopes]
    exact alike.withScopes _

theorem assign_agrees (scope : ScopeId) (name : String) (value : Value) :
    Agrees view exempt (assign scope name value) (assign scope name value) := by
  apply Agrees.get_bind
  intro world other alike
  rw [alike.scopes]
  exact (Agrees.ofExcept _).bind fun scopes => .modify fun _ _ alike => alike.withScopes scopes

theorem openScope_agrees (scope : ScopeId) :
    Agrees view exempt (openScope scope) (openScope scope) := by
  intro world other alike
  have opened (world : World) : openScope scope world =
      .ok world.scopes.nextId { world with scopes := world.scopes.push (some scope) } := rfl
  rw [opened, opened, alike.scopes]
  exact .ok _ (alike.withScopes _)

theorem bindAll_agrees (scope : ScopeId) (entries : List (String × Value)) :
    Agrees view exempt (bindAll scope entries) (bindAll scope entries) := by
  induction entries with
  | nil => exact .pure ()
  | cons entry rest ih =>
      have bound : Agrees view exempt
          (modify fun world => { world with
            scopes := world.scopes.bind scope entry.1 { value := entry.2, mutable := true } })
          (modify fun world => { world with
            scopes := world.scopes.bind scope entry.1 { value := entry.2, mutable := true } }) := by
        apply Agrees.modify
        intro world other alike
        rw [alike.scopes]
        exact alike.withScopes _
      exact bound.bind fun _ => ih

theorem closeScope_alike (unseen : conditions.Unseen view conditions') (function : String)
    (failed : Bool) {world other : World} (alike : world.Alike view other) :
    (closeScope conditions function failed world).Alike view
      (closeScope conditions' function failed other) := by
  have popped : ({ world with scopes := world.scopes.pop } : World).Alike view
      { other with scopes := other.scopes.pop } := by
    rw [alike.scopes]
    exact alike.withScopes _
  have hidden := unseen.leave function failed
  unfold closeScope
  split <;> split
  · exact popped.record _
  · exact popped.record_left hidden
  · exact popped.record_right hidden
  · exact popped

end Steps

section Forms

variable {view : Event → Bytes} {exempt : Halt → Prop} {conditions conditions' : Conditions}
  {depth depth' : Nat} {sub sub' : ScopeId → Expr → Eval Value}
  (unseen : conditions.Unseen view conditions')
  (inner : ∀ scope expr, Agrees view exempt (sub scope expr) (sub' scope expr)) (scope : ScopeId)

theorem lookup_agrees (name : String) (position : Position) :
    Agrees view exempt (step conditions depth sub scope (.identifier name position))
      (step conditions' depth' sub' scope (.identifier name position)) := by
  apply Agrees.get_bind
  intro world other alike
  rw [alike.scopes]
  cases other.scopes.lookup? scope name with
  | some value => exact .pure value
  | none => exact .throw _

theorem find_agrees (callee : String) :
    Agrees view exempt (do ofExcept ((← get).functions.find callee))
      (do ofExcept ((← get).functions.find callee)) := by
  apply Agrees.get_bind
  intro world other alike
  rw [alike.functions]
  exact .ofExcept _

include unseen inner

theorem body_agrees (function : FunctionDef) :
    Agrees view exempt
      (fun world => match sub scope function.body.block world with
        | .ok value world => .ok value (closeScope conditions function.name false world)
        | .error halt world => .error halt (closeScope conditions function.name true world))
      (fun world => match sub' scope function.body.block world with
        | .ok value world => .ok value (closeScope conditions' function.name false world)
        | .error halt world => .error halt (closeScope conditions' function.name true world)) := by
  intro world other alike
  have ran := inner scope function.body.block world other alike
  dsimp only
  generalize sub scope function.body.block world = reached at ran
  generalize sub' scope function.body.block other = reached' at ran
  cases ran with
  | ok value alike' => exact .ok value (closeScope_alike unseen function.name false alike')
  | error halt alike' => exact .error halt (closeScope_alike unseen function.name true alike')
  | exempted reason => exact .exempted reason _

theorem invoke_agrees (function : FunctionDef) (arguments : List Value) :
    Agrees view exempt (invoke conditions depth sub scope function arguments)
      (invoke conditions' depth' sub' scope function arguments) := by
  apply (openScope_agrees scope).bind
  intro callee
  apply (bindAll_agrees callee _).bind
  intro _
  have body := body_agrees unseen inner callee function
  have entered (depth scopeDepth : Nat) := unseen.enter function.name depth scopeDepth
  -- The depth is only told to the log, so it need not be the same.
  split <;> split
  · intro world other alike
    exact body (world.record _) (other.record _)
      ((alike.record_left (entered _ _)).record_right (entered _ _))
  · exact fun world other alike => body (world.record _) other (alike.record_left (entered _ _))
  · exact fun world other alike => body world (other.record _) (alike.record_right (entered _ _))
  · exact body

theorem agrees_lifted : Lifted conditions conditions' depth depth' sub sub' scope
    fun _ => Agrees view exempt where
  toCompositional := Agrees.compositional
  part := inner scope
  lookup := lookup_agrees scope
  find := find_agrees
  declare := declare_agrees scope
  assign := assign_agrees scope
  print := print_agrees unseen
  invoke := invoke_agrees unseen inner scope
  rounds := Nat.le_of_eq unseen.rounds
  unfinished := .inl unseen.rounds

end Forms

/-- With as much room and the same limit the runs agree. With more room for the second they still do,
if nothing is asked after an overflow of the first. -/
theorem withRoom_agrees {view : Event → Bytes} {exempt : Halt → Prop}
    {conditions conditions' : Conditions} (unseen : conditions.Unseen view conditions') (extra : Nat)
    (limit : extra = 0 ∧ conditions.maxDepth = conditions'.maxDepth ∨
      ∀ depth, exempt (.fault (.tooDeep depth)))
    (room : Nat) (scope : ScopeId) (expr : Expr) :
    Agrees view exempt (withRoom conditions room scope expr)
      (withRoom conditions' (room + extra) scope expr) := by
  have exhausted (scope : ScopeId) (expr : Expr) (present : expr ≠ .missing) :
      Agrees view exempt (fail (.tooDeep conditions.maxDepth))
        (withRoom conditions' extra scope expr) := by
    rcases limit with ⟨rfl, same⟩ | exempted
    · rw [withRoom.eq_2 _ _ _ present, same]
      exact .throw _
    · exact fun world other alike => .exempted (exempted _) _
  exact @withRoom_lifts conditions conditions' extra (fun _ _ => Agrees view exempt)
    (fun _ => Agrees.compositional) (fun _ => trace_agrees unseen) exhausted
    (fun _ inner => agrees_lifted unseen inner) room scope expr

end Eval

end Koy
