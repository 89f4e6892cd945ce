import Koy.Proofs.Invocation

/-! Evaluation changes scopes only where the text says so. Scopes outside the active chain stay as
they are, enclosing scopes keep their names and everything immutable, and the active scope gains
only names that the expression declares outside the bodies of function literals. All of this also
holds when the evaluation fails. -/

namespace Koy

namespace Expr

mutual

/-- The expression contains a declaration of the name outside the bodies of function literals. -/
def declares (name : String) : Expr → Bool
  | .missing | .int _ _ | .bool _ _ | .text _ _ | .identifier _ _ | .function _ _ _ _ _ => false
  | .sequence items _ | .set items _ | .block items _ => anyDeclares name items
  | .mapping entries _ => entryDeclares name entries
  | .update _ _ operand _ => declares name operand
  | .binary _ lhs rhs _ => declares name lhs || declares name rhs
  | .declare other _ value _ => other == name || declares name value
  | .assign _ value _ => declares name value
  | .println argument _ => declares name argument
  | .branch condition consequent alternative _ =>
    declares name condition || declares name consequent || alternativeDeclares name alternative
  | .loop condition body _ => declares name condition || declares name body
  | .call _ arguments _ => anyDeclares name arguments
  | .labeledCall _ arguments _ => entryDeclares name arguments

def anyDeclares (name : String) : List Expr → Bool
  | [] => false
  | expr :: rest => declares name expr || anyDeclares name rest

def entryDeclares (name : String) : List (String × Expr) → Bool
  | [] => false
  | (_, expr) :: rest => declares name expr || entryDeclares name rest

def alternativeDeclares (name : String) : Option Expr → Bool
  | none => false
  | some alternative => declares name alternative

end

theorem anyDeclares_of_mem {name : String} {exprs : List Expr} {expr : Expr}
    (member : expr ∈ exprs) (declared : declares name expr = true) :
    anyDeclares name exprs = true := by
  induction exprs with
  | nil => cases member
  | cons first rest ih =>
      rw [anyDeclares, Bool.or_eq_true]
      rcases List.mem_cons.mp member with rfl | later
      · exact .inl declared
      · exact .inr (ih later)

theorem entryDeclares_of_mem {name : String} {entries : List (String × Expr)}
    {entry : String × Expr} (member : entry ∈ entries)
    (declared : declares name entry.2 = true) : entryDeclares name entries = true := by
  induction entries with
  | nil => cases member
  | cons first rest ih =>
      rw [entryDeclares, Bool.or_eq_true]
      rcases List.mem_cons.mp member with rfl | later
      · exact .inl declared
      · exact .inr (ih later)

end Expr

/-- A name stays bound or unbound, as mutable or immutable, and an immutable one keeps its value. -/
def Binding.Persists : Option Binding → Option Binding → Prop
  | none, none => True
  | some before, some after =>
    after.mutable = before.mutable ∧ (before.mutable = false → after.value = before.value)
  | _, _ => False

namespace Binding.Persists

theorem refl (binding : Option Binding) : Persists binding binding := by
  cases binding with
  | none => trivial
  | some binding => exact ⟨rfl, fun _ => rfl⟩

theorem trans {first second third : Option Binding} (left : Persists first second)
    (right : Persists second third) : Persists first third := by
  cases first <;> cases second <;> cases third <;> simp only [Persists] at left right ⊢
  obtain ⟨flag, value⟩ := left
  obtain ⟨flag', value'⟩ := right
  exact ⟨flag'.trans flag, fun fixed => (value' (flag.trans fixed)).trans (value fixed)⟩

theorem isSome_eq {before after : Option Binding} (kept : Persists before after) :
    after.isSome = before.isSome := by
  cases before <;> cases after <;> simp_all [Persists]

end Binding.Persists

open Binding (Persists)

namespace Scopes

/-- What an evaluation in `scope` may do to the scopes, if `declared` are the names that it may
declare there. -/
structure Disciplined (scope : ScopeId) (declared : String → Prop) (before after : Scopes) :
    Prop where
  size : after.all.size = before.all.size
  ancestors (id : ScopeId) : after.ancestors id = before.ancestors id
  /-- A scope outside the active chain keeps its bindings. -/
  elsewhere (id : ScopeId) : id ∉ before.chain scope → after.bindings id = before.bindings id
  /-- A scope around the active one keeps its names, their mutability and what is immutable. -/
  enclosing (id : ScopeId) : id ∈ before.ancestors scope → id ≠ scope → ∀ name,
    Persists ((before.bindings id).get? name) ((after.bindings id).get? name)
  present (name : String) : (before.bindings scope).contains name = true →
    (after.bindings scope).contains name = true
  /-- What is not declared persists in the active scope. -/
  undeclared (name : String) : ¬ declared name →
    Persists ((before.bindings scope).get? name) ((after.bindings scope).get? name)

namespace Disciplined

variable {scope : ScopeId} {declared declared' : String → Prop} {before middle after : Scopes}

theorem refl (scopes : Scopes) : Disciplined scope declared scopes scopes where
  size := rfl
  ancestors _ := rfl
  elsewhere _ _ := rfl
  enclosing _ _ _ _ := .refl _
  present _ bound := bound
  undeclared _ _ := .refl _

theorem trans (first : Disciplined scope declared before middle)
    (second : Disciplined scope declared middle after) :
    Disciplined scope declared before after := by
  have chain_eq : middle.chain scope = before.chain scope := by
    simp only [chain, first.ancestors]
  exact {
    size := second.size.trans first.size
    ancestors := fun id => (second.ancestors id).trans (first.ancestors id)
    elsewhere := fun id outside =>
      (second.elsewhere id (chain_eq ▸ outside)).trans (first.elsewhere id outside)
    enclosing := fun id inside differ name =>
      (first.enclosing id inside differ name).trans
        (second.enclosing id (first.ancestors scope ▸ inside) differ name)
    present := fun name bound => second.present name (first.present name bound)
    undeclared := fun name absent =>
      (first.undeclared name absent).trans (second.undeclared name absent) }

theorem mono (more : ∀ name, declared name → declared' name)
    (kept : Disciplined scope declared before after) : Disciplined scope declared' before after :=
  { kept with undeclared := fun name absent => kept.undeclared name (absent ∘ more name) }

theorem persists_of_ne (kept : Disciplined scope declared before after) (id : ScopeId)
    (differ : id ≠ scope) (name : String) :
    Persists ((before.bindings id).get? name) ((after.bindings id).get? name) := by
  by_cases inside : id ∈ before.ancestors scope
  · exact kept.enclosing id inside differ name
  · have outside : id ∉ before.chain scope := by simp [chain, differ, inside]
    rw [kept.elsewhere id outside]
    exact .refl _

theorem of_bind (scopes : Scopes) (owner : ScopeId) (name : String) (binding : Binding)
    (inside : owner ∈ scopes.chain scope)
    (kept : (owner = scope ∧ declared name) ∨
      Persists ((scopes.bindings owner).get? name) (some binding)) :
    Disciplined scope declared scopes (scopes.bind owner name binding) := by
  have persists : ∀ id key, ¬ (id = scope ∧ declared key) →
      Persists ((scopes.bindings id).get? key)
        (((scopes.bind owner name binding).bindings id).get? key) := by
    intro id key free
    rw [get?_bindings_bind]
    split
    · rename_i here
      obtain ⟨rfl, rfl, -⟩ := here
      exact kept.resolve_left free
    · exact .refl _
  exact {
    size := size_bind ..
    ancestors := fun id => ancestors_bind ..
    elsewhere := fun id outside =>
      bindings_bind_of_ne _ _ _ _ _ fun same => outside (same ▸ inside)
    enclosing := fun id _ differ key => persists id key fun here => differ here.1
    present := fun key bound => by
      rw [NameMap.contains, get?_bindings_bind]
      split
      · rfl
      · exact bound
    undeclared := fun key free => persists scope key fun here => free here.2 }

/-- A call: what its own scope saw is gone with it, and the scopes from the caller's outward are
around the scope of the call. -/
theorem of_call {scopes final : Scopes}
    (kept : Disciplined scopes.nextId declared (scopes.push (some scope)) final) :
    Disciplined scope declared' scopes final.pop := by
  have size_eq : final.all.size = scopes.all.size + 1 := kept.size.trans (size_push ..)
  have chain_eq : (scopes.push (some scope)).chain scopes.nextId =
      scopes.nextId :: scopes.chain scope := by
    rw [chain, ancestors_push_nextId]
  have old : ∀ id : Nat, id < scopes.all.size → id ≠ scopes.nextId := fun id => Nat.ne_of_lt
  have shorter : ∀ id : Nat, id < scopes.all.size → id + 1 < final.all.size := by
    intro id below
    omega
  have persists : ∀ id name,
      Persists ((scopes.bindings id).get? name) ((final.pop.bindings id).get? name) := by
    intro id name
    by_cases below : id < scopes.all.size
    · rw [bindings_pop_of_lt final id (shorter id below)]
      have same := kept.persists_of_ne id (old id below) name
      rwa [bindings_push] at same
    · have beyond : scopes.all.size ≤ id := Nat.le_of_not_lt below
      rw [bindings_of_size_le scopes id beyond,
        bindings_of_size_le final.pop id (by rw [size_pop, size_eq]; exact beyond)]
      exact .refl _
  exact {
    size := by rw [size_pop, size_eq, Nat.add_sub_cancel]
    ancestors := fun id => by
      by_cases below : id < scopes.all.size
      · rw [ancestors_pop_of_lt final id (shorter id below), kept.ancestors,
          ancestors_push_of_ne _ _ _ (old id below)]
      · have beyond : scopes.all.size ≤ id := Nat.le_of_not_lt below
        rw [ancestors_of_size_le scopes id beyond,
          ancestors_of_size_le final.pop id (by rw [size_pop, size_eq]; exact beyond)]
    elsewhere := fun id outside => by
      by_cases below : id < scopes.all.size
      · have outside' : id ∉ (scopes.push (some scope)).chain scopes.nextId := by
          rw [chain_eq]
          exact fun inside => (List.mem_cons.mp inside).elim (old id below) outside
        rw [bindings_pop_of_lt final id (shorter id below), kept.elsewhere id outside', bindings_push]
      · have beyond : scopes.all.size ≤ id := Nat.le_of_not_lt below
        rw [bindings_of_size_le scopes id beyond,
          bindings_of_size_le final.pop id (by rw [size_pop, size_eq]; exact beyond)]
    enclosing := fun id _ _ name => persists id name
    present := fun name bound => by
      rw [NameMap.contains, (persists scope name).isSome_eq]
      exact bound
    undeclared := fun name _ => persists scope name }

end Disciplined

end Scopes

namespace Eval

def Frame (scope : ScopeId) (declared : String → Prop) (before after : World) : Prop :=
  Scopes.Disciplined scope declared before.scopes after.scopes

namespace Frame

variable {scope : ScopeId} {declared declared' : String → Prop}

theorem refl (world : World) : Frame scope declared world world :=
  Scopes.Disciplined.refl world.scopes

theorem trans {before middle after : World} (first : Frame scope declared before middle)
    (second : Frame scope declared middle after) : Frame scope declared before after :=
  Scopes.Disciplined.trans first second

theorem mono (more : ∀ name, declared name → declared' name) (before after : World)
    (kept : Frame scope declared before after) : Frame scope declared' before after :=
  Scopes.Disciplined.mono more kept

end Frame

section Steps

variable {α β : Type} {scope : ScopeId} {declared : String → Prop}

theorem frame_pure (value : α) : Keeps (Frame scope declared) (pure value : Eval α) :=
  keeps_pure Frame.refl value

theorem frame_fail (fault : Fault) : Keeps (Frame scope declared) (fail fault : Eval α) :=
  keeps_throw Frame.refl _

theorem frame_bind {first : Eval α} {next : α → Eval β} (kept : Keeps (Frame scope declared) first)
    (kept' : ∀ value, Keeps (Frame scope declared) (next value)) :
    Keeps (Frame scope declared) (first >>= next) :=
  Keeps.bind (r := Frame scope declared) (fun _ _ _ => Frame.trans) kept kept'

theorem frame_get {next : World → Eval β}
    (kept : ∀ world, Keeps (Frame scope declared) (next world)) :
    Keeps (Frame scope declared) (get >>= next) :=
  frame_bind (keeps_get Frame.refl) kept

theorem frame_ofExcept (result : Except Fault α) :
    Keeps (Frame scope declared) (ofExcept result) :=
  keeps_ofExcept Frame.refl result

theorem frame_record (event : Event) : Keeps (Frame scope declared) (record event) :=
  keeps_modify fun world => Frame.refl world

theorem frame_trace (conditions : Conditions) (expr : Expr) :
    Keeps (Frame scope declared) (trace conditions expr) := by
  unfold trace
  split
  · exact frame_record _
  · exact frame_pure ()

theorem frame_print (conditions : Conditions) (line : Bytes) :
    Keeps (Frame scope declared) (print conditions line) := by
  unfold print
  split
  · exact frame_record _
  · exact keeps_throw Frame.refl _

theorem frame_declare (name : String) (value : Value) (mutable : Bool) (allowed : declared name) :
    Keeps (Frame scope declared) (declare scope name value mutable) := by
  unfold declare
  split
  · exact keeps_modify fun world => Frame.refl world
  · exact keeps_modify fun world =>
      Scopes.Disciplined.of_bind _ _ _ _ List.mem_cons_self (.inl ⟨rfl, allowed⟩)

theorem frame_assign (name : String) (value : Value) :
    Keeps (Frame scope declared) (assign scope name value) := by
  intro world
  rcases assign_cases scope name value world with
    ⟨fault, -, refused⟩ | ⟨owner, inside, binding, bound, mutable, done⟩
  · rw [after, refused]
    exact Frame.refl world
  · rw [after, done]
    refine Scopes.Disciplined.of_bind _ _ _ _ inside (.inr ?_)
    rw [bound]
    exact ⟨rfl, fun fixed => absurd (mutable.symm.trans fixed) (by decide)⟩

theorem frame_bindAll (callee : ScopeId) (entries : List (String × Value)) :
    Keeps (Frame callee fun _ => True) (bindAll callee entries) := by
  induction entries with
  | nil => exact frame_pure ()
  | cons entry rest ih =>
      refine frame_bind (keeps_modify fun world => ?_) fun _ => ih
      exact Scopes.Disciplined.of_bind _ _ _ _ List.mem_cons_self (.inl ⟨rfl, trivial⟩)

end Steps

section

variable (conditions : Conditions) (depth : Nat) (scope : ScopeId) (function : FunctionDef)
  (arguments : List Value) (world : World)

theorem entered_frame :
    Frame world.scopes.nextId (fun _ => True)
      { world with scopes := world.scopes.push (some scope) }
      (entered conditions depth scope function arguments world) := by
  rw [Frame, entered_scopes]
  exact frame_bindAll world.scopes.nextId (function.params.zip arguments)
    { world with scopes := world.scopes.push (some scope) }

theorem ancestors_entered :
    (entered conditions depth scope function arguments world).scopes.ancestors world.scopes.nextId =
      world.scopes.chain scope := by
  rw [(entered_frame conditions depth scope function arguments world).ancestors]
  exact Scopes.ancestors_push_nextId world.scopes scope

theorem depth_entered :
    (entered conditions depth scope function arguments world).scopes.depth world.scopes.nextId =
      world.scopes.depth scope + 1 := by
  rw [Scopes.depth, ancestors_entered]
  rfl

end

def Disciplined (sub : ScopeId → Expr → Eval Value) : Prop :=
  ∀ scope expr, Keeps (Frame scope fun name => expr.declares name = true) (sub scope expr)

theorem mem_of_matchLabels (callee : String) (params : List String) (labels left : NameMap Expr)
    (arguments : List Expr) (matched : matchLabels callee params labels = .ok (arguments, left)) :
    ∀ argument ∈ arguments, ∃ label, (label, argument) ∈ labels := by
  induction params generalizing labels arguments with
  | nil =>
      cases matched
      exact fun _ none => absurd none List.not_mem_nil
  | cons param params ih =>
      rw [matchLabels] at matched
      cases found : labels.get? param with
      | none => rw [found] at matched; cases matched
      | some first =>
          rw [found] at matched
          cases deeper : matchLabels callee params (labels.erase param) with
          | error fault => rw [deeper] at matched; cases matched
          | ok result =>
              rw [deeper] at matched
              cases matched
              intro argument member
              rcases List.mem_cons.mp member with rfl | later
              · exact ⟨param, NameMap.mem_of_get? labels found⟩
              · obtain ⟨label, present⟩ := ih _ _ deeper argument later
                exact ⟨label, (List.mem_filter.mp present).1⟩

theorem mem_of_arrangeLabels (callee : String) (params : List String)
    (labeled : List (String × Expr)) (arguments : List Expr)
    (arranged : arrangeLabels callee params labeled = .ok arguments) :
    ∀ argument ∈ arguments, ∃ label, (label, argument) ∈ labeled := by
  unfold arrangeLabels at arranged
  cases matched : matchLabels callee params (NameMap.ofList labeled) with
  | error fault => rw [matched] at arranged; cases arranged
  | ok result =>
      obtain ⟨found, left⟩ := result
      rw [matched] at arranged
      cases left with
      | cons entry rest => cases arranged
      | nil =>
          cases arranged
          intro argument member
          obtain ⟨label, present⟩ := mem_of_matchLabels _ _ _ _ _ matched argument member
          exact ⟨label, NameMap.mem_ofList _ _ present⟩

section Forms

variable {conditions : Conditions} {depth : Nat} {sub : ScopeId → Expr → Eval Value}
  {declared : String → Prop} (disciplined : Disciplined sub) (scope : ScopeId)

include disciplined

theorem frame_sub (expr : Expr) (covered : ∀ name, expr.declares name = true → declared name) :
    Keeps (Frame scope declared) (sub scope expr) :=
  (disciplined scope expr).mono (Frame.mono covered)

theorem frame_all (exprs : List Expr)
    (covered : ∀ expr ∈ exprs, ∀ name, expr.declares name = true → declared name) :
    Keeps (Frame scope declared) (all sub scope exprs) := by
  induction exprs with
  | nil => exact frame_pure []
  | cons expr rest ih =>
      refine frame_bind (frame_sub disciplined scope expr (covered expr List.mem_cons_self))
        fun value => frame_bind (ih ?_) fun values => frame_pure _
      exact fun other member => covered other (List.mem_cons_of_mem _ member)

theorem frame_entries (exprs : List (String × Expr))
    (covered : ∀ entry ∈ exprs, ∀ name, entry.2.declares name = true → declared name) :
    Keeps (Frame scope declared) (entries sub scope exprs) := by
  induction exprs with
  | nil => exact frame_pure []
  | cons entry rest ih =>
      refine frame_bind (frame_sub disciplined scope entry.2 (covered entry List.mem_cons_self))
        fun value => frame_bind (ih ?_) fun values => frame_pure _
      exact fun other member => covered other (List.mem_cons_of_mem _ member)

theorem frame_last (result : Value) (exprs : List Expr)
    (covered : ∀ expr ∈ exprs, ∀ name, expr.declares name = true → declared name) :
    Keeps (Frame scope declared) (last sub scope result exprs) := by
  induction exprs generalizing result with
  | nil => exact frame_pure result
  | cons expr rest ih =>
      refine frame_bind (frame_sub disciplined scope expr (covered expr List.mem_cons_self))
        fun value => ih value ?_
      exact fun other member => covered other (List.mem_cons_of_mem _ member)

theorem frame_condition (form : String) (expr : Expr)
    (covered : ∀ name, expr.declares name = true → declared name) :
    Keeps (Frame scope declared) (condition sub form scope expr) := by
  refine frame_bind (frame_sub disciplined scope expr covered) fun value => ?_
  split
  · exact frame_pure _
  · exact frame_fail _

theorem frame_repeatWhile (test body : Expr) (rounds : Nat)
    (coveredTest : ∀ name, test.declares name = true → declared name)
    (coveredBody : ∀ name, body.declares name = true → declared name) :
    Keeps (Frame scope declared) (repeatWhile sub scope test body rounds) := by
  induction rounds with
  | zero => exact keeps_throw Frame.refl _
  | succ rounds ih =>
      refine frame_bind (frame_condition disciplined scope _ test coveredTest) fun holds => ?_
      split
      · exact frame_bind (frame_bind (frame_sub disciplined scope body coveredBody)
          fun _ => frame_pure _) fun _ => ih
      · exact frame_pure _

theorem frame_update (op : UpdateOp) (operand : Expr)
    (covered : ∀ name, operand.declares name = true → declared name) :
    Keeps (Frame scope declared) (update sub op scope operand) := by
  unfold update
  split
  · refine frame_bind (frame_sub disciplined scope _ covered) fun value => ?_
    split
    · exact frame_bind (frame_assign _ _) fun _ => frame_pure _
    · exact frame_fail _
  · exact frame_fail _

section

variable (conditions depth) (function : FunctionDef) (arguments : List Value) (world : World)

theorem ancestors_bodyRun :
    (after (sub world.scopes.nextId function.body.block)
      (entered conditions depth scope function arguments world)).scopes.ancestors
        world.scopes.nextId = world.scopes.chain scope := by
  rw [(disciplined world.scopes.nextId function.body.block _).ancestors]
  exact ancestors_entered conditions depth scope function arguments world

theorem disciplined_bodyRun :
    Scopes.Disciplined scope declared world.scopes
      (after (sub world.scopes.nextId function.body.block)
        (entered conditions depth scope function arguments world)).scopes.pop := by
  have entering := entered_frame conditions depth scope function arguments world
  have running := disciplined world.scopes.nextId function.body.block
    (entered conditions depth scope function arguments world)
  exact Scopes.Disciplined.of_call (entering.trans (running.mono fun _ _ => trivial))

theorem chain_bodyRun :
    (after (sub world.scopes.nextId function.body.block)
      (entered conditions depth scope function arguments world)).scopes.pop.chain scope =
        world.scopes.chain scope := by
  have kept : Scopes.Disciplined scope (fun _ => True) world.scopes _ :=
    disciplined_bodyRun conditions depth disciplined scope function arguments world
  rw [Scopes.chain, kept.ancestors]
  rfl

end

theorem frame_invoke (function : FunctionDef) (arguments : List Value) :
    Keeps (Frame scope declared) (invoke conditions depth sub scope function arguments) := by
  intro world
  have kept : Scopes.Disciplined scope declared world.scopes _ :=
    disciplined_bodyRun conditions depth disciplined scope function arguments world
  rw [Frame, after, invoke_eq_match]
  cases outcome : sub world.scopes.nextId function.body.block
    (entered conditions depth scope function arguments world) with
  | ok value final =>
      simp only [after, outcome] at kept
      rwa [closeScope_scopes]
  | error halt final =>
      simp only [after, outcome] at kept
      rwa [closeScope_scopes]

theorem frame_call (callee : String) (arguments : List Expr)
    (covered : ∀ expr ∈ arguments, ∀ name, expr.declares name = true → declared name) :
    Keeps (Frame scope declared) (call conditions depth sub scope callee arguments) := by
  refine frame_get fun world => frame_bind (frame_ofExcept _) fun function => ?_
  have rest : Keeps (Frame scope declared) (do
      let values ← all sub scope arguments
      invoke conditions depth sub scope function values) :=
    frame_bind (frame_all disciplined scope arguments covered)
      fun values => frame_invoke disciplined scope function values
  split
  · exact frame_bind (frame_fail _) fun _ => rest
  · exact rest

theorem frame_labeledCall (callee : String) (labeled : List (String × Expr))
    (covered : ∀ entry ∈ labeled, ∀ name, entry.2.declares name = true → declared name) :
    Keeps (Frame scope declared) (labeledCall conditions depth sub scope callee labeled) := by
  refine frame_get fun world => frame_bind (frame_ofExcept _) fun function => ?_
  cases arranged : arrangeLabels callee function.params labeled with
  | error fault => exact fun world => Frame.refl world
  | ok arguments =>
      have each : ∀ expr ∈ arguments, ∀ name, expr.declares name = true → declared name := by
        intro expr member
        obtain ⟨label, present⟩ := mem_of_arrangeLabels _ _ _ _ arranged expr member
        exact covered (label, expr) present
      have rest : Keeps (Frame scope declared) (do
          let values ← all sub scope arguments
          invoke conditions depth sub scope function values) :=
        frame_bind (frame_all disciplined scope arguments each)
          fun values => frame_invoke disciplined scope function values
      exact fun world => rest world

theorem frame_step (expr : Expr) :
    Keeps (Frame scope fun name => expr.declares name = true)
      (step conditions depth sub scope expr) := by
  cases expr with
  | missing => exact frame_fail _
  | int | bool | text | function => exact frame_pure _
  | sequence items =>
      refine frame_bind (frame_all disciplined scope items ?_) fun values => frame_pure _
      exact fun expr member name => Expr.anyDeclares_of_mem member
  | set items =>
      refine frame_bind (frame_all disciplined scope items ?_) fun values => frame_pure _
      exact fun expr member name => Expr.anyDeclares_of_mem member
  | mapping items =>
      refine frame_bind (frame_entries disciplined scope items ?_) fun values => frame_pure _
      exact fun entry member name => Expr.entryDeclares_of_mem member
  | identifier name =>
      refine frame_get fun world => ?_
      split
      · exact frame_pure _
      · exact frame_fail _
  | update op before operand =>
      exact frame_update disciplined scope op operand fun name inside => inside
  | binary op lhs rhs =>
      refine frame_bind (frame_sub disciplined scope lhs ?_) fun left =>
        frame_bind (frame_sub disciplined scope rhs ?_) fun right => frame_ofExcept _
      · exact fun name inside => by simp [Expr.declares, inside]
      · exact fun name inside => by simp [Expr.declares, inside]
  | declare name mutable value =>
      refine frame_bind (frame_sub disciplined scope value ?_) fun result =>
        frame_bind (frame_declare name result mutable ?_) fun _ => frame_pure _
      · exact fun other inside => by simp [Expr.declares, inside]
      · simp [Expr.declares]
  | assign name value =>
      exact frame_bind (frame_sub disciplined scope value fun _ inside => inside) fun result =>
        frame_bind (frame_assign name result) fun _ => frame_pure _
  | println argument =>
      exact frame_bind (frame_sub disciplined scope argument fun _ inside => inside) fun result =>
        frame_bind (frame_print conditions _) fun _ => frame_pure _
  | branch test consequent alternative =>
      refine frame_bind (frame_condition disciplined scope _ test ?_) fun holds => ?_
      · exact fun name inside => by simp [Expr.declares, inside]
      split
      · exact frame_sub disciplined scope consequent fun name inside => by
          simp [Expr.declares, inside]
      · split
        · rename_i other
          exact frame_sub disciplined scope other fun name inside => by
            simp [Expr.declares, Expr.alternativeDeclares, inside]
        · exact frame_pure _
  | loop test body =>
      refine frame_repeatWhile disciplined scope test body conditions.rounds ?_ ?_
      · exact fun name inside => by simp [Expr.declares, inside]
      · exact fun name inside => by simp [Expr.declares, inside]
  | block elements =>
      exact frame_last disciplined scope _ elements fun expr member name =>
        Expr.anyDeclares_of_mem member
  | call callee arguments =>
      exact frame_call disciplined scope callee arguments fun expr member name =>
        Expr.anyDeclares_of_mem member
  | labeledCall callee arguments =>
      exact frame_labeledCall disciplined scope callee arguments fun entry member name =>
        Expr.entryDeclares_of_mem member

end Forms

theorem withRoom_disciplined (conditions : Conditions) (room : Nat) :
    Disciplined (withRoom conditions room) := by
  induction room with
  | zero =>
      intro scope expr
      rw [withRoom.eq_def]
      split
      · exact frame_fail _
      · exact frame_fail _
      · contradiction
  | succ room ih =>
      intro scope expr
      by_cases present : expr = .missing
      · rw [present, withRoom]
        exact frame_fail _
      · rw [withRoom.eq_3 _ _ _ _ present, onStackOf_eq]
        exact frame_bind (frame_trace conditions expr) fun _ => frame_step ih scope expr

theorem evaluate_disciplined (conditions : Conditions) (scope : ScopeId) (expr : Expr)
    (world : World) :
    Scopes.Disciplined scope (fun name => expr.declares name = true) world.scopes
      (after (evaluate conditions scope expr) world).scopes :=
  withRoom_disciplined conditions conditions.maxDepth scope expr world

end Eval

end Koy
