import Koy.Proofs.Regimes
import Koy.Proofs.ValueEquality

/-! Values and function tables stay sound. No place holds the value of a place that holds none, no set
holds two equal members, and a function is registered under its own name. Evaluation keeps all this
whatever it evaluates and however it ends, and a function once registered stays so, if under another
definition. -/

namespace Koy

namespace Value

/-- A value that stands for something, with sets and mappings that are ones, through all its parts. -/
inductive Sound : Value → Prop where
  | int (n : Int64) : Sound (.int n)
  | bool (b : Bool) : Sound (.bool b)
  | text (content : Bytes) : Sound (.text content)
  | sequence {items : List Value} (parts : ∀ item ∈ items, Sound item) : Sound (.sequence items)
  | set {members : List Value} (parts : ∀ member ∈ members, Sound member)
      (apart : members.Pairwise fun a b => a.equal b = false ∧ b.equal a = false) :
      Sound (.set members)
  | mapping {entries : List (String × Value)} (parts : ∀ entry ∈ entries, Sound entry.2)
      (ordered : NameMap.Sorted entries) : Sound (.mapping entries)
  | function (params : List String) (body : Body) : Sound (.function params body)

theorem Sound.wellFormed {value : Value} (sound : value.Sound) : value.WellFormed := by
  induction sound with
  | int n => exact .int n
  | bool b => exact .bool b
  | text content => exact .text content
  | sequence parts ih => exact .sequence _ ih
  | set parts apart ih =>
      rename_i members
      have built : ofSet members = .set members :=
        congrArg Value.set (distinctFrom_of_pairwise [] members (apart.imp And.left))
      exact built ▸ .set members ih
  | mapping parts ordered ih =>
      rename_i entries
      have built : ofMapping entries = .mapping entries :=
        congrArg Value.mapping (NameMap.ofList_of_sorted entries ordered)
      exact built ▸ .mapping entries ih
  | function params body => exact .function params body

/-- Members are compared with those before them only, which is enough since equality is symmetric. -/
theorem Sound.ofSet {values : List Value} (parts : ∀ value ∈ values, value.Sound) :
    (ofSet values).Sound := by
  have kept : ∀ member ∈ Value.distinct values, member.Sound := fun member present =>
    parts member ((mem_distinctFrom [] values member present).resolve_left List.not_mem_nil)
  refine .set kept ?_
  apply (distinctFrom_pairwise [] values List.Pairwise.nil).imp_of_mem
  intro a b ha hb apart
  refine ⟨apart, Bool.eq_false_iff.mpr fun same => ?_⟩
  rw [lawfulOn_wellFormed.symm b a (kept b hb).wellFormed (kept a ha).wellFormed same] at apart
  cases apart

theorem Sound.ofMapping {entries : List (String × Value)}
    (parts : ∀ entry ∈ entries, entry.2.Sound) : (ofMapping entries).Sound :=
  .mapping (fun entry present => parts entry (NameMap.mem_ofList entries entry present))
    (NameMap.sorted_ofList entries)

end Value

namespace FunctionTable

def Named (functions : FunctionTable) : Prop :=
  ∀ name function, NameMap.get? functions name = some function → function.name = name

theorem Named.define {functions : FunctionTable} (named : functions.Named) (function : FunctionDef) :
    (functions.define function).Named := by
  intro name found present
  rw [FunctionTable.define, NameMap.get?_insert] at present
  split at present
  · rename_i same
    cases present
    exact same.symm
  · exact named name found present

theorem contains_define {functions : FunctionTable} {name : String} (function : FunctionDef)
    (present : NameMap.contains functions name = true) :
    NameMap.contains (functions.define function) name = true := by
  rw [NameMap.contains, FunctionTable.define, NameMap.get?_insert]
  split
  · rfl
  · exact present

end FunctionTable

structure World.Sound (world : World) : Prop where
  bound (id : ScopeId) (name : String) (binding : Binding) :
    (world.scopes.bindings id).get? name = some binding → binding.value.Sound
  named : world.functions.Named

/-- Any expression may be evaluated, values are sound, and the given functions stay registered. -/
def Regime.sound (names : List String) : Regime where
  expr _ := True
  value := Value.Sound
  halt _ := True
  part _ _ := trivial
  int := .int
  bool := .bool
  text := .text
  sequence := .sequence
  set := .ofSet
  mapping := .ofMapping
  function _ := .function _ _
  body _ := trivial
  fault _ := trivial
  unwritable _ := trivial
  missing _ := trivial
  operator _ := trivial
  unfinished _ := trivial
  table functions :=
    functions.Named ∧ ∀ name ∈ names, NameMap.contains functions name = true
  define function kept :=
    ⟨kept.1.define function, fun name listed =>
      FunctionTable.contains_define function (kept.2 name listed)⟩

namespace Regime

theorem sound_holds_iff (names : List String) (world : World) :
    (sound names).Holds world ↔
      world.Sound ∧ ∀ name ∈ names, NameMap.contains world.functions name = true := by
  constructor
  · intro holds
    exact ⟨⟨holds.bound, holds.table.1⟩, holds.table.2⟩
  · rintro ⟨formed, kept⟩
    exact ⟨formed.bound, fun _ function _ => .function function.params function.body,
      formed.named, kept⟩

theorem sound_definition (names : List String) (definition : Definition) :
    (sound names).definition definition := by
  cases definition with
  | function defined => exact .function defined.params defined.body
  | value defined => trivial
  | missing => trivial

theorem sound_entry (names : List String) (entry : Entry) : (sound names).entry entry := by
  cases entry with
  | function defined => exact .function defined.params defined.body
  | expression expr => trivial

end Regime

structure World.Continues (world earlier : World) : Prop where
  sound : world.Sound
  kept (name : String) : NameMap.contains earlier.functions name = true →
    NameMap.contains world.functions name = true

theorem World.Continues.of_regime {world earlier : World} (sound : earlier.Sound)
    (held : ∀ names, (Regime.sound names).Holds earlier → (Regime.sound names).Holds world) :
    world.Continues earlier := by
  have start (names : List String)
      (kept : ∀ name ∈ names, NameMap.contains earlier.functions name = true) :=
    (Regime.sound_holds_iff names world).mp
      (held names ((Regime.sound_holds_iff names earlier).mpr ⟨sound, kept⟩))
  constructor
  · exact (start [] fun _ none => absurd none List.not_mem_nil).1
  · intro name present
    exact (start [name] (List.forall_mem_singleton.mpr present)).2 name List.mem_cons_self

inductive Job where
  | expression (scope : ScopeId) (expr : Expr)
  | definition (definition : Definition)
  | program (program : Option Program)
  | expressionSource (scope : ScopeId) (source : Bytes)
  | programSource (name : String) (source : Bytes)
  | interactive (source : Bytes)

namespace Session

def perform (session : Session) : Job → List Value × Session
  | .expression scope expr => collect (session.evalIn scope expr)
  | .definition definition => collect (session.define definition)
  | .program program => collect (session.runProgram program)
  | .expressionSource scope source => collect (session.evalSource scope source)
  | .programSource name source => collect (session.runSource name source)
  | .interactive source => ((session.enter source).1, (session.enter source).2.2)
where
  collect (outcome : Except Failure Value × Session) : List Value × Session :=
    (outcome.1.toOption.toList, outcome.2)

def performAll (session : Session) : List Job → List Value × Session
  | [] => ([], session)
  | job :: rest =>
    ((session.perform job).1 ++ ((session.perform job).2.performAll rest).1,
      ((session.perform job).2.performAll rest).2)

variable {session : Session} {names : List String}

def Delivers (names : List String) (outcome : List Value × Session) : Prop :=
  (∀ value ∈ outcome.1, value.Sound) ∧ (Regime.sound names).Holds outcome.2.world

theorem run_delivers {computation : Eval Value}
    (holds : (Regime.sound names).Holds session.world)
    (upholds : Eval.Upholds (Regime.sound names) Value.Sound computation) :
    Delivers names (perform.collect (session.run computation)) := by
  refine ⟨fun value member => ?_, (run_upholds holds upholds).2⟩
  apply run_yields holds upholds
  cases result : (session.run computation).1 with
  | error failure => simp [perform.collect, result, Except.toOption] at member
  | ok found =>
      simp only [perform.collect, result, Except.toOption, Option.toList_some,
        List.mem_singleton] at member
      rw [member]

theorem runProgram_delivers (holds : (Regime.sound names).Holds session.world)
    (program : Option Program) : Delivers names (perform.collect (session.runProgram program)) := by
  cases program with
  | none => exact run_delivers holds (.fail (by simp [Fault.kind]))
  | some program =>
      have kept : (Regime.sound names).Holds (session.load (Loading.program program)).2.world := holds
      exact run_delivers kept (Eval.runProgram_upholds _ _ fun definition _ =>
        Regime.sound_definition names definition)

theorem evalIn_delivers (holds : (Regime.sound names).Holds session.world) (scope : ScopeId)
    (expr : Expr) : Delivers names (perform.collect (session.evalIn scope expr)) := by
  have kept : (Regime.sound names).Holds (session.load (Loading.expr expr)).2.world := holds
  exact run_delivers kept (Eval.evaluate_upholds _ scope _ trivial)

theorem perform_delivers (holds : (Regime.sound names).Holds session.world) (job : Job) :
    Delivers names (session.perform job) := by
  have refused : Delivers names ([], session) := ⟨fun _ none => absurd none List.not_mem_nil, holds⟩
  cases job with
  | expression scope expr => exact evalIn_delivers holds scope expr
  | definition definition =>
      have kept : (Regime.sound names).Holds
        (session.load (Loading.definition definition)).2.world := holds
      exact run_delivers kept (Eval.define_upholds _ _ (Regime.sound_definition names _))
  | program program => exact runProgram_delivers holds program
  | expressionSource scope source =>
      rw [perform, evalSource]
      cases Expr.parse source with
      | error error => exact refused
      | ok expr => exact evalIn_delivers holds scope expr
  | programSource name source =>
      rw [perform, runSource]
      cases Program.parse source with
      | error error => exact refused
      | ok program => exact runProgram_delivers holds (some program)
  | interactive source =>
      rw [perform, enter]
      cases Entry.parseAll source with
      | error error => exact refused
      | ok entries =>
          have kept : (Regime.sound names).Holds
            (session.load (entries.mapM Loading.entry)).2.world := holds
          have allowed := fun entry (_ : entry ∈ (session.load (entries.mapM Loading.entry)).1) =>
            Regime.sound_entry names entry
          exact ⟨enterAll_yields kept _ allowed, (enterAll_upholds kept _ allowed).2⟩

theorem performAll_delivers (holds : (Regime.sound names).Holds session.world) (jobs : List Job) :
    Delivers names (session.performAll jobs) := by
  induction jobs generalizing session with
  | nil => exact ⟨fun _ none => absurd none List.not_mem_nil, holds⟩
  | cons job rest ih =>
      obtain ⟨first, kept⟩ := perform_delivers holds job
      obtain ⟨others, final⟩ := ih kept
      refine ⟨fun value member => ?_, final⟩
      rcases List.mem_append.mp member with here | later
      · exact first value here
      · exact others value later

theorem world_sound (conditions : Conditions) (jobs : List Job) :
    (({ conditions } : Session).performAll jobs).2.world.Sound := by
  have fresh : (Regime.sound []).Holds ({ conditions } : Session).world := by
    apply Regime.Holds.initial
    exact ⟨nofun, nofun⟩
  exact ((Regime.sound_holds_iff [] _).mp (performAll_delivers fresh jobs).2).1

theorem performAll_continues (sound : session.world.Sound) (jobs : List Job) :
    (session.performAll jobs).2.world.Continues session.world :=
  .of_regime sound fun _ holds => (performAll_delivers holds jobs).2

theorem performAll_values (sound : session.world.Sound) (jobs : List Job) :
    ∀ value ∈ (session.performAll jobs).1, value.Sound := by
  have holds : (Regime.sound []).Holds session.world :=
    (Regime.sound_holds_iff [] _).mpr ⟨sound, nofun⟩
  exact (performAll_delivers holds jobs).1

/-- Whatever is evaluated in a sound world, and however that ends, the world stays sound, no function
is lost, and a value that comes of it is sound. So it is with everything that a new session is asked
to do. -/
theorem evaluation_stays_sound :
    (∀ (conditions : Conditions) (scope : ScopeId) (expr : Expr) (world : World), world.Sound →
      (Eval.after (Eval.evaluate conditions scope expr) world).Continues world ∧
        ∀ value final, Eval.evaluate conditions scope expr world = .ok value final → value.Sound) ∧
    ∀ (conditions : Conditions) (jobs more : List Job),
      let (values, session) := ({ conditions } : Session).performAll jobs
      session.world.Sound ∧ (∀ value ∈ values, value.Sound) ∧
        (session.performAll more).2.world.Continues session.world := by
  constructor
  · intro conditions scope expr world sound
    have upholds (names : List String) :=
      @Eval.evaluate_upholds (Regime.sound names) conditions scope expr trivial
    refine ⟨.of_regime sound fun names holds => (upholds names).after holds, ?_⟩
    intro value final ended
    have holds : (Regime.sound []).Holds world := (Regime.sound_holds_iff [] world).mpr ⟨sound, nofun⟩
    have admitted := upholds [] world holds
    rw [ended] at admitted
    exact admitted.1
  · intro conditions jobs more
    have sound := world_sound conditions jobs
    exact ⟨sound, performAll_values (world_sound conditions []) jobs, performAll_continues sound more⟩

theorem evaluation_stays_sound_sample :
    let bound : Value := .ofSet [.int 1, .int 2]
    let world : World :=
      { scopes := Scopes.initial.bind Scopes.rootId "s" { value := bound }
        functions := [("f", { name := "f", params := [], body := { elements := [] } })] }
    let expr : Expr := .set [.identifier "s" {}, .identifier "s" {}, .call "f" [] {}] {}
    let ended := Eval.after (Eval.evaluate { maxDepth := 3 } Scopes.rootId expr) world
    world.Sound ∧ ended.Continues world ∧ (Value.set [bound, .int 0]).Sound := by
  intro bound world expr ended
  have formed : bound.Sound := .ofSet (by simp [Value.Sound.int])
  have sound : world.Sound := by
    constructor
    · intro id name binding present
      rw [Scopes.get?_bindings_bind] at present
      split at present
      · cases present
        exact formed
      · exact ((Regime.Holds.initial (Regime.sound []) ⟨nofun, nofun⟩).bound id name binding present)
    · intro name function present
      rw [NameMap.get?_cons] at present
      split at present
      · rename_i same
        cases present
        exact same.symm
      · cases present
  obtain ⟨continues, yields⟩ :=
    evaluation_stays_sound.1 { maxDepth := 3 } Scopes.rootId expr world sound
  have collapsed : Value.ofSet [bound, bound, .int 0] = .set [bound, .int 0] := by
    simp only [bound]
    cbv
  exact ⟨sound, continues, collapsed ▸ yields _ ended rfl⟩

end Session

end Koy
