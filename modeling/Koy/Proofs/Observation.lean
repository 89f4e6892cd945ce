import Koy.Proofs.Agreement
import Koy.Session

/-! Observing a session changes nothing in it. Traces and the log of calls come on top of what a
session answers, keeps and prints. -/

namespace Koy

def Event.printed : Event → Bytes
  | .trace _ => []
  | event => event.output

theorem Settings.conditions_unseen (settings : Settings) (debug : Bool) (logLevel : Bytes)
    (unwritable : Option String) :
    ({ settings with debug, logLevel }.conditions unwritable).Unseen Event.printed
      (settings.conditions unwritable) := by
  unfold Settings.conditions
  constructor
  · split <;> rfl
  · split <;> rfl
  · exact .inr fun _ => rfl
  · exact fun _ _ _ => rfl
  · exact fun _ _ => rfl

theorem Settings.maxDepth_conditions (settings : Settings) (debug : Bool) (logLevel : Bytes)
    (unwritable : Option String) :
    ({ settings with debug, logLevel }.conditions unwritable).maxDepth =
      (settings.conditions unwritable).maxDepth := by
  unfold Settings.conditions
  split <;> rfl

namespace Eval

section Runs

variable {view : Event → Bytes} {exempt : Halt → Prop} {conditions conditions' : Conditions}
  (unseen : conditions.Unseen view conditions')
  (limit : conditions.maxDepth = conditions'.maxDepth)

include unseen limit

theorem evaluate_agrees (scope : ScopeId) (expr : Expr) :
    Agrees view exempt (evaluate conditions scope expr) (evaluate conditions' scope expr) := by
  unfold evaluate
  rw [← limit]
  exact withRoom_agrees unseen 0 (.inl ⟨rfl, limit⟩) conditions.maxDepth scope expr

theorem agrees_liftedRun : LiftedRun conditions conditions' fun _ => Agrees view exempt where
  toCompositional := Agrees.compositional
  evaluate := evaluate_agrees unseen limit Scopes.rootId
  declare := declare_agrees Scopes.rootId
  register function := by
    apply Agrees.modify
    intro world other alike
    rw [alike.functions]
    exact alike.withFunctions _
  main := by
    apply Agrees.get_bind
    intro world other alike
    rw [alike.functions]
    exact .pure _

theorem define_agrees (definition : Definition) :
    Agrees view exempt (define conditions definition) (define conditions' definition) :=
  (agrees_liftedRun unseen limit).define definition

theorem runProgram_agrees (program : Option Program) :
    Agrees view exempt (runProgram conditions program) (runProgram conditions' program) :=
  (agrees_liftedRun unseen limit).runProgram program

theorem enterOne_agrees (entry : Entry) :
    Agrees view exempt (Session.enterOne conditions entry) (Session.enterOne conditions' entry) := by
  cases entry with
  | function defined => exact define_agrees unseen limit (.function defined)
  | expression expr => exact evaluate_agrees unseen limit Scopes.rootId expr

end Runs

end Eval

namespace Session

/-- Two sessions that differ at most in how they are observed. -/
structure Alike (session other : Session) : Prop where
  unseen : session.conditions.Unseen Event.printed other.conditions
  limit : session.conditions.maxDepth = other.conditions.maxDepth
  world : session.world.Alike Event.printed other.world
  bodies : session.bodies = other.bodies

variable {session other : Session}

theorem Alike.run {α : Type} {first second : Eval α} (alike : session.Alike other)
    (agrees : Eval.Agrees Event.printed (fun _ => False) first second) :
    (session.run first).1 = (other.run second).1 ∧
      (session.run first).2.Alike (other.run second).2 := by
  have ran := agrees session.world other.world alike.world
  simp only [Session.run, EStateM.run]
  generalize first session.world = reached at ran
  generalize second other.world = reached' at ran
  cases ran with
  | ok value world => exact ⟨rfl, alike.unseen, alike.limit, world, alike.bodies⟩
  | error halt world => exact ⟨rfl, alike.unseen, alike.limit, world, alike.bodies⟩
  | exempted reason => exact reason.elim

theorem Alike.load {α : Type} (alike : session.Alike other) (tree : Loading α) :
    (session.load tree).1 = (other.load tree).1 ∧
      (session.load tree).2.Alike (other.load tree).2 := by
  rw [load_eq, load_eq, alike.bodies]
  exact ⟨rfl, alike.unseen, alike.limit, alike.world, rfl⟩

theorem Alike.runProgram (alike : session.Alike other) (program : Option Program) :
    (session.runProgram program).1 = (other.runProgram program).1 ∧
      (session.runProgram program).2.Alike (other.runProgram program).2 := by
  cases program with
  | none => exact alike.run (Eval.runProgram_agrees alike.unseen alike.limit none)
  | some program =>
      obtain ⟨loaded, alike'⟩ := alike.load (Loading.program program)
      simp only [Session.runProgram]
      rw [loaded]
      exact alike'.run (Eval.runProgram_agrees alike'.unseen alike'.limit _)

theorem Alike.enterAll (alike : session.Alike other) (entries : List Entry) :
    (session.enterAll entries).1 = (other.enterAll entries).1 ∧
      (session.enterAll entries).2.1 = (other.enterAll entries).2.1 ∧
      (session.enterAll entries).2.2.Alike (other.enterAll entries).2.2 := by
  induction entries generalizing session other with
  | nil => exact ⟨rfl, rfl, alike⟩
  | cons entry rest ih =>
      obtain ⟨answer, alike'⟩ := alike.run (Eval.enterOne_agrees alike.unseen alike.limit entry)
      rw [Session.enterAll, Session.enterAll]
      generalize session.run (enterOne session.conditions entry) = first at answer alike'
      generalize other.run (enterOne other.conditions entry) = second at answer alike'
      obtain ⟨result, reached⟩ := first
      obtain ⟨result', reached'⟩ := second
      cases answer
      cases result with
      | error failure => exact ⟨rfl, rfl, alike'⟩
      | ok value =>
          obtain ⟨values, failure, final⟩ := ih alike'
          exact ⟨congrArg (value :: ·) values, failure, final⟩

theorem Alike.enter (alike : session.Alike other) (source : Bytes) :
    (session.enter source).1 = (other.enter source).1 ∧
      (session.enter source).2.1 = (other.enter source).2.1 ∧
      (session.enter source).2.2.Alike (other.enter source).2.2 := by
  unfold Session.enter
  cases Entry.parseAll source with
  | error error => exact ⟨rfl, rfl, alike⟩
  | ok entries =>
      obtain ⟨loaded, alike'⟩ := alike.load (entries.mapM Loading.entry)
      dsimp only
      rw [loaded]
      exact alike'.enterAll _

/-- Whether a session traces what it evaluates, and how much it logs, makes no difference to what it
answers, to the scopes and functions that it is left with, or to what it prints apart from traces. -/
theorem observation_changes_nothing (settings : Settings) (debug : Bool) (logLevel : Bytes)
    (unwritable : Option String) (world : World) (bodies : Nat) :
    let plain : Session := { Session.new settings unwritable with world, bodies }
    let observed : Session :=
      { Session.new { settings with debug, logLevel } unwritable with world, bodies }
    (∀ program, (observed.runProgram program).1 = (plain.runProgram program).1 ∧
      (observed.runProgram program).2.world.Alike Event.printed
        (plain.runProgram program).2.world) ∧
    (∀ entries, (observed.enterAll entries).1 = (plain.enterAll entries).1 ∧
      (observed.enterAll entries).2.1 = (plain.enterAll entries).2.1 ∧
      (observed.enterAll entries).2.2.world.Alike Event.printed
        (plain.enterAll entries).2.2.world) ∧
    ∀ source, (observed.enter source).1 = (plain.enter source).1 ∧
      (observed.enter source).2.1 = (plain.enter source).2.1 ∧
      (observed.enter source).2.2.world.Alike Event.printed (plain.enter source).2.2.world := by
  intro plain observed
  have alike : observed.Alike plain :=
    ⟨settings.conditions_unseen debug logLevel unwritable,
      settings.maxDepth_conditions debug logLevel unwritable, .refl world, rfl⟩
  refine ⟨fun program => ?_, fun entries => ?_, fun source => ?_⟩
  · obtain ⟨answer, final⟩ := alike.runProgram program
    exact ⟨answer, final.world⟩
  · obtain ⟨values, failure, final⟩ := alike.enterAll entries
    exact ⟨values, failure, final.world⟩
  · obtain ⟨values, failure, final⟩ := alike.enter source
    exact ⟨values, failure, final.world⟩

end Session

end Koy
