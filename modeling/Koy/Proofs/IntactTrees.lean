import Koy.Proofs.Arriving
import Koy.Proofs.Everywhere
import Koy.Proofs.NamedTokens

/-! Source text builds intact trees only: no place is left empty, every operator is one, and every
name is one. Loading keeps them so, and so does a session, in which trees travel on as the bodies of
functions. What would be said about a tree that is not intact is therefore never said to a user of
source text. -/

namespace Koy

open Parse Grammar

/-- The expression is there, and its operator and its names are ones. The key of a mapping entry may
be any text. -/
def Expr.isProper : Expr → Bool
  | .missing => false
  | .binary op _ _ _ => op.known
  | .function params _ _ _ _ => params.all printableName
  | .identifier name _ | .declare name _ _ _ | .assign name _ _ | .call name _ _ => printableName name
  | .labeledCall callee arguments _ =>
    printableName callee && (arguments.map Prod.fst).all printableName
  | _ => true

abbrev Expr.Intact (expr : Expr) : Prop :=
  expr.Every (·.isProper = true)

def Regime.intact : Regime :=
  .everywhere (·.isProper = true) fun _ _ => rfl

namespace Grammar

theorem of_lookup {level : Level} (listed : level ∈ levels) {kind : TokenKind} {op : BinaryOp}
    (found : level.lookup kind = some op) :
    op.known = true ∧ op ∈ BinaryOp.all ∧ kind = op.token := by
  have each : ∀ level ∈ levels, ∀ entry ∈ level,
      entry.2.known = true ∧ entry.2 ∈ BinaryOp.all ∧ entry.1 = entry.2.token := by decide
  obtain ⟨before, after, rfl, -⟩ := List.lookup_eq_some_iff.mp found
  exact each _ listed (kind, op) (List.mem_append_right before List.mem_cons_self)

/-- The expressions that are read from named tokens are intact, whatever the places are. -/
abbrev IntactTree (_ : Nat) (expr _ : Expr) (_ : Nat) : Prop :=
  expr.Intact

namespace IntactTree

variable {items : Items} (named : ∀ n token, items n = .ok token → token.Named) {n m : Nat}

include named

theorem names {as bs : List String} (listed : Listed items (Named items) n as bs m) :
    as.all printableName = true := by
  refine List.all_eq_true.mpr (listed.forall_mem ?_)
  rintro _ _ _ _ ⟨here, is⟩
  exact named _ _ here is

theorem labels {as bs : List (String × Expr)}
    (listed : Listed items (Keyed items IntactTree [.identifier] .assign) n as bs m) :
    (as.map Prod.fst).all printableName = true := by
  refine List.all_eq_true.mpr (List.forall_mem_map.mpr (listed.forall_mem ?_))
  rintro _ _ _ _ ⟨here, is, -, -⟩
  exact named _ _ here (List.mem_singleton.mp is)

omit named in
theorem entries {keys : List TokenKind} {mark : TokenKind} {as bs : List (String × Expr)}
    (listed : Listed items (Keyed items IntactTree keys mark) n as bs m) :
    ∀ child ∈ as.map Prod.snd, child.Intact := by
  refine List.forall_mem_map.mpr (listed.forall_mem ?_)
  rintro _ _ _ _ ⟨-, -, -, value⟩
  exact value

omit named in
theorem braced {a b : List Expr × Position} (braced : Braced items id IntactTree n a b m) :
    ∀ element ∈ a.1, element.Intact := by
  obtain ⟨-, -, inside, -⟩ := braced
  exact inside.forall_mem fun _ _ _ _ intact => intact

theorem signature {a b : List String × Body} (signature : Signature items id IntactTree n a b m) :
    a.1.all printableName = true ∧ ∀ element ∈ a.2.elements, element.Intact := by
  obtain ⟨⟨-, params, -⟩, body⟩ := signature
  exact ⟨names named params, braced body⟩

theorem declared {a b : ValueDef} (declared : Declared items id IntactTree n a b m) :
    printableName a.name = true ∧ a.value.Intact := by
  obtain ⟨-, -, -, there, is, -, value⟩ := declared
  exact ⟨named _ _ there is, value⟩

theorem defined {a b : FunctionDef} (defined : Defined items id IntactTree n a b m) :
    ∀ element ∈ a.body.elements, element.Intact := by
  obtain ⟨-, -, -, -, function⟩ := defined
  exact (signature named function).2

theorem topLevel (n : Nat) (a b : Definition) (m : Nat)
    (element : TopLevel items id IntactTree n a b m) : Regime.intact.definition a := by
  cases element with
  | function function => exact .function (defined named function)
  | value value => exact (declared named value).2

theorem entered (n : Nat) (a b : Entry) (m : Nat) (element : Entered items id IntactTree n a b m) :
    Regime.intact.entry a := by
  cases element with
  | function function => exact .function (defined named function)
  | expression whole => exact whole

theorem productions : Productions items id IntactTree where
  int _ _ _ := .intro rfl (by simp [Expr.children, Expr.parts])
  negative _ _ _ _ _ := .intro rfl (by simp [Expr.children, Expr.parts])
  negation {_ _ start _ _} _ _ operand := by
    have zero : (Expr.int 0 start.position).Intact :=
      .intro rfl (by simp [Expr.children, Expr.parts])
    exact .intro rfl (List.forall_mem_cons.mpr ⟨zero, List.forall_mem_singleton.mpr operand⟩)
  text _ _ := .intro rfl (by simp [Expr.children, Expr.parts])
  bool _ _ _ := .intro rfl (by simp [Expr.children, Expr.parts])
  identifier here is := .intro (named _ _ here is) (by simp [Expr.children, Expr.parts])
  parenthesized enclosed := by
    obtain ⟨-, inside, -⟩ := enclosed
    exact inside
  sequence _ content := by
    obtain ⟨-, inside, -⟩ := content
    exact .intro rfl (inside.forall_mem fun _ _ _ _ intact => intact)
  set _ content := by
    obtain ⟨-, inside, -⟩ := content
    exact .intro rfl (inside.forall_mem fun _ _ _ _ intact => intact)
  mapping _ content := by
    obtain ⟨-, inside, -⟩ := content
    exact .intro rfl (entries inside)
  function _ _ function := by
    obtain ⟨names, each⟩ := signature named function
    exact .intro names each
  block block := .intro rfl (braced block)
  println _ _ argument := by
    obtain ⟨-, inside, -⟩ := argument
    exact .intro rfl (List.forall_mem_singleton.mpr inside)
  branch _ _ condition consequent alternative := by
    obtain ⟨-, inside, -⟩ := condition
    refine .intro rfl (List.forall_mem_cons.mpr ⟨inside, List.forall_mem_cons.mpr ⟨consequent, ?_⟩⟩)
    cases alternative with
    | none => simp
    | here _ value => exact List.forall_mem_singleton.mpr value
    | below _ _ value => exact List.forall_mem_singleton.mpr value
  loop _ _ condition body := by
    obtain ⟨-, inside, -⟩ := condition
    exact .intro rfl (List.forall_mem_cons.mpr ⟨inside, List.forall_mem_singleton.mpr body⟩)
  call here is arguments := by
    obtain ⟨-, inside, -⟩ := arguments
    exact .intro (named _ _ here is) (inside.forall_mem fun _ _ _ _ intact => intact)
  labeledCall here is arguments := by
    obtain ⟨-, ⟨-, inside, -⟩, -⟩ := arguments
    refine .intro ?_ (entries inside)
    rw [Expr.isProper, named _ _ here is, labels named inside]
    rfl
  prefixed _ _ operand := .intro rfl (List.forall_mem_singleton.mpr operand)
  postfixed operand _ _ := .intro rfl (List.forall_mem_singleton.mpr operand)
  binary lhs _ listed found rhs :=
    .intro (of_lookup listed found).1
      (List.forall_mem_cons.mpr ⟨lhs, List.forall_mem_singleton.mpr rhs⟩)
  declaration given := by
    obtain ⟨name, value⟩ := declared named given
    exact .intro name (List.forall_mem_singleton.mpr value)
  assignment here is _ value := .intro (named _ _ here is) (List.forall_mem_singleton.mpr value)

end IntactTree

end Grammar

theorem Program.intact_of_parse {source : Bytes} {program : Program}
    (parsed : Program.parse source = .ok program) :
    ∀ definition ∈ program.definitions, Regime.intact.definition definition := by
  have named := Lexer.named_of_source source
  obtain ⟨_, _, elements, -⟩ := yields_of_runOn (fun budget =>
    reader_holds _ (IntactTree.productions named) (Nat.zero_le _) (Nat.le_refl budget)) parsed
  exact elements.forall_mem (IntactTree.topLevel named)

theorem Entry.intact_of_parseAll {source : Bytes} {entries : List Entry}
    (parsed : Entry.parseAll source = .ok entries) : ∀ entry ∈ entries, Regime.intact.entry entry := by
  have named := Lexer.named_of_source source
  obtain ⟨_, _, elements, -⟩ := yields_of_runOn (fun budget =>
    reader_holds _ (IntactTree.productions named) (Nat.zero_le _) (Nat.le_refl budget)
      (Nat.le_refl budget)) parsed
  exact elements.forall_mem (IntactTree.entered named)

theorem Expr.intact_of_parse {source : Bytes} {expr : Expr}
    (parsed : Expr.parse source = .ok expr) : expr.Intact := by
  have named := Lexer.named_of_source source
  obtain ⟨_, _, _, _, intact⟩ := yields_of_runOn (fun budget =>
    wholeExpression_holds _ (IntactTree.productions named) (Nat.zero_le _) (Nat.le_refl budget)) parsed
  exact intact

theorem Loading.entries_names (trees : List (String × Expr)) (bodies : Nat) :
    (entries trees bodies).1.map Prod.fst = trees.map Prod.fst := by
  induction trees generalizing bodies with
  | nil => rfl
  | cons first rest ih => exact congrArg (first.1 :: ·) (ih _)

theorem Loading.stable_isProper : Stable (·.isProper = true) := by
  intro expr bodies proper
  cases expr with
  | missing => cases proper
  | binary | function | identifier | declare | assign | call => exact proper
  | labeledCall callee arguments =>
      change (_ && ((entries arguments bodies).1.map Prod.fst).all _) = true
      rw [entries_names]
      exact proper
  | _ => rfl

def Failure.kind? : Failure → Option FaultKind
  | .halted (.fault cause) => some cause.kind
  | _ => none

theorem Failure.kind?_of_intact {failure : Failure} (allowed : Regime.intact.failure failure) :
    failure.kind? ≠ some .unsupported := by
  match failure with
  | .malformed _ _ | .other _ | .halted (.unwritable _) | .halted .unfinished => nofun
  | .halted (.fault cause) =>
      intro unsupported
      cases cause with
      | missingExpression => exact Bool.noConfusion (show false = true from allowed)
      | missingDefinition => exact allowed.elim
      | unknownOperator code =>
          obtain ⟨lhs, rhs, position, known⟩ := allowed
          cases known
      | _ => cases unsupported

inductive Request where
  | program (source : Bytes)
  | interactive (source : Bytes)

namespace Session

def serve (session : Session) : Request → Option Failure × Session
  | .program source =>
    match session.runSource unnamedSource source with
    | (.ok _, session) => (none, session)
    | (.error failure, session) => (some failure, session)
  | .interactive source => (session.enter source).2

def failures (session : Session) : List Request → List Failure
  | [] => []
  | request :: rest =>
    (session.serve request).1.toList ++ failures (session.serve request).2 rest

variable {session : Session}

theorem runSource_intact (holds : Regime.intact.Holds session.world) (name : String)
    (source : Bytes) :
    (∀ failure, (session.runSource name source).1 = .error failure →
        Regime.intact.failure failure) ∧
      Regime.intact.Holds (session.runSource name source).2.world := by
  unfold runSource
  cases parsed : Program.parse source with
  | error error =>
      refine ⟨fun failure failed => ?_, holds⟩
      cases failed
      trivial
  | ok program =>
      have loaded := Loading.mapM_forall (Loading.definition_every Loading.stable_isProper)
        program.definitions session.bodies (Program.intact_of_parse parsed)
      exact run_upholds holds (Eval.runProgram_upholds session.conditions _ loaded)

theorem enter_intact (holds : Regime.intact.Holds session.world) (source : Bytes) :
    (∀ failure ∈ (session.enter source).2.1, Regime.intact.failure failure) ∧
      Regime.intact.Holds (session.enter source).2.2.world := by
  unfold enter
  cases parsed : Entry.parseAll source with
  | error error =>
      refine ⟨fun failure failed => ?_, holds⟩
      cases failed
      trivial
  | ok entries =>
      have loaded := Loading.mapM_forall (Loading.entry_every Loading.stable_isProper)
        entries session.bodies (Entry.intact_of_parseAll parsed)
      have kept : Regime.intact.Holds (session.load (entries.mapM Loading.entry)).2.world := holds
      exact enterAll_upholds kept _ loaded

theorem serve_intact (holds : Regime.intact.Holds session.world) (request : Request) :
    (∀ failure ∈ (session.serve request).1, Regime.intact.failure failure) ∧
      Regime.intact.Holds (session.serve request).2.world := by
  cases request with
  | interactive source => exact enter_intact holds source
  | program source =>
      obtain ⟨failing, kept⟩ := runSource_intact holds unnamedSource source
      rw [serve]
      generalize session.runSource unnamedSource source = served at failing kept
      obtain ⟨result, reached⟩ := served
      cases result with
      | ok value => exact ⟨fun _ failed => (by cases failed), kept⟩
      | error failure =>
          refine ⟨fun found failed => ?_, kept⟩
          cases failed
          exact failing failure rfl

theorem failures_intact (holds : Regime.intact.Holds session.world) (requests : List Request) :
    ∀ failure ∈ session.failures requests, Regime.intact.failure failure := by
  induction requests generalizing session with
  | nil => exact fun _ none => absurd none List.not_mem_nil
  | cons request rest ih =>
      obtain ⟨failing, kept⟩ := serve_intact holds request
      intro failure member
      rcases List.mem_append.mp member with first | later
      · exact failing failure (Option.mem_toList.mp first)
      · exact ih kept failure later

/-- Whatever source text is given to a new session, in however many requests, none of them fails
because of a tree that the grammar does not know. -/
theorem source_never_unsupported (conditions : Conditions) (requests : List Request) :
    ∀ failure ∈ ({ conditions } : Session).failures requests,
      failure.kind? ≠ some .unsupported := by
  intro failure member
  apply Failure.kind?_of_intact
  exact failures_intact (.initial Regime.intact) requests failure member

theorem source_never_unsupported_sample :
    let requests : List Request := [.interactive (Bytes.ofString "y"), .program []]
    let failure : Failure := .halted (.fault (.undeclared "y"))
    failure ∈ ({ conditions := {} } : Session).failures requests ∧
      failure.kind? ≠ some .unsupported := by
  intro requests failure
  have entries : Entry.parseAll (Bytes.ofString "y") =
      .ok [.expression (.identifier "y" ⟨0, 1, 1⟩)] := by
    rfl
  have failed : ({ conditions := {} } : Session).failures requests =
      [failure, .halted (.fault .noEntryPoint)] := by
    simp only [requests, failures, serve, enter, entries]
    rfl
  have member : failure ∈ ({ conditions := {} } : Session).failures requests := by
    rw [failed]
    exact List.mem_cons_self
  exact ⟨member, source_never_unsupported {} requests failure member⟩

-- A tree built by hand can fail so.
example : (({ conditions := {} } : Session).eval .missing).1 =
    .error (.halted (.fault .missingExpression)) := rfl

end Session

end Koy
