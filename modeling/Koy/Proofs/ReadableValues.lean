import Koy.Proofs.Effects
import Koy.Proofs.RoundTrip
import Koy.Proofs.ValueEquality
import Koy.Session

/-! Values as text. The text of a value made of data is a literal: it is read back as an expression,
and what that evaluates to is the value again. -/

namespace Koy

namespace Value

mutual

/-- The value is made of data, and its text can be read back. -/
def readable : Value → Bool
  | .int _ | .bool _ => true
  | .text content => printableText content
  | .sequence items => readableAll items
  | .set members => readableAll members
  | .mapping entries => readableEntries entries
  | .function _ _ | .invalid => false

def readableAll : List Value → Bool
  | [] => true
  | value :: rest => readable value && readableAll rest

def readableEntries : List (String × Value) → Bool
  | [] => true
  | (key, value) :: rest => printableName key && readable value && readableEntries rest

end

mutual

def height : Value → Nat
  | .sequence items => heightAll items + 1
  | .set members => heightAll members + 1
  | .mapping entries => heightEntries entries + 1
  | .int _ | .bool _ | .text _ | .function _ _ | .invalid => 1

def heightAll : List Value → Nat
  | [] => 0
  | value :: rest => max (height value) (heightAll rest)

def heightEntries : List (String × Value) → Nat
  | [] => 0
  | (_, value) :: rest => max (height value) (heightEntries rest)

end

mutual

def literal : Value → Expr
  | .int n => .int n {}
  | .bool b => .bool b {}
  | .text content => .text content {}
  | .sequence items => .sequence (literals items) {}
  | .set members => .set (literals members) {}
  | .mapping entries => .mapping (literalEntries entries) {}
  | .function _ _ | .invalid => .missing

def literals : List Value → List Expr
  | [] => []
  | value :: rest => literal value :: literals rest

def literalEntries : List (String × Value) → List (String × Expr)
  | [] => []
  | (key, value) :: rest => (key, literal value) :: literalEntries rest

end

/-! The literal has the text of the value. -/

mutual

theorem render_literal (value : Value) (readable : value.readable = true) :
    value.literal.render = value.render := by
  cases value with
  | int | bool | text => rfl
  | sequence items => rw [literal, Expr.render, render, renderAll_literals items readable]
  | set members => rw [literal, Expr.render, render, renderAll_literals members readable]
  | mapping entries => rw [literal, Expr.render, render, renderEntries_literals entries readable]
  | function | invalid => cases readable

theorem renderAll_literals (values : List Value) (readable : readableAll values = true) :
    Expr.renderAll (literals values) = renderAll values := by
  cases values with
  | nil => rfl
  | cons value rest =>
      rw [readableAll, Bool.and_eq_true] at readable
      rw [literals, Expr.renderAll, renderAll, render_literal value readable.1,
        renderAll_literals rest readable.2]

theorem renderEntries_literals (entries : List (String × Value))
    (readable : readableEntries entries = true) :
    Expr.renderEntries ": " (literalEntries entries) = renderEntries entries := by
  cases entries with
  | nil => rfl
  | cons entry rest =>
      simp only [readableEntries, Bool.and_eq_true] at readable
      rw [literalEntries, Expr.renderEntries, renderEntries, render_literal entry.2 readable.1.2,
        renderEntries_literals rest readable.2]

end

mutual

theorem bare_literal (value : Value) : value.literal.bare = value.literal := by
  cases value with
  | int | bool | text | function | invalid => rfl
  | sequence items => rw [literal, Expr.bare, bareAll_literals items]
  | set members => rw [literal, Expr.bare, bareAll_literals members]
  | mapping entries => rw [literal, Expr.bare, bareEntries_literals entries]

theorem bareAll_literals (values : List Value) :
    Expr.bareAll (literals values) = literals values := by
  cases values with
  | nil => rfl
  | cons value rest => rw [literals, Expr.bareAll, bare_literal value, bareAll_literals rest]

theorem bareEntries_literals (entries : List (String × Value)) :
    Expr.bareEntries (literalEntries entries) = literalEntries entries := by
  cases entries with
  | nil => rfl
  | cons entry rest =>
      rw [literalEntries, Expr.bareEntries, bare_literal entry.2, bareEntries_literals rest]

end

mutual

theorem printable_literal (value : Value) (readable : value.readable = true) :
    value.literal.printable = true := by
  cases value with
  | int | bool => rfl
  | text content => exact readable
  | sequence items => exact printableAll_literals items readable
  | set members => exact printableAll_literals members readable
  | mapping entries => exact printableEntries_literals entries readable
  | function | invalid => cases readable

theorem printableAll_literals (values : List Value) (readable : readableAll values = true) :
    Expr.printableAll (literals values) = true := by
  cases values with
  | nil => rfl
  | cons value rest =>
      rw [readableAll, Bool.and_eq_true] at readable
      rw [literals, Expr.printableAll, printable_literal value readable.1,
        printableAll_literals rest readable.2, Bool.and_self]

theorem printableEntries_literals (entries : List (String × Value))
    (readable : readableEntries entries = true) :
    Expr.printableEntries (literalEntries entries) = true := by
  cases entries with
  | nil => rfl
  | cons entry rest =>
      simp only [readableEntries, Bool.and_eq_true] at readable
      rw [literalEntries, Expr.printableEntries, readable.1.1, printable_literal entry.2 readable.1.2,
        printableEntries_literals rest readable.2]
      rfl

end

end Value

/-! Literals wherever they stand. -/

namespace Expr

variable {expr : Expr}

theorem eq_int_of_bare {n : Int64} (same : expr.bare = .int n {}) :
    ∃ position, expr = .int n position := by
  cases expr <;> simp_all [bare]

theorem eq_bool_of_bare {b : Bool} (same : expr.bare = .bool b {}) :
    ∃ position, expr = .bool b position := by
  cases expr <;> simp_all [bare]

theorem eq_text_of_bare {content : Bytes} (same : expr.bare = .text content {}) :
    ∃ position, expr = .text content position := by
  cases expr <;> simp_all [bare]

theorem eq_sequence_of_bare {items : List Expr} (same : expr.bare = .sequence items {}) :
    ∃ found position, expr = .sequence found position ∧ bareAll found = items := by
  cases expr <;> simp_all [bare]

theorem eq_set_of_bare {items : List Expr} (same : expr.bare = .set items {}) :
    ∃ found position, expr = .set found position ∧ bareAll found = items := by
  cases expr <;> simp_all [bare]

theorem eq_mapping_of_bare {entries : List (String × Expr)} (same : expr.bare = .mapping entries {}) :
    ∃ found position, expr = .mapping found position ∧ bareEntries found = entries := by
  cases expr <;> simp_all [bare]

end Expr

namespace Loading

open Value

mutual

theorem expr_literal (value : Value) (readable : value.readable = true) (tree : Expr)
    (same : tree.bare = value.literal) (bodies : Nat) : expr tree bodies = (tree, bodies) := by
  cases value with
  | int n =>
      obtain ⟨position, rfl⟩ := Expr.eq_int_of_bare same
      rfl
  | bool b =>
      obtain ⟨position, rfl⟩ := Expr.eq_bool_of_bare same
      rfl
  | text content =>
      obtain ⟨position, rfl⟩ := Expr.eq_text_of_bare same
      rfl
  | sequence items =>
      obtain ⟨found, position, rfl, inside⟩ := Expr.eq_sequence_of_bare same
      change (Expr.sequence (exprs found bodies).1 position, (exprs found bodies).2) = _
      rw [exprs_literals items readable found inside bodies]
  | set members =>
      obtain ⟨found, position, rfl, inside⟩ := Expr.eq_set_of_bare same
      change (Expr.set (exprs found bodies).1 position, (exprs found bodies).2) = _
      rw [exprs_literals members readable found inside bodies]
  | mapping given =>
      obtain ⟨found, position, rfl, inside⟩ := Expr.eq_mapping_of_bare same
      change (Expr.mapping (entries found bodies).1 position, (entries found bodies).2) = _
      rw [entries_literals given readable found inside bodies]
  | function | invalid => cases readable

theorem exprs_literals (values : List Value) (readable : readableAll values = true)
    (trees : List Expr) (same : Expr.bareAll trees = literals values) (bodies : Nat) :
    exprs trees bodies = (trees, bodies) := by
  cases values with
  | nil =>
      cases trees with
      | nil => rfl
      | cons tree rest => cases same
  | cons value others =>
      rw [readableAll, Bool.and_eq_true] at readable
      cases trees with
      | nil => cases same
      | cons tree rest =>
          obtain ⟨first, later⟩ := List.cons.inj same
          change ((expr tree bodies).1 :: (exprs rest (expr tree bodies).2).1,
            (exprs rest (expr tree bodies).2).2) = _
          rw [expr_literal value readable.1 tree first, exprs_literals others readable.2 rest later]

theorem entries_literals (given : List (String × Value)) (readable : readableEntries given = true)
    (trees : List (String × Expr)) (same : Expr.bareEntries trees = literalEntries given)
    (bodies : Nat) : entries trees bodies = (trees, bodies) := by
  cases given with
  | nil =>
      cases trees with
      | nil => rfl
      | cons tree rest => cases same
  | cons entry others =>
      simp only [readableEntries, Bool.and_eq_true] at readable
      cases trees with
      | nil => cases same
      | cons tree rest =>
          obtain ⟨first, later⟩ := List.cons.inj same
          change ((tree.1, (expr tree.2 bodies).1) :: (entries rest (expr tree.2 bodies).2).1,
            (entries rest (expr tree.2 bodies).2).2) = _
          rw [expr_literal entry.2 readable.1.2 tree.2 (congrArg Prod.snd first),
            entries_literals others readable.2 rest later]

end

end Loading

namespace Eval

open Value

variable {conditions : Conditions}

mutual

theorem withRoom_literal (quiet : conditions.traced = false) (value : Value)
    (formed : value.WellFormed) (readable : value.readable = true) (expr : Expr)
    (same : expr.bare = value.literal) (room : Nat) (small : value.height ≤ room) (scope : ScopeId)
    (world : World) : withRoom conditions room scope expr world = .ok value world := by
  obtain ⟨room, rfl⟩ : ∃ less, room = less + 1 := by
    cases value <;> exact ⟨room - 1, by simp only [height] at small; omega⟩
  cases value with
  | int n =>
      obtain ⟨position, rfl⟩ := Expr.eq_int_of_bare same
      rw [withRoom_quiet quiet room scope _ Expr.noConfusion]
      rfl
  | bool b =>
      obtain ⟨position, rfl⟩ := Expr.eq_bool_of_bare same
      rw [withRoom_quiet quiet room scope _ Expr.noConfusion]
      rfl
  | text content =>
      obtain ⟨position, rfl⟩ := Expr.eq_text_of_bare same
      rw [withRoom_quiet quiet room scope _ Expr.noConfusion]
      rfl
  | sequence items =>
      obtain ⟨found, position, rfl, inside⟩ := Expr.eq_sequence_of_bare same
      have each := all_literals quiet items formed.items readable found inside room
        (Nat.le_of_succ_le_succ small) scope world
      rw [withRoom_quiet quiet room scope _ Expr.noConfusion, step, bind_ok _ each]
      rfl
  | set members =>
      obtain ⟨found, position, rfl, inside⟩ := Expr.eq_set_of_bare same
      have each := all_literals quiet members formed.members readable found inside room
        (Nat.le_of_succ_le_succ small) scope world
      -- No two members are equal, so that none is dropped.
      rw [withRoom_quiet quiet room scope _ Expr.noConfusion, step, bind_ok _ each, formed.ofSet_eq]
      rfl
  | mapping given =>
      obtain ⟨found, position, rfl, inside⟩ := Expr.eq_mapping_of_bare same
      have each := entries_literals quiet given formed.entries readable found inside room
        (Nat.le_of_succ_le_succ small) scope world
      rw [withRoom_quiet quiet room scope _ Expr.noConfusion, step, bind_ok _ each,
        formed.ofMapping_eq]
      rfl
  | function | invalid => cases readable

theorem all_literals (quiet : conditions.traced = false) (values : List Value)
    (formed : ∀ value ∈ values, value.WellFormed) (readable : readableAll values = true)
    (exprs : List Expr) (same : Expr.bareAll exprs = literals values) (room : Nat)
    (small : heightAll values ≤ room) (scope : ScopeId) (world : World) :
    all (withRoom conditions room) scope exprs world = .ok values world := by
  cases values with
  | nil =>
      cases exprs with
      | nil => rfl
      | cons expr rest => cases same
  | cons value others =>
      rw [readableAll, Bool.and_eq_true] at readable
      obtain ⟨here, below⟩ := Nat.max_le.mp small
      obtain ⟨formed, formed'⟩ := List.forall_mem_cons.mp formed
      cases exprs with
      | nil => cases same
      | cons expr rest =>
          obtain ⟨first, later⟩ := List.cons.inj same
          have one := withRoom_literal quiet value formed readable.1 expr first room here scope world
          have more := all_literals quiet others formed' readable.2 rest later room below scope world
          rw [all, bind_ok _ one, bind_ok _ more]
          rfl

theorem entries_literals (quiet : conditions.traced = false) (given : List (String × Value))
    (formed : ∀ entry ∈ given, entry.2.WellFormed) (readable : readableEntries given = true)
    (exprs : List (String × Expr)) (same : Expr.bareEntries exprs = literalEntries given)
    (room : Nat) (small : heightEntries given ≤ room) (scope : ScopeId) (world : World) :
    entries (withRoom conditions room) scope exprs world = .ok given world := by
  cases given with
  | nil =>
      cases exprs with
      | nil => rfl
      | cons expr rest => cases same
  | cons entry others =>
      simp only [readableEntries, Bool.and_eq_true] at readable
      obtain ⟨here, below⟩ := Nat.max_le.mp small
      obtain ⟨formed, formed'⟩ := List.forall_mem_cons.mp formed
      cases exprs with
      | nil => cases same
      | cons expr rest =>
          obtain ⟨first, later⟩ := List.cons.inj same
          obtain ⟨named, first⟩ := Prod.mk.inj first
          have one := withRoom_literal quiet entry.2 formed readable.1.2 expr.2 first room here scope
            world
          have more := entries_literals quiet others formed' readable.2 rest later room below scope
            world
          rw [entries, bind_ok _ one, bind_ok _ more, named]
          rfl

end

end Eval

namespace Value

/-- The text of a value made of data is read as an expression, and wherever there is room for it that
expression evaluates to the value and changes nothing. -/
theorem reads_back (value : Value) (formed : value.WellFormed) (readable : value.readable = true) :
    ∃ expr, Expr.parse (Bytes.ofString value.render) = .ok expr ∧
      ∀ (session : Session) (scope : ScopeId), session.conditions.traced = false →
        value.height ≤ session.conditions.maxDepth →
        ∃ read, session.evalIn scope expr = (.ok read, session) ∧ read.equal value = true := by
  obtain ⟨expr, parsed, same⟩ :=
    value.literal.exists_parse_render (value.printable_literal readable)
  rw [render_literal value readable] at parsed
  refine ⟨expr, parsed, fun session scope quiet roomy => ⟨value, ?_, ?_⟩⟩
  · have plain : value.literal.bare = value.literal := value.bare_literal
    have loaded := Loading.expr_literal value readable expr (same.trans plain) session.bodies
    have evaluated := Eval.withRoom_literal quiet value formed readable expr (same.trans plain)
      session.conditions.maxDepth roomy scope session.world
    rw [Session.evalIn, Session.load_eq, loaded]
    change session.run (Eval.evaluate session.conditions scope expr) = _
    rw [Session.run, EStateM.run, Eval.evaluate, evaluated]
  · exact lawfulOn_wellFormed.refl value formed

def sample : Value :=
  .sequence
    [.int Int64.minValue, .text (Bytes.ofString "a\"\\\n\té"),
     ofSet [.bool true, .int (-7), .bool true],
     ofMapping [("low", .sequence []), ("high", .text [])]]

theorem sample_wellFormed : sample.WellFormed := by
  refine .sequence _ ?_
  simp only [List.forall_mem_cons, List.not_mem_nil, false_implies, implies_true, and_true]
  refine ⟨.int _, .text _, .set _ ?_, .mapping _ ?_⟩
  · simp only [List.forall_mem_cons, List.not_mem_nil, false_implies, implies_true, and_true]
    exact ⟨.bool _, .int _, .bool _⟩
  · simp only [List.forall_mem_cons, List.not_mem_nil, false_implies, implies_true, and_true]
    exact ⟨.sequence [] nofun, .text _⟩

theorem reads_back_sample :
    ∃ expr, Expr.parse (Bytes.ofString sample.render) = .ok expr ∧
      ∃ read, ({ conditions := { maxDepth := 3 } } : Session).eval expr =
          (.ok read, { conditions := { maxDepth := 3 } }) ∧ read.equal sample = true := by
  obtain ⟨expr, parsed, evaluates⟩ := reads_back sample sample_wellFormed (by decide +kernel)
  refine ⟨expr, parsed, ?_⟩
  exact evaluates { conditions := { maxDepth := 3 } } Scopes.rootId rfl (by decide +kernel)

end Value

end Koy
