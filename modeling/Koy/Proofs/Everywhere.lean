import Koy.Proofs.Regimes
import Koy.Proofs.ValueEquality

/-! What holds of every expression of a tree, the bodies of function literals included. Loading keeps
it, and so does evaluation, which finds expressions in trees and in the bodies of functions only. -/

namespace Koy

/-- The expressions right inside an expression, those of a function body included. -/
def Expr.children : Expr → List Expr
  | .function _ _ body _ _ => body
  | expr => expr.parts

inductive Expr.Every (p : Expr → Prop) : Expr → Prop
  | intro {expr : Expr} (here : p expr) (inside : ∀ child ∈ expr.children, Every p child) :
      Every p expr

inductive Value.Every (p : Expr → Prop) : Value → Prop
  | int (n : Int64) : Every p (.int n)
  | bool (b : Bool) : Every p (.bool b)
  | text (content : Bytes) : Every p (.text content)
  | sequence {items : List Value} (each : ∀ item ∈ items, Every p item) : Every p (.sequence items)
  | set {members : List Value} (each : ∀ member ∈ members, Every p member) : Every p (.set members)
  | mapping {entries : List (String × Value)} (each : ∀ entry ∈ entries, Every p entry.2) :
      Every p (.mapping entries)
  | function {params : List String} {body : Body}
      (each : ∀ element ∈ body.elements, Expr.Every p element) : Every p (.function params body)

namespace Expr.Every

variable {p : Expr → Prop} {expr : Expr}

theorem here (every : expr.Every p) : p expr := by
  cases every with
  | intro here inside => exact here

theorem inside (every : expr.Every p) : ∀ child ∈ expr.children, child.Every p := by
  cases every with
  | intro here inside => exact inside

theorem part (every : expr.Every p) {part : Expr} (member : part ∈ expr.parts) : part.Every p := by
  cases expr with
  | function => cases member
  | _ => exact every.inside part member

end Expr.Every

def Halt.Accounted (p : Expr → Prop) : Halt → Prop
  | .fault .missingExpression => p .missing
  | .fault .missingDefinition => False
  | .fault (.unknownOperator code) => ∃ lhs rhs position, p (.binary (.unknown code) lhs rhs position)
  | .unfinished => ∃ condition body position, p (.loop condition body position)
  | _ => True

/-- What holds of every expression of a tree, blocks aside, holds wherever evaluation takes parts of
that tree. -/
def Regime.everywhere (p : Expr → Prop) (blocks : ∀ elements position, p (.block elements position)) :
    Regime where
  expr := Expr.Every p
  value := Value.Every p
  halt := Halt.Accounted p
  part every member := every.part member
  int := .int
  bool := .bool
  text := .text
  sequence := .sequence
  set each := .set fun member present =>
    each member ((Value.mem_distinctFrom [] _ member present).resolve_left List.not_mem_nil)
  mapping each := .mapping fun entry present => each entry (NameMap.mem_ofList _ entry present)
  function every := .function every.inside
  body allowed := by
    cases allowed with
    | function each => exact .intro (blocks _ _) each
  fault {cause} supported := by
    cases cause with
    | missingExpression | missingDefinition | unknownOperator => exact absurd rfl supported
    | _ => trivial
  unwritable _ := trivial
  missing every := every.here
  operator every := ⟨_, _, _, every.here⟩
  unfinished every := ⟨_, _, _, every.here⟩

namespace Loading

def Stable (p : Expr → Prop) : Prop :=
  ∀ expr bodies, p expr → p (Loading.expr expr bodies).1

variable {p : Expr → Prop}

mutual

theorem expr_every (stable : Stable p) (tree : Expr) (bodies : Nat) (every : tree.Every p) :
    (expr tree bodies).1.Every p := by
  refine .intro (stable tree bodies every.here) ?_
  have inside := every.inside
  cases tree with
  | missing | int | bool | text | identifier => exact fun _ none => absurd none List.not_mem_nil
  | sequence items => exact exprs_every stable items bodies inside
  | set items => exact exprs_every stable items bodies inside
  | mapping items =>
      exact List.forall_mem_map.mpr
        (entries_every stable items bodies (List.forall_mem_map.mp inside))
  | function params id body => exact exprs_every stable body (bodies + 1) inside
  | update op before operand =>
      exact List.forall_mem_singleton.mpr
        (expr_every stable operand bodies (List.forall_mem_singleton.mp inside))
  | binary op lhs rhs =>
      obtain ⟨left, right⟩ := List.forall_mem_cons.mp inside
      refine List.forall_mem_cons.mpr ⟨expr_every stable lhs bodies left, ?_⟩
      exact List.forall_mem_singleton.mpr
        (expr_every stable rhs _ (List.forall_mem_singleton.mp right))
  | declare name mutable value =>
      exact List.forall_mem_singleton.mpr
        (expr_every stable value bodies (List.forall_mem_singleton.mp inside))
  | assign name value =>
      exact List.forall_mem_singleton.mpr
        (expr_every stable value bodies (List.forall_mem_singleton.mp inside))
  | println argument =>
      exact List.forall_mem_singleton.mpr
        (expr_every stable argument bodies (List.forall_mem_singleton.mp inside))
  | branch condition consequent alternative =>
      obtain ⟨first, others⟩ := List.forall_mem_cons.mp inside
      obtain ⟨second, third⟩ := List.forall_mem_cons.mp others
      refine List.forall_mem_cons.mpr ⟨expr_every stable condition bodies first, ?_⟩
      refine List.forall_mem_cons.mpr ⟨expr_every stable consequent _ second, ?_⟩
      exact optional_every stable alternative _ third
  | loop condition body =>
      obtain ⟨first, second⟩ := List.forall_mem_cons.mp inside
      refine List.forall_mem_cons.mpr ⟨expr_every stable condition bodies first, ?_⟩
      exact List.forall_mem_singleton.mpr
        (expr_every stable body _ (List.forall_mem_singleton.mp second))
  | block elements => exact exprs_every stable elements bodies inside
  | call callee arguments => exact exprs_every stable arguments bodies inside
  | labeledCall callee arguments =>
      exact List.forall_mem_map.mpr
        (entries_every stable arguments bodies (List.forall_mem_map.mp inside))

theorem exprs_every (stable : Stable p) (trees : List Expr) (bodies : Nat)
    (each : ∀ tree ∈ trees, tree.Every p) :
    ∀ loaded ∈ (exprs trees bodies).1, loaded.Every p := by
  cases trees with
  | nil => exact fun _ none => absurd none List.not_mem_nil
  | cons first rest =>
      obtain ⟨here, others⟩ := List.forall_mem_cons.mp each
      exact List.forall_mem_cons.mpr
        ⟨expr_every stable first bodies here, exprs_every stable rest _ others⟩

theorem entries_every (stable : Stable p) (trees : List (String × Expr)) (bodies : Nat)
    (each : ∀ entry ∈ trees, entry.2.Every p) :
    ∀ loaded ∈ (entries trees bodies).1, loaded.2.Every p := by
  cases trees with
  | nil => exact fun _ none => absurd none List.not_mem_nil
  | cons first rest =>
      obtain ⟨here, others⟩ := List.forall_mem_cons.mp each
      exact List.forall_mem_cons.mpr
        ⟨expr_every stable first.2 bodies here, entries_every stable rest _ others⟩

theorem optional_every (stable : Stable p) (tree : Option Expr) (bodies : Nat)
    (each : ∀ expr ∈ tree.toList, expr.Every p) :
    ∀ loaded ∈ (optional tree bodies).1.toList, loaded.Every p := by
  cases tree with
  | none => exact fun _ none => absurd none List.not_mem_nil
  | some inner =>
      exact List.forall_mem_singleton.mpr
        (expr_every stable inner bodies (List.forall_mem_singleton.mp each))

end

theorem mapM_forall {α β : Type} {load : α → Loading β} {q : α → Prop} {q' : β → Prop}
    (loads : ∀ tree bodies, q tree → q' (load tree bodies).1) (trees : List α) (bodies : Nat)
    (each : ∀ tree ∈ trees, q tree) : ∀ loaded ∈ (trees.mapM load bodies).1, q' loaded := by
  induction trees generalizing bodies with
  | nil => exact fun _ none => absurd none List.not_mem_nil
  | cons first rest ih =>
      obtain ⟨here, others⟩ := List.forall_mem_cons.mp each
      rw [List.mapM_cons]
      exact List.forall_mem_cons.mpr ⟨loads first bodies here, ih _ others⟩

variable {blocks : ∀ elements position, p (.block elements position)}

theorem function_every (stable : Stable p) (defined : FunctionDef) (bodies : Nat)
    (every : Value.Every p (.function defined.params defined.body)) :
    Value.Every p (.function (function defined bodies).1.params (function defined bodies).1.body) := by
  cases every with
  | function each => exact .function (exprs_every stable _ _ each)

theorem definition_every (stable : Stable p) (tree : Definition) (bodies : Nat)
    (every : (Regime.everywhere p blocks).definition tree) :
    (Regime.everywhere p blocks).definition (definition tree bodies).1 := by
  cases tree with
  | function defined => exact function_every stable defined bodies every
  | value defined => exact expr_every stable defined.value bodies every
  | missing => exact every.elim

theorem entry_every (stable : Stable p) (tree : Entry) (bodies : Nat)
    (every : (Regime.everywhere p blocks).entry tree) :
    (Regime.everywhere p blocks).entry (entry tree bodies).1 := by
  cases tree with
  | function defined => exact function_every stable defined bodies every
  | expression expr => exact expr_every stable expr bodies every

end Loading

end Koy
