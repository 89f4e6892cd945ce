import Koy.Grammar
import Koy.Proofs.ReaderLogic

/-! The forms of the grammar, as they stand in a token sequence. A `part` relates what two readers make
of the tokens from one place to another. -/

namespace Koy

open Grammar

section

variable (items : Items) (moved : Token → Token) {α : Type} (part : Nat → α → α → Nat → Prop)
  (node : Nat → Expr → Expr → Nat → Prop)

inductive Skipped : Nat → Nat → Prop where
  | done (n : Nat) : Skipped n n
  | step {n m : Nat} (here : items.HasAt n .semicolon) (rest : Skipped (n + 1) m) : Skipped n m

/-- Parts with commas between them. A comma may also stand behind the last. -/
inductive Listed : Nat → List α → List α → Nat → Prop where
  | nil (n : Nat) : Listed n [] [] n
  | one {n m : Nat} {a b : α} (first : part n a b m) : Listed n [a] [b] m
  | cons {n m k : Nat} {a b : α} {as bs : List α} (first : part n a b m)
      (comma : items.HasAt m .comma) (rest : Listed (m + 1) as bs k) :
      Listed n (a :: as) (b :: bs) k

/-- Parts that end with semicolons, or with what is around them. -/
inductive Statements : Nat → List α → List α → Nat → Prop where
  | nil {n m : Nat} (skipped : Skipped items n m) : Statements n [] [] m
  | cons {n m k l : Nat} {a b : α} {as bs : List α} (skipped : Skipped items n m)
      (first : part m a b k) (rest : Statements k as bs l) : Statements n (a :: as) (b :: bs) l

inductive Enclosed (opening closing : TokenKind) : Nat → α → α → Nat → Prop where
  | intro {n m : Nat} {a b : α} (opens : items.HasAt n opening) (inside : part (n + 1) a b m)
      (closes : items.HasAt m closing) : Enclosed opening closing n a b (m + 1)

inductive Keyed (keys : List TokenKind) (mark : TokenKind) :
    Nat → String × α → String × α → Nat → Prop where
  | intro {n m : Nat} {key : Token} {a b : α} (here : items n = .ok key) (is : key.kind ∈ keys)
      (sign : items.HasAt (n + 1) mark) (value : part (n + 2) a b m) :
      Keyed keys mark n (key.lexeme, a) (key.lexeme, b) m

inductive Named : Nat → String → String → Nat → Prop where
  | intro {n : Nat} {name : Token} (here : items n = .ok name) (is : name.kind = .identifier) :
      Named n name.lexeme name.lexeme (n + 1)

/-- The else part of a conditional; a line end may stand before it. -/
inductive Otherwise : Nat → Option Expr → Option Expr → Nat → Prop where
  | none (n : Nat) : Otherwise n none none n
  | here {n m : Nat} {a b : Expr} (word : items.HasAt n .elseWord) (value : node (n + 1) a b m) :
      Otherwise n (some a) (some b) m
  | below {n m : Nat} {a b : Expr} (ends : items.HasAt n .semicolon)
      (word : items.HasAt (n + 1) .elseWord) (value : node (n + 1 + 1) a b m) :
      Otherwise n (some a) (some b) m

inductive Braced : Nat → List Expr × Position → List Expr × Position → Nat → Prop where
  | intro {n m : Nat} {brace : Token} {as bs : List Expr} (here : items n = .ok brace)
      (block : Enclosed items (Statements items node) .openBrace .closeBrace n as bs m) :
      Braced n (as, brace.position) (bs, (moved brace).position) m

inductive Signature : Nat → List String × Body → List String × Body → Nat → Prop where
  | intro {n m k : Nat} {names : List String} {as bs : List Expr} {p q : Position}
      (params : Enclosed items (Listed items (Named items)) .openParen .closeParen n names names m)
      (body : Braced items moved node m (as, p) (bs, q) k) :
      Signature n (names, { elements := as, position := p })
        (names, { elements := bs, position := q }) k

inductive Declared : Nat → ValueDef → ValueDef → Nat → Prop where
  | intro {n k m : Nat} {start name : Token} {a b : Expr} (here : items n = .ok start)
      (word : k = n ∨ start.kind = .mutableWord ∧ k = n + 1) (letWord : items.HasAt k .letWord)
      (there : items (k + 1) = .ok name) (is : name.kind = .identifier)
      (sign : items.HasAt (k + 2) .assign) (value : node (k + 3) a b m) :
      Declared n
        { name := name.lexeme, value := a, mutable := start.kind = .mutableWord
          position := start.position }
        { name := name.lexeme, value := b, mutable := start.kind = .mutableWord
          position := (moved start).position } m

inductive Defined : Nat → FunctionDef → FunctionDef → Nat → Prop where
  | intro {n m : Nat} {start name : Token} {params : List String} {body body' : Body}
      (here : items n = .ok start) (word : start.kind = .fnWord) (there : items (n + 1) = .ok name)
      (is : name.kind = .identifier)
      (signature : Signature items moved node (n + 2) (params, body) (params, body') m) :
      Defined n { name := name.lexeme, params, body, position := start.position }
        { name := name.lexeme, params, body := body', position := (moved start).position } m

inductive TopLevel : Nat → Definition → Definition → Nat → Prop where
  | function {n m : Nat} {defined defined' : FunctionDef}
      (function : Defined items moved node n defined defined' m) :
      TopLevel n (.function defined) (.function defined') m
  | value {n m : Nat} {defined defined' : ValueDef}
      (value : Declared items moved node n defined defined' m) :
      TopLevel n (.value defined) (.value defined') m

inductive Entered : Nat → Entry → Entry → Nat → Prop where
  | function {n m : Nat} {defined defined' : FunctionDef}
      (function : Defined items moved node n defined defined' m) :
      Entered n (.function defined) (.function defined') m
  | expression {n m : Nat} {a b : Expr} (whole : node n a b m) :
      Entered n (.expression a) (.expression b) m

/-- A relation between the expressions that two readers yield and the places of their tokens that holds
of every form of expression if it holds of its parts. -/
structure Productions : Prop where
  int {n : Nat} {start : Token} {value : Int64} (here : items n = .ok start)
    (is : start.kind = .number) (digits : Decimal.int64? start.lexeme = some value) :
    node n (.int value start.position) (.int value (moved start).position) (n + 1)
  negative {n : Nat} {start literal : Token} {value : Int64} (here : items n = .ok start)
    (is : start.kind = .minus) (there : items (n + 1) = .ok literal) (number : literal.kind = .number)
    (digits : Decimal.int64? ("-" ++ literal.lexeme) = some value) :
    node n (.int value start.position) (.int value (moved start).position) (n + 2)
  negation {n m : Nat} {start : Token} {a b : Expr} (here : items n = .ok start)
    (is : start.kind = .minus) (operand : node (n + 1) a b m) :
    node n (.binary .subtract (.int 0 start.position) a start.position)
      (.binary .subtract (.int 0 (moved start).position) b (moved start).position) m
  text {n : Nat} {start : Token} (here : items n = .ok start) (is : start.kind = .text) :
    node n (.text (Bytes.ofString start.lexeme) start.position)
      (.text (Bytes.ofString start.lexeme) (moved start).position) (n + 1)
  bool {n : Nat} {start : Token} (value : Bool) (here : items n = .ok start)
    (is : start.kind = if value then .trueWord else .falseWord) :
    node n (.bool value start.position) (.bool value (moved start).position) (n + 1)
  identifier {n : Nat} {start : Token} (here : items n = .ok start) (is : start.kind = .identifier) :
    node n (.identifier start.lexeme start.position)
      (.identifier start.lexeme (moved start).position) (n + 1)
  parenthesized {n m : Nat} {a b : Expr}
    (inside : Enclosed items node .openParen .closeParen n a b m) : node n a b m
  sequence {n m : Nat} {start : Token} {as bs : List Expr} (here : items n = .ok start)
    (content : Enclosed items (Listed items node) .openBracket .closeBracket n as bs m) :
    node n (.sequence as start.position) (.sequence bs (moved start).position) m
  set {n m : Nat} {start : Token} {as bs : List Expr} (here : items n = .ok start)
    (content : Enclosed items (Listed items node) .openSet .closeBrace n as bs m) :
    node n (.set as start.position) (.set bs (moved start).position) m
  mapping {n m : Nat} {start : Token} {as bs : List (String × Expr)} (here : items n = .ok start)
    (content : Enclosed items (Listed items (Keyed items node [.identifier, .text] .colon))
      .openMap .closeBrace n as bs m) :
    node n (.mapping as start.position) (.mapping bs (moved start).position) m
  function {n m : Nat} {start : Token} {params : List String} {body body' : Body}
    (here : items n = .ok start) (is : start.kind = .fnWord)
    (signature : Signature items moved node (n + 1) (params, body) (params, body') m) :
    node n (.function params body.id body.elements body.position start.position)
      (.function params body'.id body'.elements body'.position (moved start).position) m
  block {n m : Nat} {as bs : List Expr} {p q : Position}
    (block : Braced items moved node n (as, p) (bs, q) m) : node n (.block as p) (.block bs q) m
  println {n m : Nat} {start : Token} {a b : Expr} (here : items n = .ok start)
    (is : start.kind = .printlnWord)
    (argument : Enclosed items node .openParen .closeParen (n + 1) a b m) :
    node n (.println a start.position) (.println b (moved start).position) m
  branch {n m k l : Nat} {start : Token} {a b c d : Expr} {other other' : Option Expr}
    (here : items n = .ok start) (is : start.kind = .ifWord)
    (condition : Enclosed items node .openParen .closeParen (n + 1) a b m)
    (consequent : node m c d k) (alternative : Otherwise items node k other other' l) :
    node n (.branch a c other start.position) (.branch b d other' (moved start).position) l
  loop {n m k : Nat} {start : Token} {a b c d : Expr} (here : items n = .ok start)
    (is : start.kind = .whileWord)
    (condition : Enclosed items node .openParen .closeParen (n + 1) a b m) (body : node m c d k) :
    node n (.loop a c start.position) (.loop b d (moved start).position) k
  call {n m : Nat} {callee : Token} {as bs : List Expr} (here : items n = .ok callee)
    (is : callee.kind = .identifier)
    (arguments : Enclosed items (Listed items node) .openParen .closeParen (n + 1) as bs m) :
    node n (.call callee.lexeme as callee.position)
      (.call callee.lexeme bs (moved callee).position) m
  labeledCall {n m : Nat} {callee : Token} {as bs : List (String × Expr)}
    (here : items n = .ok callee) (is : callee.kind = .identifier)
    (arguments : Enclosed items (Enclosed items (Listed items (Keyed items node [.identifier] .assign))
      .openBracket .closeBracket) .openParen .closeParen (n + 1) as bs m) :
    node n (.labeledCall callee.lexeme as callee.position)
      (.labeledCall callee.lexeme bs (moved callee).position) m
  prefixed {n m : Nat} {start : Token} {op : UpdateOp} {a b : Expr} (here : items n = .ok start)
    (sign : updateOp? start.kind = some op) (operand : node (n + 1) a b m) :
    node n (.update op true a start.position) (.update op true b (moved start).position) m
  postfixed {n m : Nat} {mark : Token} {op : UpdateOp} {a b : Expr} (operand : node n a b m)
    (here : items m = .ok mark) (sign : updateOp? mark.kind = some op) :
    node n (.update op false a mark.position) (.update op false b (moved mark).position) (m + 1)
  binary {n m k : Nat} {sign : Token} {level : Grammar.Level} {op : BinaryOp} {a b c d : Expr}
    (lhs : node n a b m) (here : items m = .ok sign) (listed : level ∈ levels)
    (found : level.lookup sign.kind = some op) (rhs : node (m + 1) c d k) :
    node n (.binary op a c sign.position) (.binary op b d (moved sign).position) k
  declaration {n m : Nat} {defined defined' : ValueDef}
    (declared : Declared items moved node n defined defined' m) :
    node n defined.declaration defined'.declaration m
  assignment {n m : Nat} {name : Token} {a b : Expr} (here : items n = .ok name)
    (is : name.kind = .identifier) (sign : items.HasAt (n + 1) .assign) (value : node (n + 2) a b m) :
    node n (.assign name.lexeme a name.position) (.assign name.lexeme b (moved name).position) m

variable {items moved part}

theorem Skipped.trans {n m k : Nat} (first : Skipped items n m) (second : Skipped items m k) :
    Skipped items n k := by
  induction first with
  | done => exact second
  | step here _ ih => exact .step here (ih second)

theorem Statements.behind {n m k : Nat} {as bs : List α} (skipped : Skipped items n m)
    (rest : Statements items part m as bs k) : Statements items part n as bs k := by
  cases rest with
  | nil later => exact .nil (skipped.trans later)
  | cons later first others => exact .cons (skipped.trans later) first others

theorem Statements.eq_map {change : α → α} {n m : Nat} {as bs : List α}
    (statements : Statements items part n as bs m)
    (each : ∀ n a b m, part n a b m → b = change a) : bs = as.map change := by
  induction statements with
  | nil => rfl
  | cons _ first _ ih => rw [each _ _ _ _ first, ih, List.map_cons]

theorem Statements.forall_mem {p : α → Prop} {n m : Nat} {as bs : List α}
    (statements : Statements items part n as bs m) (each : ∀ n a b m, part n a b m → p a) :
    ∀ a ∈ as, p a := by
  induction statements with
  | nil => simp
  | cons _ first _ ih => exact List.forall_mem_cons.mpr ⟨each _ _ _ _ first, ih⟩

theorem Listed.forall_mem {p : α → Prop} {n m : Nat} {as bs : List α}
    (listed : Listed items part n as bs m) (each : ∀ n a b m, part n a b m → p a) :
    ∀ a ∈ as, p a := by
  induction listed with
  | nil => simp
  | one first => exact List.forall_mem_singleton.mpr (each _ _ _ _ first)
  | cons first _ _ ih => exact List.forall_mem_cons.mpr ⟨each _ _ _ _ first, ih⟩

theorem Productions.trivial : Productions items moved fun _ _ _ _ => True := by
  constructor <;> intros <;> exact True.intro

end

end Koy
