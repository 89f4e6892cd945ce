import Mathlib.Data.List.GetD
import Koy.Proofs.Contents
import Koy.Proofs.IntactTrees
import Koy.Proofs.LexerRuns

/-! Reading neither loses nor adds anything, and keeps the order. What the tokens of a source text
show, one after the other, is what the trees hold that are read from it. -/

namespace Koy

open Parse Grammar

namespace Expr

mutual

/-- What an expression holds, in the order in which it is written. -/
def content : Expr → List Content
  | .missing => []
  | .int value _ => [.number value.toInt]
  | .bool value _ => [.bool value]
  | .text value _ => [.text value]
  | .sequence items _ | .set items _ | .block items _ => contents items
  | .mapping entries _ => entryContents .key entries
  | .function params _ body _ _ => params.map .name ++ contents body
  | .identifier name _ => [.name name]
  | .update op true operand _ => .update op :: content operand
  | .update op false operand _ => content operand ++ [.update op]
  | .binary op lhs rhs _ => content lhs ++ .operator op :: content rhs
  | .declare name _ value _ | .assign name value _ => .name name :: content value
  | .println argument _ => content argument
  | .branch condition consequent alternative _ =>
    content condition ++ content consequent ++ alternativeContent alternative
  | .loop condition body _ => content condition ++ content body
  | .call callee arguments _ => .name callee :: contents arguments
  | .labeledCall callee arguments _ => .name callee :: entryContents .name arguments

def contents : List Expr → List Content
  | [] => []
  | expr :: rest => content expr ++ contents rest

def entryContents (label : String → Content) : List (String × Expr) → List Content
  | [] => []
  | (name, expr) :: rest => label name :: content expr ++ entryContents label rest

def alternativeContent : Option Expr → List Content
  | none => []
  | some alternative => content alternative

end

end Expr

def Body.content (params : List String) (body : Body) : List Content :=
  params.map .name ++ Expr.contents body.elements

def Entry.content : Entry → List Content
  | .function defined => .name defined.name :: defined.body.content defined.params
  | .expression expr => expr.content

theorem Expr.contents_eq (exprs : List Expr) : contents exprs = exprs.flatMap content := by
  induction exprs with
  | nil => rfl
  | cons expr rest ih => rw [contents, ih, List.flatMap_cons]

theorem Expr.entryContents_eq (label : String → Content) (entries : List (String × Expr)) :
    entryContents label entries = entries.flatMap fun entry => label entry.1 :: content entry.2 := by
  induction entries with
  | nil => rfl
  | cons entry rest ih => rw [entryContents, ih, List.flatMap_cons]

namespace Grammar

/-- The tokens of the expression tell what it holds. -/
abbrev ToldTree (items : Items) (n : Nat) (expr _ : Expr) (m : Nat) : Prop :=
  items.Tells n expr.content m

theorem token_of_updateOp? {kind : TokenKind} {op : UpdateOp} (found : updateOp? kind = some op) :
    kind = op.token := by
  unfold updateOp? at found
  split at found <;> cases found <;> rfl

namespace ToldTree

variable {items : Items} {n m : Nat}

theorem parts (n : Nat) (a b : Expr) (m : Nat) (told : ToldTree items n a b m) :
    items.Tells n a.content m :=
  told

theorem enclosed {opening closing : TokenKind} {as bs : List Expr}
    (enclosed : Enclosed items (Listed items (ToldTree items)) opening closing n as bs m)
    (silent : opening.carries = false ∧ closing.carries = false) :
    items.Tells n (Expr.contents as) m := by
  rw [Expr.contents_eq]
  exact enclosed.tells (fun _ _ _ _ listed => listed.tells parts) silent

theorem entries {keys : List TokenKind} {mark : TokenKind} (label : String → Content)
    (shows : ∀ token : Token, token.kind ∈ keys → token.Shows (label token.lexeme))
    (silent : mark.carries = false) (n : Nat) (as bs : List (String × Expr)) (m : Nat)
    (listed : Listed items (Keyed items (ToldTree items) keys mark) n as bs m) :
    items.Tells n (Expr.entryContents label as) m := by
  rw [Expr.entryContents_eq]
  exact listed.tells fun _ _ _ _ keyed => keyed.tells parts shows silent

theorem braced {a b : List Expr × Position}
    (braced : Braced items id (ToldTree items) n a b m) : items.Tells n (Expr.contents a.1) m := by
  obtain ⟨-, block⟩ := braced
  rw [Expr.contents_eq]
  exact block.tells (fun _ _ _ _ statements => statements.tells parts) ⟨rfl, rfl⟩

theorem signature {a b : List String × Body}
    (signature : Signature items id (ToldTree items) n a b m) :
    items.Tells n (a.2.content a.1) m := by
  obtain ⟨params, body⟩ := signature
  have names (n : Nat) (as bs : List String) (m : Nat)
      (listed : Listed items (Named items) n as bs m) : items.Tells n (as.map .name) m := by
    rw [List.map_eq_flatMap]
    exact listed.tells fun _ _ _ _ named => named.tells
  exact (params.tells names ⟨rfl, rfl⟩).append (braced body)

theorem declared {a b : ValueDef} (declared : Declared items id (ToldTree items) n a b m) :
    items.Tells n (.name a.name :: a.value.content) m := by
  obtain ⟨here, word, letWord, there, is, sign, value⟩ := declared
  have named : items.Tells _ (.name _ :: _) _ := .step there (.one (.name is)) (value.after_mark sign rfl)
  have whole := named.after_mark letWord rfl
  rcases word with rfl | ⟨mutable, rfl⟩
  · exact whole
  · exact whole.after_mark ⟨_, here, mutable⟩ rfl

theorem entered (n : Nat) (a b : Entry) (m : Nat)
    (element : Entered items id (ToldTree items) n a b m) : items.Tells n a.content m := by
  cases element with
  | expression whole => exact whole
  | function function =>
      obtain ⟨here, word, there, is, function⟩ := function
      have named : items.Tells _ (.name _ :: _) _ := .step there (.one (.name is)) (signature function)
      exact named.after_mark ⟨_, here, word⟩ rfl

theorem productions (sourced : ∀ n token, items n = .ok token → token.Sourced)
    (unsigned : ∀ n token, items n = .ok token → token.kind ≠ .minus) :
    Productions items id (ToldTree items) where
  int here is digits := by
    obtain ⟨c, rest, spelled, digit⟩ := (sourced _ _ here).digit is
    obtain ⟨all, total⟩ := Decimal.of_int64? spelled digit digits
    rw [ToldTree, Expr.content, total]
    exact Items.tells_token here (.number is all)
  negative here is _ _ _ := absurd is (unsigned _ _ here)
  negation here is _ := absurd is (unsigned _ _ here)
  text here is := Items.tells_token here (.text is)
  bool value here is := Items.tells_token here (.bool value is)
  identifier here is := Items.tells_token here (.name is)
  parenthesized inside := inside.tells parts ⟨rfl, rfl⟩
  sequence _ content := enclosed content ⟨rfl, rfl⟩
  set _ content := enclosed content ⟨rfl, rfl⟩
  mapping _ content := by
    refine content.tells (entries .key (fun token is => .key ?_) rfl) ⟨rfl, rfl⟩
    simpa using is
  function here is function := (signature function).after_mark ⟨_, here, is⟩ rfl
  block block := braced block
  println here is argument := (argument.tells parts ⟨rfl, rfl⟩).after_mark ⟨_, here, is⟩ rfl
  branch here is condition consequent alternative := by
    have tested := (condition.tells parts ⟨rfl, rfl⟩).after_mark ⟨_, here, is⟩ rfl
    have chosen := tested.append consequent
    cases alternative with
    | none =>
        rw [ToldTree, Expr.content, Expr.alternativeContent, List.append_nil]
        exact chosen
    | here word value => exact chosen.append (value.after_mark word rfl)
    | below ends word value => exact chosen.append ((value.after_mark word rfl).after_mark ends rfl)
  loop here is condition body :=
    ((condition.tells parts ⟨rfl, rfl⟩).after_mark ⟨_, here, is⟩ rfl).append body
  call here is arguments := .step here (.one (.name is)) (enclosed arguments ⟨rfl, rfl⟩)
  labeledCall here is arguments := by
    refine .step here (.one (.name is)) (arguments.tells (fun _ _ _ _ labels => ?_) ⟨rfl, rfl⟩)
    refine labels.tells (entries .name (fun token is => .name ?_) rfl) ⟨rfl, rfl⟩
    simpa using is
  prefixed here sign operand := .step here (.one (.update _ (token_of_updateOp? sign))) operand
  postfixed operand here sign :=
    operand.append (Items.tells_token here (.update _ (token_of_updateOp? sign)))
  binary lhs here listed found rhs := by
    obtain ⟨-, known, sign⟩ := of_lookup listed found
    exact lhs.append (.step here (.one (.operator _ known sign)) rhs)
  declaration given := declared given
  assignment here is sign value := .step here (.one (.name is)) (value.after_mark sign rfl)

end ToldTree

end Grammar

/-- A source text without minus signs that is read as interactive input says what its entries hold.
Its tokens come to the end without a fault, and those of them that are names, numbers, texts, truth
values or operators show, one by one and in order, what the entries hold. -/
theorem Entry.content_of_parseAll (source : Bytes) (entries : List Entry)
    (parsed : Entry.parseAll source = .ok entries)
    (unsigned : ∀ token, .ok token ∈ Lexer.readAll source 0 → token.kind ≠ .minus) :
    ∃ tokens : List Token, Lexer.readAll source 0 = tokens.map .ok ∧
      List.Forall₂ Token.Shows (tokens.filter (·.kind.carries)) (entries.flatMap Entry.content) := by
  have productions := ToldTree.productions (Lexer.sourced_of_source source)
    fun _ token found => unsigned token (Lexer.mem_readAll_of_item found)
  obtain ⟨_, m, elements, ended⟩ := yields_of_runOn (fun budget =>
    reader_holds _ productions (Nat.zero_le _) (Nat.le_refl budget) (Nat.le_refl budget)) parsed
  obtain ⟨tokens, rest, closing, passes, next, closes⟩ := Lexer.exists_passes_of_end ended
  have holds : ∀ n, (Lexer.ofSource source).item (0 + n) = .ok (tokens.getD n closing) := by
    intro n
    rw [Nat.zero_add]
    by_cases inside : n < tokens.length
    · rw [passes.item_lt n inside, List.getD_eq_getElem _ _ inside]
    · have beyond := Nat.le_of_not_lt inside
      rw [passes.item_of_le (Lexer.sound_of_free _ rfl) next closes beyond,
        List.getD_eq_default _ _ beyond]
  refine ⟨tokens ++ [closing], ?_, ?_⟩
  · rw [Lexer.readAll_of_passes passes (next ▸ closes), next, List.map_append]
    rfl
  · have silent : [closing].filter (·.kind.carries) = [] := by
      simp [closes, TokenKind.carries, BinaryOp.all, BinaryOp.token]
    rw [List.filter_append, silent, List.append_nil]
    exact (elements.tells ToldTree.entered).forall₂ ended closes passes.proper holds

theorem Entry.content_of_parseAll_sample :
    ∃ tokens : List Token,
      Lexer.readAll (Bytes.ofString "f(#\x7ba: x++\x7d) + 02") 0 = tokens.map .ok ∧
      List.Forall₂ Token.Shows (tokens.filter (·.kind.carries))
        [.name "f", .key "a", .name "x", .update .increment, .operator .add, .number 2] := by
  have parsed : Entry.parseAll (Bytes.ofString "f(#\x7ba: x++\x7d) + 02") =
      .ok [.expression (.binary .add
        (.call "f" [.mapping [("a", .update .increment false (.identifier "x" ⟨7, 1, 8⟩) ⟨8, 1, 9⟩)]
          ⟨2, 1, 3⟩] ⟨0, 1, 1⟩) (.int 2 ⟨15, 1, 16⟩) ⟨13, 1, 14⟩)] := by
    decide +kernel
  have signs : (Lexer.readAll (Bytes.ofString "f(#\x7ba: x++\x7d) + 02") 0).all
      (fun item => item.toOption.all (·.kind ≠ .minus)) = true := by
    decide +kernel
  refine content_of_parseAll _ _ parsed fun token read => ?_
  exact of_decide_eq_true (List.all_eq_true.mp signs _ read)

end Koy
