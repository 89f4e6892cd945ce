import Koy.Program
import Koy.Token.Lexeme

/-! The words of a program: the tokens that its text stands for, without their places. They lie
between the text and the tree, and say which trees a text can show. -/

namespace Koy

/-- A token without its place. -/
abbrev Word := TokenKind × String

def Token.word (token : Token) : Word :=
  (token.kind, token.lexeme)

namespace Word

def sign (kind : TokenKind) : Word := (kind, "")

def keyword (kind : TokenKind) : Word := (kind, kind.name)

def name (spelling : String) : Word := (.identifier, spelling)

@[simp] theorem sign_kind (kind : TokenKind) : (sign kind).1 = kind := rfl

@[simp] theorem keyword_kind (kind : TokenKind) : (keyword kind).1 = kind := rfl

@[simp] theorem name_kind (spelling : String) : (name spelling).1 = .identifier := rfl

def separated : List (List Word) → List Word
  | [] => []
  | [words] => words
  | words :: next :: rest => words ++ sign .comma :: separated (next :: rest)

def block (elements : List (List Word)) : List Word :=
  sign .openBrace :: elements.flatMap (· ++ [sign .semicolon]) ++ [sign .closeBrace]

def params (names : List String) : List Word :=
  sign .openParen :: separated (names.map fun param => [name param]) ++ [sign .closeParen]

def declaration (mutable : Bool) : List Word :=
  if mutable then [keyword .mutableWord, keyword .letWord] else [keyword .letWord]

/-- The words of an integer: a minus sign stands by itself. -/
def int (value : Int64) : List Word :=
  if value.toInt < 0 then [sign .minus, (.number, toString value.toInt.natAbs)]
  else [(.number, toString value.toInt.natAbs)]

end Word

namespace BinaryOp

def token : BinaryOp → TokenKind
  | .add => .plus
  | .subtract => .minus
  | .multiply => .times
  | .divide => .slash
  | .remainder => .percent
  | .less => .less
  | .lessOrEqual => .lessEqual
  | .greater => .greater
  | .greaterOrEqual => .greaterEqual
  | .equal => .equal
  | .notEqual => .notEqual
  | .and => .andAnd
  | .or => .orOr
  | .unknown _ => .illegal

def known : BinaryOp → Bool
  | .unknown _ => false
  | _ => true

end BinaryOp

def UpdateOp.token : UpdateOp → TokenKind
  | .increment => .increment
  | .decrement => .decrement

namespace Expr

open Word

mutual

def words : Expr → List Word
  | .missing => []
  | .int value _ => Word.int value
  | .bool value _ => [keyword (if value then .trueWord else .falseWord)]
  | .text value _ => [(.text, (Bytes.toString? value).getD "")]
  | .sequence items _ => sign .openBracket :: separated (wordsAll items) ++ [sign .closeBracket]
  | .set items _ => sign .openSet :: separated (wordsAll items) ++ [sign .closeBrace]
  | .mapping entries _ =>
    sign .openMap :: separated (wordsEntries .colon entries) ++ [sign .closeBrace]
  | .function params _ body _ _ => keyword .fnWord :: Word.params params ++ Word.block (wordsAll body)
  | .identifier spelling _ => [name spelling]
  | .update op before operand _ =>
    if before then sign op.token :: words operand else words operand ++ [sign op.token]
  | .binary op lhs rhs _ =>
    sign .openParen :: words lhs ++ sign op.token :: words rhs ++ [sign .closeParen]
  | .declare spelling mutable value _ =>
    Word.declaration mutable ++ name spelling :: sign .assign :: words value
  | .assign spelling value _ => name spelling :: sign .assign :: words value
  | .println argument _ =>
    keyword .printlnWord :: sign .openParen :: words argument ++ [sign .closeParen]
  | .branch condition consequent alternative _ =>
    keyword .ifWord :: sign .openParen :: words condition ++ sign .closeParen :: words consequent ++
      wordsAlternative alternative
  | .loop condition body _ =>
    keyword .whileWord :: sign .openParen :: words condition ++ sign .closeParen :: words body
  | .block elements _ => Word.block (wordsAll elements)
  | .call callee arguments _ =>
    name callee :: sign .openParen :: separated (wordsAll arguments) ++ [sign .closeParen]
  | .labeledCall callee arguments _ =>
    name callee :: sign .openParen :: sign .openBracket ::
      separated (wordsEntries .assign arguments) ++ [sign .closeBracket, sign .closeParen]

def wordsAll : List Expr → List (List Word)
  | [] => []
  | expr :: rest => words expr :: wordsAll rest

def wordsEntries (mark : TokenKind) : List (String × Expr) → List (List Word)
  | [] => []
  | (spelling, expr) :: rest =>
    (name spelling :: sign mark :: words expr) :: wordsEntries mark rest

def wordsAlternative : Option Expr → List Word
  | none => []
  | some alternative => keyword .elseWord :: words alternative

end

/-- The text of the expression ends with a conditional that has no else part, so that an else part
after it would be taken for the conditional's own. -/
def endsOpen : Expr → Bool
  | .declare _ _ value _ => endsOpen value
  | .assign _ value _ => endsOpen value
  | .loop _ body _ => endsOpen body
  | .branch _ _ none _ => true
  | .branch _ _ (some alternative) _ => endsOpen alternative
  | _ => false

def isOperand : Expr → Bool
  | .declare .. | .assign .. | .branch .. | .loop .. => false
  | _ => true

def isIdentifier : Expr → Bool
  | .identifier .. => true
  | _ => false

def isAssignment : Expr → Bool
  | .assign .. => true
  | _ => false

/-- Plain arguments whose text starts like labeled ones. -/
def looksLabeled : List Expr → Bool
  | .sequence (first :: _) _ :: _ => first.isAssignment
  | _ => false

end Expr

def Lexeme.isName (spelling : String) : Bool :=
  match spelling.toList with
  | [] => false
  | first :: more => startsName first && more.all continuesName

def printableName (spelling : String) : Bool :=
  Lexeme.isName spelling && (TokenKind.keyword? spelling).isNone

def printableNames (spellings : List String) : Bool :=
  spellings.all printableName && decide spellings.Nodup

/-- A character that a text literal shows as it is, or by one of the escapes that can be read. -/
def printableChar (c : Char) : Bool :=
  Text.isPrintable c || c == '\n' || c == '\t'

def printableText (content : Bytes) : Bool :=
  match Glyph.chars? (Glyph.decode content) with
  | some chars => chars.all printableChar
  | none => false

namespace Expr

mutual

/-- The text of the expression can be read back. -/
def printable : Expr → Bool
  | .missing => false
  | .int _ _ | .bool _ _ => true
  | .text value _ => printableText value
  | .sequence items _ | .set items _ | .block items _ => printableAll items
  | .mapping entries _ => printableEntries entries
  | .function params _ body _ _ => printableNames params && printableAll body
  | .identifier spelling _ => printableName spelling
  | .update _ _ operand _ => operand.isIdentifier && printable operand
  | .binary op lhs rhs _ =>
    op.known && lhs.isOperand && rhs.isOperand && printable lhs && printable rhs
  | .declare spelling _ value _ | .assign spelling value _ =>
    printableName spelling && printable value
  | .println argument _ => printable argument
  | .branch condition consequent alternative _ =>
    printable condition && printable consequent && printableAlternative alternative &&
      !(alternative.isSome && consequent.endsOpen)
  | .loop condition body _ => printable condition && printable body
  | .call callee arguments _ =>
    printableName callee && printableAll arguments && !looksLabeled arguments
  | .labeledCall callee arguments _ =>
    printableName callee && !arguments.isEmpty && decide (arguments.map Prod.fst).Nodup &&
      printableEntries arguments

def printableAll : List Expr → Bool
  | [] => true
  | expr :: rest => printable expr && printableAll rest

def printableEntries : List (String × Expr) → Bool
  | [] => true
  | (spelling, expr) :: rest => printableName spelling && printable expr && printableEntries rest

def printableAlternative : Option Expr → Bool
  | none => true
  | some alternative => printable alternative

end

mutual

/-- The expression without places and without the identities of function bodies. -/
def bare : Expr → Expr
  | .missing => .missing
  | .int value _ => .int value {}
  | .bool value _ => .bool value {}
  | .text value _ => .text value {}
  | .sequence items _ => .sequence (bareAll items) {}
  | .set items _ => .set (bareAll items) {}
  | .mapping entries _ => .mapping (bareEntries entries) {}
  | .function params _ body _ _ => .function params .unloaded (bareAll body) {} {}
  | .identifier spelling _ => .identifier spelling {}
  | .update op before operand _ => .update op before (bare operand) {}
  | .binary op lhs rhs _ => .binary op (bare lhs) (bare rhs) {}
  | .declare spelling mutable value _ => .declare spelling mutable (bare value) {}
  | .assign spelling value _ => .assign spelling (bare value) {}
  | .println argument _ => .println (bare argument) {}
  | .branch condition consequent alternative _ =>
    .branch (bare condition) (bare consequent) (bareAlternative alternative) {}
  | .loop condition body _ => .loop (bare condition) (bare body) {}
  | .block elements _ => .block (bareAll elements) {}
  | .call callee arguments _ => .call callee (bareAll arguments) {}
  | .labeledCall callee arguments _ => .labeledCall callee (bareEntries arguments) {}

def bareAll : List Expr → List Expr
  | [] => []
  | expr :: rest => bare expr :: bareAll rest

def bareEntries : List (String × Expr) → List (String × Expr)
  | [] => []
  | (spelling, expr) :: rest => (spelling, bare expr) :: bareEntries rest

def bareAlternative : Option Expr → Option Expr
  | none => none
  | some alternative => some (bare alternative)

end

end Expr

namespace Definition

def printable : Definition → Bool
  | .function defined =>
    printableName defined.name && printableNames defined.params &&
      Expr.printableAll defined.body.elements
  | .value defined => defined.declaration.printable
  | .missing => false

def bare : Definition → Definition
  | .function defined =>
    .function { name := defined.name, params := defined.params,
                body := { elements := Expr.bareAll defined.body.elements } }
  | .value defined =>
    .value { name := defined.name, value := defined.value.bare, mutable := defined.mutable }
  | .missing => .missing

def words : Definition → List Word
  | .function defined =>
    .keyword .fnWord :: .name defined.name :: Word.params defined.params ++
      Word.block (Expr.wordsAll defined.body.elements)
  | .value defined => defined.declaration.words
  | .missing => []

end Definition

namespace Program

def printable (program : Program) : Bool :=
  program.definitions.all Definition.printable

def bare (program : Program) : Program :=
  { definitions := program.definitions.map Definition.bare }

def words (program : Program) : List Word :=
  program.definitions.flatMap fun definition => definition.words ++ [.sign .semicolon]

end Program

end Koy
