import Koy.Token
import Koy.Token.Scan

/-! Errors in source text. -/

namespace Koy

inductive SyntaxError.Cause where
  | lexical (fault : LexicalFault)
  | expected (wanted : TokenKind) (found : Token)
  | unterminatedElement (found : Token)
  | notADefinition (found : Token)
  | unterminatedBlockElement (found : Token)
  | notAKey (found : Token)
  | notAnExpression (found : Token)
  | afterExpression (found : Token)
  | outOfRange (literal : String)
  | duplicateLabel (label : String)
  | duplicateParameter (name : String)
  /-- The nesting bound was used up. -/
  | tooDeep
  deriving DecidableEq, Repr

structure SyntaxError where
  position : Position
  cause : SyntaxError.Cause
  deriving DecidableEq, Repr

namespace SyntaxError

def Cause.message : Cause → String
  | .lexical fault => fault.message
  | .expected wanted found => "expected " ++ wanted.name ++ ", found " ++ found.describe
  | .unterminatedElement found => "expected ; or newline, found " ++ found.describe
  | .notADefinition found => "expected fn or let at top level, found " ++ found.describe
  | .unterminatedBlockElement found =>
    "expected ; or \x7d after block element, found " ++ found.describe
  | .notAKey found => "expected mapping key, found " ++ found.describe
  | .notAnExpression found => "unexpected " ++ found.describe ++ " in expression"
  | .afterExpression found => "unexpected " ++ found.describe ++ " after expression"
  | .outOfRange literal => "integer literal " ++ literal ++ " out of range"
  | .duplicateLabel label => "duplicate label " ++ label
  | .duplicateParameter name => "duplicate parameter " ++ name
  | .tooDeep => "nesting too deep"

def Cause.found? : Cause → Option Token
  | .expected _ found | .unterminatedElement found | .notADefinition found
  | .unterminatedBlockElement found | .notAKey found | .notAnExpression found
  | .afterExpression found => some found
  | _ => none

/-- The input ended before a construct was closed, so that more input may mend it. -/
def incomplete (error : SyntaxError) : Bool :=
  match error.cause with
  | .lexical fault => fault.incomplete
  | cause => match cause.found? with
    | some found => found.kind = .endOfInput
    | none => false

def message (source : String) (error : SyntaxError) : String :=
  source ++ ":" ++ error.position.render ++ ": " ++ error.cause.message

end SyntaxError

end Koy
