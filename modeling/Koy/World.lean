import Koy.Scopes
import Koy.Text.Blank

/-! What an evaluation reads and changes: the scopes, the table of named functions, and the journal
of what has been written. -/

namespace Koy

/-- The named functions. There is one table for a whole session. -/
abbrev FunctionTable := NameMap FunctionDef

namespace FunctionTable

def define (table : FunctionTable) (function : FunctionDef) : FunctionTable :=
  NameMap.insert function.name function table

def find (table : FunctionTable) (name : String) : Except Fault FunctionDef :=
  match NameMap.get? table name with
  | some function => .ok function
  | none => .error (.undefinedFunction name)

end FunctionTable

inductive Event where
  | trace (expression : String)
  | print (line : Bytes)
  /-- A call starts: the evaluation depth and the depth of the new scope. -/
  | enter (function : String) (depth scopeDepth : Nat)
  | leave (function : String) (failed : Bool)
  deriving DecidableEq, Repr

namespace Event

/-- A name in a log line. It is quoted if it is empty or if a reader could not tell its end. -/
def logName (name : String) : String :=
  let plain (c : Char) : Bool :=
    if c.toNat < 0x80 then 0x20 < c.toNat && c ≠ '=' && c ≠ '"'
    else c.toNat ≠ 0xFFFD && !Text.isBlank c && Text.isPrintable c
  if name.isEmpty || !name.toList.all plain then Text.quoteString name else name

def output : Event → Bytes
  | .trace expression => Bytes.ofString ("|- " ++ expression ++ "\n")
  | .print line => line ++ [10]
  | .enter _ _ _ | .leave _ _ => []

def log : Event → String
  | .trace _ | .print _ => ""
  | .enter function depth scopeDepth =>
    "level=DEBUG msg=\"push call frame\" function=" ++ logName function ++ " depth="
      ++ toString depth ++ " scope-depth=" ++ toString scopeDepth ++ "\n"
  | .leave function failed =>
    "level=DEBUG msg=\"pop call frame\" function=" ++ logName function ++ " failed="
      ++ (if failed then "true" else "false") ++ "\n"

end Event

structure World where
  scopes : Scopes := .initial
  functions : FunctionTable := []
  journal : Array Event := #[]
  deriving Inhabited

namespace World

def output (world : World) : Bytes :=
  world.journal.toList.flatMap Event.output

def log (world : World) : String :=
  String.join (world.journal.toList.map Event.log)

def record (world : World) (event : Event) : World :=
  { world with journal := world.journal.push event }

end World

end Koy
