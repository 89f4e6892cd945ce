import Koy.Repl.Entries
import Koy.Repl.History
import Koy.Session
import Koy.Value.Printer

/-! Interactive use of a session: entries are taken in one after the other, and their values are
shown. -/

namespace Koy

structure Transcript where
  output : Bytes := []
  errors : Bytes := []
  deriving DecidableEq, Repr

namespace Transcript

instance : Append Transcript where
  append first second :=
    { output := first.output ++ second.output, errors := first.errors ++ second.errors }

def shown (text : String) : Transcript := { output := Bytes.ofString text }

def failed (text : String) : Transcript := { errors := Bytes.ofString text ++ [Text.lineEnd] }

end Transcript

namespace Session

def transcript (session : Session) : Transcript :=
  { output := session.world.output, errors := Bytes.ofString session.world.log }

end Session

namespace Repl

def complaint : Failure → String
  | .malformed source error => "parse error: " ++ error.message source
  | failure => "error: " ++ failure.message

/-- Takes in an entry: what it writes comes first, then its values, then what is wrong with it. -/
def answer (session : Session) (entry : Bytes) : Transcript × Session :=
  let (values, failure, session) := session.enter entry
  let results : Transcript :=
    { output := values.flatMap fun value => Bytes.ofString value.render ++ [Text.lineEnd] }
  let complaints : Transcript := match failure with
    | some failure => .failed (complaint failure)
    | none => {}
  (session.transcript ++ results ++ complaints, session.clearJournal)

def answerAll (session : Session) : List Bytes → Transcript
  | [] => {}
  | entry :: rest =>
    let (first, session) := answer session entry
    first ++ answerAll session rest

def unreadable (reason : String) : Transcript := .failed ("read error: " ++ reason)

/-- A session on a stream, which ends or breaks off for the given reason. -/
def onStream (session : Session) (content : Bytes) : Option String → Transcript
  | none => answerAll session (streamEntries [] (Text.lines content))
  | some reason => answerAll session (brokenEntries [] (Text.lines content)) ++ unreadable reason

def prompt (continues : Bool) : Transcript :=
  .shown (if continues then "..... " else "koys> ")

section

variable {Past : Type} (remember : Past → Bytes → Past)

def takeTurn (session : Session) (history : Past) : Option Bytes → Transcript × Session × Past
  | none => ({}, session, history)
  | some entry =>
    let (shown, session) := answer session entry
    (shown, session, remember history entry)

def takeTurns (session : Session) (history : Past) : List Turn → Transcript × Past
  | [] => ({}, history)
  | turn :: rest =>
    let (shown, session, history) := takeTurn remember session history turn.entry?
    let (others, history) := takeTurns session history rest
    (prompt turn.continues ++ shown ++ others, history)

end

def farewell : Option String → Transcript
  | none => .shown "\n"
  | some reason => unreadable reason

/-- A session at a terminal, on the lines that are typed before input ends or cannot be read. Each
entry is added to the history in the given way. -/
def atTerminal {Past : Type} (remember : Past → Bytes → Past) (session : Session) (history : Past)
    (lines : List Bytes) (failure : Option String) : Transcript × Past :=
  let (turns, pending) := turns [] lines
  let (shown, history) := takeTurns remember session history turns
  (shown ++ prompt (!pending.isEmpty) ++ farewell failure, history)

end Repl

end Koy
