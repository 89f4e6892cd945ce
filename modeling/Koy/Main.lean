import Koy.CommandLine

/-! The program: files and streams are read here, and what `CommandLine` and `Repl` say is written. -/

namespace Koy.Main

def emit (transcript : Transcript) : IO Unit := do
  let output ← IO.getStdout
  output.write transcript.output.toByteArray
  output.flush
  let errors ← IO.getStderr
  errors.write transcript.errors.toByteArray
  errors.flush

def faultOf : IO.Error → FileFault
  | .noFileOrDirectory .. => .absent
  | .inappropriateType .. => .isADirectory
  | .permissionDenied .. => .denied
  | _ => .invalidName

def readFile (path : String) : IO (Except FileError Bytes) := do
  try return .ok (← IO.FS.readBinFile path).toList
  catch error =>
    let fault := faultOf error
    return .error ⟨if fault = .isADirectory then "read" else "open", path, fault⟩

/-- Access to files that are read beforehand. -/
def filesAt (directory : String) (paths : List String) : IO Files := do
  let found ← paths.mapM fun path => return (path, ← readFile path)
  let read (path : String) : Except FileError Bytes :=
    (found.lookup path).getD (.error ⟨"open", path, .absent⟩)
  return { directory, read, isFile := fun path => (read path).toBool }

def pathsIn (directory : String) (arguments : List String) : List String :=
  match Options.parse arguments with
  | .ok (options, others) => options.settingsPath :: Path.join directory Settings.fileName :: others
  | .error _ => []

partial def readAll (stream : IO.FS.Stream) (before : ByteArray) : IO ByteArray := do
  let chunk ← stream.read 65536
  if chunk.isEmpty then return before else readAll stream (before ++ chunk)

partial def takeTurns (session : Session) (history : Repl.History) (pending : Bytes) :
    IO Repl.History := do
  emit (Repl.prompt (!pending.isEmpty))
  let line ← (← IO.getStdin).getLine
  if line.isEmpty then
    emit (Repl.farewell none)
    return history
  let (turn, pending) := Repl.turn pending (Text.withoutEnd (Bytes.ofString line))
  let (shown, session, history) := Repl.takeTurn Repl.History.add session history turn.entry?
  emit shown
  takeTurns session history pending

def atTerminal (settings : Settings) (directory home : String) : IO Unit := do
  let session := Session.new settings none
  match CommandLine.historyFile? settings home with
  | none => let _ ← takeTurns session [] []
  | some path =>
    let history ← takeTurns session (CommandLine.historyIn (← filesAt directory [path]) path) []
    try IO.FS.writeBinFile path history.toFile.toByteArray catch _ => return

def run (arguments : List String) : IO UInt32 := do
  let directory := toString (← IO.currentDir)
  let home := (← IO.getEnv "HOME").getD ""
  let files ← filesAt directory (pathsIn directory arguments)
  match CommandLine.plan arguments files with
  | .error outcome =>
    emit outcome.transcript
    return outcome.exitCode.toUInt32
  | .ok (settings, command) =>
    let stdin ← IO.getStdin
    if command = .repl ∧ (← stdin.isTty) then
      atTerminal settings directory home
      return 0
    let reads := command = .repl ∨ command = .script "-"
    let content ← if reads then readAll stdin .empty else pure .empty
    let outcome :=
      CommandLine.runCommand settings { files, home, input.content := content.toList } command
    emit outcome.transcript
    return outcome.exitCode.toUInt32

end Koy.Main

def main (arguments : List String) : IO UInt32 := Koy.Main.run arguments
