import Koy.Options
import Koy.Repl
import Koy.SettingsFile
import Koy.SourceFile

/-! The command line: flags, settings, and what is to be run. -/

namespace Koy

/-- Lines typed at a terminal, up to the end of input or to a failure. -/
structure Typed where
  content : Bytes
  failure : Option String := none

structure Input where
  content : Bytes := []
  failure : Option String := none
  typed? : Option Typed := none

structure Surroundings where
  files : Files
  /-- The home directory; empty if there is none. -/
  home : String
  input : Input

structure Outcome where
  exitCode : Nat
  transcript : Transcript := {}
  history? : Option (String × Bytes) := none

inductive Command where
  | help
  | version
  | repl
  | script (path : String)
  deriving DecidableEq, Repr

namespace Command

def ofArguments : List String → Except String Command
  | [] => .ok .repl
  | word :: rest =>
    if ["--help", "-h", "help"].contains word then .ok .help
    else if ["--version", "-V", "version"].contains word then .ok .version
    else if word = "repl" then .ok .repl
    else if word = "run" then
      match rest with
      | [path] => .ok (.script path)
      | _ => .error "run expects exactly one file"
    else if rest.isEmpty then .ok (.script word)
    else .error ("unexpected arguments [" ++ String.intercalate " " rest ++ "]")

end Command

namespace CommandLine

def usage : String :=
  "Usage:\n"
    ++ "  koys [--debug] [--max-depth=N] [--config=FILE] run <file.koy | ->\n"
    ++ "  koys [--debug] [--max-depth=N] [--config=FILE] <file.koy | ->\n"
    ++ "  koys [--debug] [--max-depth=N] [--config=FILE] [repl]\n"

def versionLine : String := "koys 0.1.0\n"

def complaint (text : Bytes) : Transcript :=
  { errors := Bytes.ofString "koys: " ++ text ++ [Text.lineEnd] }

def misused (text : String) : Outcome :=
  { exitCode := 2
    transcript := complaint (Bytes.ofString text) ++ { errors := Bytes.ofString usage } }

/-- The path of the settings file: the one that is named, or else that of the working directory. -/
def settingsPath? (files : Files) (options : Options) : Option String :=
  if options.settingsPath.isEmpty then Settings.find? files files.directory
  else some options.settingsPath

def settings (files : Files) (options : Options) : Except Settings.LoadError Settings := do
  let settings ← match settingsPath? files options with
    | some path => Settings.load files path
    | none => pure {}
  return { settings with
    debug := options.debug || settings.debug
    maxDepth := if options.maxDepth > 0 then options.maxDepth else settings.maxDepth }

/-- Runs the program in a file; a dash stands for the standard input. -/
def runScript (session : Session) (surroundings : Surroundings) (path : String) : Outcome :=
  let (result, session) :=
    if path = "-" then
      match surroundings.input.failure with
      | some reason => (.error (.other reason), session)
      | none => session.runSource unnamedSource surroundings.input.content
    else session.runFile surroundings.files path
  match result with
  | .ok _ => { exitCode := 0, transcript := session.transcript }
  | .error failure =>
    { exitCode := 1
      transcript := session.transcript ++ complaint (Bytes.ofString failure.message) }

/-- The name of the file in which entries are kept. One that is not valid UTF-8 names no file. -/
def historyFile? (settings : Settings) (home : String) : Option String := do
  (← settings.historyPath? home).toString?

def historyIn (files : Files) (path : String) : Repl.History :=
  match files.read path with
  | .ok content => .ofFile content
  | .error _ => []

def runRepl (settings : Settings) (session : Session) (surroundings : Surroundings) : Outcome :=
  let input := surroundings.input
  match input.typed?, historyFile? settings surroundings.home with
  | none, _ => { exitCode := 0, transcript := Repl.onStream session input.content input.failure }
  | some typed, none =>
    let (transcript, _) :=
      Repl.atTerminal Repl.History.add session [] (Text.typedLines typed.content) typed.failure
    { exitCode := 0, transcript }
  | some typed, some path =>
    let (transcript, history) :=
      Repl.atTerminal Repl.History.add session (historyIn surroundings.files path)
        (Text.typedLines typed.content) typed.failure
    { exitCode := 0, transcript, history? := some (path, history.toFile) }

def runCommand (settings : Settings) (surroundings : Surroundings) : Command → Outcome
  | .help => { exitCode := 0, transcript := .shown usage }
  | .version => { exitCode := 0, transcript := .shown versionLine }
  | .repl => runRepl settings (.new settings none) surroundings
  | .script path => runScript (.new settings none) surroundings path

/-- The settings and the command that a command line gives, or what becomes of it without them.
Flags are looked at first, then the settings, then the command. -/
def plan (arguments : List String) (files : Files) : Except Outcome (Settings × Command) :=
  match Options.parse arguments with
  | .error text => .error (misused text)
  | .ok (options, others) =>
    match settings files options with
    | .error error => .error { exitCode := 1, transcript := complaint error.message }
    | .ok settings =>
      match Command.ofArguments others with
      | .error text => .error (misused text)
      | .ok command => .ok (settings, command)

def run (arguments : List String) (surroundings : Surroundings) : Outcome :=
  match plan arguments surroundings.files with
  | .error outcome => outcome
  | .ok (settings, command) => runCommand settings surroundings command

end CommandLine

end Koy
