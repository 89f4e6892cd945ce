import Koy.Text.Blank
import Koy.Text.Decimal
import Koy.Text.Quoted

/-! Command-line flags. -/

namespace Koy

structure Options where
  settingsPath : String := ""
  debug : Bool := false
  maxDepth : Int := 0
  deriving DecidableEq, Repr

namespace Options

inductive Flag where
  | config
  | maxDepth
  deriving DecidableEq, Repr

def Flag.name : Flag → String
  | .config => "--config"
  | .maxDepth => "--max-depth"

inductive Argument where
  | terminator
  | debug
  /-- A flag whose value is the next argument. -/
  | flag (flag : Flag)
  /-- A flag together with its value. -/
  | setting (flag : Flag) (value : String)
  | unknown
  | other
  deriving DecidableEq, Repr

def valueIn? (flag : Flag) (argument : String) : Option String :=
  let lead := flag.name.toList ++ ['=']
  if lead.isPrefixOf argument.toList then
    some (String.ofList (argument.toList.drop lead.length))
  else none

/-- What an argument is. Two flags are left to the commands. -/
def classify (argument : String) : Argument :=
  if argument = "--" then .terminator
  else if argument = "--debug" then .debug
  else if argument = Flag.config.name then .flag .config
  else if argument = Flag.maxDepth.name then .flag .maxDepth
  else match valueIn? .config argument, valueIn? .maxDepth argument with
    | some value, _ => .setting .config value
    | none, some value => .setting .maxDepth value
    | none, none =>
      if ['-', '-'].isPrefixOf argument.toList ∧ argument ≠ "--help" ∧ argument ≠ "--version" then
        .unknown
      else .other

def set (options : Options) (flag : Flag) (value : String) : Except String Options :=
  if (Text.trim value).isEmpty then .error (flag.name ++ " expects a value")
  else match flag with
    | .config => .ok { options with settingsPath := value }
    | .maxDepth =>
      let refusal := "--max-depth expects a positive integer, got " ++ Text.quoteString value
      match Decimal.int64? value with
      | some n => if n ≤ 0 then .error refusal else .ok { options with maxDepth := n.toInt }
      | none => .error refusal

def scan (options : Options) : List String → Except String (Options × List String)
  | [] => .ok (options, [])
  | argument :: rest =>
    match classify argument with
    | .terminator => .ok (options, rest)
    | .debug => scan { options with debug := true } rest
    | .flag flag =>
      match rest with
      | [] => .error (flag.name ++ " expects a value")
      | value :: rest =>
        match options.set flag value with
        | .ok options => scan options rest
        | .error refusal => .error refusal
    | .setting flag value =>
      match options.set flag value with
      | .ok options => scan options rest
      | .error refusal => .error refusal
    | .unknown => .error ("unknown flag " ++ argument)
    | .other =>
      match scan options rest with
      | .ok (options, others) => .ok (options, argument :: others)
      | .error refusal => .error refusal

def parse (arguments : List String) : Except String (Options × List String) :=
  scan {} arguments

end Options

end Koy
