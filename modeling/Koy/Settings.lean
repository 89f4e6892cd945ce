import Koy.Evaluation
import Koy.LogLevel

/-! The settings of the interpreter. -/

namespace Koy

structure Settings where
  debug : Bool := false
  maxDepth : Int := 0
  logLevel : Bytes := Bytes.ofString "warn"
  history : Bytes := []
  deriving DecidableEq, Repr

namespace Settings

def level (settings : Settings) : LogLevel :=
  (LogLevel.ofSetting? settings.logLevel).getD .warn

def complaint? (settings : Settings) : Option String :=
  if settings.maxDepth < 0 then
    some ("max_depth must not be negative, got " ++ toString settings.maxDepth)
  else match LogLevel.ofSetting? settings.logLevel with
    | some _ => none
    | none => some (LogLevel.unknown settings.logLevel)

/-- The conditions of evaluation under the settings: a maximal depth that is not positive leaves the
default. -/
def conditions (settings : Settings) (unwritable : Option String) : Conditions :=
  let base : Conditions :=
    { traced := settings.debug, logged := settings.level = .debug, unwritable }
  if settings.maxDepth > 0 then { base with maxDepth := settings.maxDepth.toNat } else base

end Settings

end Koy
