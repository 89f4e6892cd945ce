import Koy.Text.Blank
import Koy.Text.Quoted

/-! Log levels and their names. -/

namespace Koy

/-- How much is logged. Calls are logged at level `debug` only. -/
inductive LogLevel where
  | debug
  | info
  | warn
  | error
  deriving DecidableEq, Repr

namespace LogLevel

def name : LogLevel → String
  | .debug => "DEBUG"
  | .info => "INFO"
  | .warn => "WARN"
  | .error => "ERROR"

/-- A character in lower case, as far as that is an ASCII letter: two letters outside ASCII, the
capital I with a dot and the Kelvin sign, have such a lower case too. -/
def lower (c : Char) : Char :=
  if c.toNat = 0x130 then 'i'
  else if c.toNat = 0x212A then 'k'
  else c.toLower

/-- The level that a setting names. Case and surrounding white space do not matter, and an empty
setting stands for `warn`. -/
def ofSetting? (setting : Bytes) : Option LogLevel := do
  match String.ofList ((Text.trim (← setting.toString?)).toList.map lower) with
  | "debug" => some .debug
  | "info" => some .info
  | "" | "warn" | "warning" => some .warn
  | "error" => some .error
  | _ => none

def unknown (setting : Bytes) : String :=
  "unknown log_level " ++ Text.quote setting

end LogLevel

end Koy
