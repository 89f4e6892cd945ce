import Koy.Yaml.Number
import Koy.Yaml.Timestamp
import Koy.Yaml.Token

/-! What a scalar stands for. Tags are written in their short form. -/

namespace Koy.Yaml

inductive Meaning where
  | null
  | bool (value : Bool)
  | int (value : Int)
  | float (value : Float)
  | timestamp
  /-- A text, or bytes that are written as one. -/
  | text (content : Bytes)
  deriving Repr

namespace Meaning

def tagName : Meaning → String
  | .null => "!!null"
  | .bool _ => "!!bool"
  | .int _ => "!!int"
  | .float _ => "!!float"
  | .timestamp => "!!timestamp"
  | .text _ => "!!str"

def tag (meaning : Meaning) : Tag := Bytes.ofString meaning.tagName

def ofWord? (word : String) : Option Meaning :=
  if ["", "~", "null", "Null", "NULL"].contains word then some .null
  else if ["true", "True", "TRUE"].contains word then some (.bool true)
  else if ["false", "False", "FALSE"].contains word then some (.bool false)
  else if [".nan", ".NaN", ".NAN"].contains word then some (.float (0 / 0))
  else if [".inf", ".Inf", ".INF", "+.inf", "+.Inf", "+.INF"].contains word then
    some (.float (1 / 0))
  else if ["-.inf", "-.Inf", "-.INF"].contains word then some (.float (-1 / 0))
  else none

def ofNumber? (text : String) : Option Meaning :=
  match text.toList with
  | [] => none
  | first :: rest =>
    let compact := (first :: rest).filter (· ≠ '_')
    if first = '.' then
      if Number.underscoresInside (first :: rest) then (Number.decimal? compact).map .float else none
    else if first = '+' ∨ first = '-' ∨ first.isDigit then
      match Number.integer? compact with
      | some value => some (.int value)
      | none => (Number.decimal? compact).map .float
    else none

def ofForm (dated : Bool) (text : String) : Meaning :=
  match ofWord? text with
  | some meaning => meaning
  | none =>
    if dated && Timestamp.isTimestamp text then .timestamp
    else (ofNumber? text).getD (.text (Bytes.ofString text))

def digit64? (c : Char) : Option Nat :=
  if c.isUpper then some (c.toNat - 65)
  else if c.isLower then some (c.toNat - 71)
  else if c.isDigit then some (c.toNat + 4)
  else if c = '+' then some 62
  else if c = '/' then some 63
  else none

def binary? : List Char → Option Bytes
  | [] => some []
  | [a, b, '=', '='] => do
    let n := 64 * (← digit64? a) + (← digit64? b)
    return [UInt8.ofNat (n / 16)]
  | [a, b, c, '='] => do
    let n := 64 * (64 * (← digit64? a) + (← digit64? b)) + (← digit64? c)
    return [UInt8.ofNat (n / 1024), UInt8.ofNat (n / 4)]
  | a :: b :: c :: d :: rest => do
    let n := 64 * (64 * (64 * (← digit64? a) + (← digit64? b)) + (← digit64? c)) + (← digit64? d)
    return UInt8.ofNat (n / 65536) :: UInt8.ofNat (n / 256) :: UInt8.ofNat n :: (← binary? rest)
  | _ => none

def formalTags : List String := ["!!null", "!!bool", "!!int", "!!float", "!!timestamp"]

/-- What a scalar with a tag for a certain form stands for. The tag must agree with the form of the
text, except that an integer may be tagged as a fraction. -/
def ofFormal (tag : String) (text : String) : Except Problem Meaning :=
  let found := ofForm (tag = "!!timestamp") text
  let mismatch : Problem :=
    { text := "cannot decode " ++ found.tagName ++ " `" ++ text ++ "` as a " ++ tag }
  if found.tagName = tag then .ok found
  else match found with
    | .int value =>
      if tag = "!!float" ∧ Decimal.fits value then .ok (.float (Float.ofInt value))
      else throw mismatch
    | _ => throw mismatch

/-- What a scalar stands for under its tag. Unless the tag asks for a certain form, the text stands
for itself, or for the bytes written in it. -/
def ofTagged (tag : Tag) (text : String) : Except Problem Meaning :=
  if tag = Bytes.ofString "!!binary" then
    match binary? (text.toList.filter fun c => c ≠ '\n' ∧ c ≠ '\r') with
    | some bytes => .ok (.text bytes)
    | none => throw { text := "!!binary value contains invalid base64 data" }
  else match formalTags.find? (Bytes.ofString · = tag) with
    | some tag => ofFormal tag text
    | none => .ok (.text (Bytes.ofString text))

end Meaning

end Koy.Yaml
