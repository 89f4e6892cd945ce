import Koy.Text.Decimal
import Koy.Yaml.Scalar

/-! Numbers as YAML scalars: integers in four bases, and decimal fractions rounded to 64 bits. -/

namespace Koy.Yaml.Number

def digits? (base : Nat) (digits : List Char) : Option Nat :=
  digits.foldl
    (fun value c => do
      let digit ← Scalar.hexDigit? c
      if digit < base then return base * (← value) + digit else none)
    (some 0)

def natural? (base : Nat) (digits : List Char) : Option Nat :=
  if digits.isEmpty then none else digits? base digits

/-- An integer without sign: a letter after a leading zero names the base, and a zero alone stands
for base eight. -/
def unsigned? : List Char → Option Nat
  | '0' :: letter :: digit :: rest =>
    match letter.toLower with
    | 'b' => natural? 2 (digit :: rest)
    | 'o' => natural? 8 (digit :: rest)
    | 'x' => natural? 16 (digit :: rest)
    | _ => digits? 8 (letter :: digit :: rest)
  | '0' :: rest => digits? 8 rest
  | digits => natural? 10 digits

def signed? (negative : Bool) (magnitude : Nat) : Option Int :=
  let number : Int := if negative then -magnitude else magnitude
  if Decimal.fits number then some number else none

/-- An integer of 64 bits: with a sign from -2^63 on, without one below 2^64. The sign may also
stand after the letter of base two or eight. -/
def integer? : List Char → Option Int
  | '-' :: digits => do signed? true (← unsigned? digits)
  | '+' :: digits => do signed? false (← unsigned? digits)
  | '0' :: 'b' :: '-' :: digits => do signed? true (← natural? 2 digits)
  | '0' :: 'b' :: '+' :: digits => do signed? false (← natural? 2 digits)
  | '0' :: 'o' :: '-' :: digits => do signed? true (← natural? 8 digits)
  | '0' :: 'o' :: '+' :: digits => do signed? false (← natural? 8 digits)
  | digits => do
    let magnitude ← unsigned? digits
    if magnitude < 2 * Decimal.int64Bound then some magnitude else none

def sign : List Char → Bool × List Char
  | '-' :: rest => (true, rest)
  | '+' :: rest => (false, rest)
  | text => (false, text)

def exponent? : List Char → Option Int
  | [] => some 0
  | mark :: rest =>
    if mark = 'e' ∨ mark = 'E' then do
      let (negative, digits) := sign rest
      let magnitude ← if digits.all Char.isDigit then natural? 10 digits else none
      return if negative then -magnitude else magnitude
    else none

/-- The 64-bit number nearest to `digits * 10 ^ scale`, if that is finite. -/
def nearest? (negative : Bool) (digits : Nat) (scale : Int) : Option Float :=
  let size : Int := (Nat.toDigits 10 digits).length + scale
  let magnitude : Float :=
    if digits = 0 ∨ size < -400 then 0
    else if size > 400 then 1 / 0
    else if scale < 0 then Float.ofScientific digits true scale.natAbs
    else Float.ofScientific digits false scale.natAbs
  if magnitude.isInf then none else some (if negative then -magnitude else magnitude)

def decimal? (text : List Char) : Option Float := do
  let (negative, text) := sign text
  let whole := text.takeWhile Char.isDigit
  let rest := text.drop whole.length
  let fraction := match rest with
    | '.' :: more => more.takeWhile Char.isDigit
    | _ => []
  let rest := match rest with
    | '.' :: more => more.drop fraction.length
    | _ => rest
  let digits ← natural? 10 (whole ++ fraction)
  nearest? negative digits ((← exponent? rest) - fraction.length)

def underscoresInside : List Char → Bool
  | a :: '_' :: b :: rest => a.isDigit && b.isDigit && underscoresInside (b :: rest)
  | [_, '_'] => false
  | _ :: rest => underscoresInside rest
  | [] => true

/-- The integer part of a number as a 64-bit integer. A negative number that is too small, and the
first number that is too large, count as the least integer; others that are too large, and what is no
number, have none. -/
def truncated? (value : Float) : Option Int :=
  let bound : Float := 9223372036854775808
  if value ≤ bound then
    if value < -bound ∨ bound ≤ value then some (-Decimal.int64Bound)
    else some value.toInt64.toInt
  else none

end Koy.Yaml.Number
