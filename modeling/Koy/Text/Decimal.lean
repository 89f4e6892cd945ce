/-! Decimal notation of integers: a sign and ASCII digits. Numbers of the language have 64 bits. -/

namespace Koy.Decimal

def digit? (c : Char) : Option Nat :=
  if c.isDigit then some (c.toNat - 48) else none

/-- Reads digits after a number that has been read already. -/
def continueFrom : Nat → List Char → Option Nat
  | value, [] => some value
  | value, c :: rest =>
    match digit? c with
    | some d => continueFrom (10 * value + d) rest
    | none => none

def nat? : List Char → Option Nat
  | [] => none
  | digits => continueFrom 0 digits

def int? : List Char → Option Int
  | '-' :: digits => (nat? digits).map fun n => -(n : Int)
  | '+' :: digits => (nat? digits).map fun n => (n : Int)
  | digits => (nat? digits).map fun n => (n : Int)

/-- The first positive number that is no 64-bit integer. -/
def int64Bound : Nat := 9223372036854775808

def fits (n : Int) : Bool :=
  -int64Bound ≤ n && n < int64Bound

def int64? (text : String) : Option Int64 :=
  match int? text.toList with
  | some n => if fits n then some (Int64.ofInt n) else none
  | none => none

def ofInt64 (n : Int64) : String :=
  toString n.toInt

end Koy.Decimal
