/-! Dates and times as YAML scalars: a date, or a date and a time of day, with a zone or after a
blank. Months, days, hours, minutes and seconds have one or two digits. -/

namespace Koy.Yaml.Timestamp

def short? : List Char → Option (Nat × List Char)
  | [] => none
  | a :: rest =>
    if !a.isDigit then none
    else match rest with
      | [] => some (a.toNat - 48, [])
      | b :: more =>
        if b.isDigit then some (10 * (a.toNat - 48) + (b.toNat - 48), more)
        else some (a.toNat - 48, rest)

def pair? (limit : Nat) : List Char → Option (List Char)
  | a :: b :: rest =>
    if a.isDigit && b.isDigit && 10 * (a.toNat - 48) + (b.toNat - 48) ≤ limit then some rest
    else none
  | _ => none

def upTo? (limit : Nat) (text : List Char) : Option (List Char) := do
  let (number, rest) ← short? text
  if number ≤ limit then some rest else none

def after? (c : Char) : List Char → Option (List Char)
  | [] => none
  | first :: rest => if first = c then some rest else none

def daysIn (year month : Nat) : Nat :=
  if month = 2 then
    if year % 4 = 0 ∧ (year % 100 ≠ 0 ∨ year % 400 = 0) then 29 else 28
  else if [4, 6, 9, 11].contains month then 30
  else 31

def date? (text : List Char) : Option (List Char) := do
  let digits := text.takeWhile Char.isDigit
  if digits.length ≠ 4 then none
  let year := digits.foldl (fun n c => 10 * n + (c.toNat - 48)) 0
  let (month, rest) ← short? (← after? '-' (text.drop 4))
  let (day, rest) ← short? (← after? '-' rest)
  if 1 ≤ month ∧ month ≤ 12 ∧ 1 ≤ day ∧ day ≤ daysIn year month then some rest else none

/-- What follows a fraction of a second, which may be left out. -/
def afterFraction : List Char → List Char
  | mark :: digit :: rest =>
    if (mark = '.' ∨ mark = ',') ∧ digit.isDigit then rest.dropWhile Char.isDigit
    else mark :: digit :: rest
  | text => text

def clock? (text : List Char) : Option (List Char) := do
  let rest ← after? ':' (← upTo? 23 text)
  let rest ← after? ':' (← upTo? 59 rest)
  return afterFraction (← upTo? 59 rest)

def zone? : List Char → Option (List Char)
  | 'Z' :: rest => some rest
  | '+' :: rest | '-' :: rest => do pair? 60 (← after? ':' (← pair? 24 rest))
  | _ => none

def isTimestamp (text : String) : Bool :=
  match date? text.toList with
  | none => false
  | some [] => true
  | some (mark :: rest) =>
    if mark = 'T' ∨ mark = 't' then (clock? rest).bind zone? == some []
    else mark == ' ' && clock? (rest.dropWhile (· == ' ')) == some []

end Koy.Yaml.Timestamp
