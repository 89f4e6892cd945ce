import Koy.Value

/-! Equality of values: sequences compare in order, sets as sets, mappings entry by entry, and
functions by the identity of their bodies. -/

namespace Koy.Value

mutual

def equal : Value → Value → Bool
  | .int a, .int b => a == b
  | .bool a, .bool b => a == b
  | .text a, .text b => a == b
  | .sequence a, .sequence b => equalAll a b
  | .set a, .set b => a.length == b.length && allIn a b
  | .mapping a, .mapping b => equalEntries a b
  | .function params body, .function params' body' =>
    body.id == body'.id && params == params'
  | .invalid, .invalid => true
  | _, _ => false

def equalAll : List Value → List Value → Bool
  | [], [] => true
  | a :: as, b :: bs => equal a b && equalAll as bs
  | _, _ => false

def allIn : List Value → List Value → Bool
  | [], _ => true
  | a :: as, bs => bs.any (fun b => equal a b) && allIn as bs

def equalEntries : List (String × Value) → List (String × Value) → Bool
  | [], [] => true
  | (key, a) :: as, (key', b) :: bs => key == key' && equal a b && equalEntries as bs
  | _, _ => false

end

/-- Adds to distinct values those of a list that are not equal to one already there. -/
def distinctFrom (kept : List Value) : List Value → List Value
  | [] => kept
  | value :: rest =>
    if kept.any (·.equal value) then distinctFrom kept rest
    else distinctFrom (kept ++ [value]) rest

def distinct (values : List Value) : List Value :=
  distinctFrom [] values

def ofSet (values : List Value) : Value :=
  .set (distinct values)

end Koy.Value
