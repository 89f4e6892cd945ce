/-! Sets of characters given as ranges of code points, the form in which character properties are
tabulated. -/

namespace Koy.Text

/-- The code points from the first number to the second, both included. -/
abbrev CodeRange := Nat × Nat

namespace CodeRange

def mem (ranges : List CodeRange) (c : Char) : Bool :=
  ranges.any fun range => range.1 ≤ c.toNat && c.toNat ≤ range.2

end CodeRange

end Koy.Text
