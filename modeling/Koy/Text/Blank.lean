/-! White space: the characters with the Unicode property White_Space. -/

namespace Koy.Text

def isBlank (c : Char) : Bool :=
  let code := c.toNat
  if code < 0x80 then code == 0x20 || (0x09 ≤ code && code ≤ 0x0D)
  else code == 0x85 || code == 0xA0 || code == 0x1680 || (0x2000 ≤ code && code ≤ 0x200A)
    || code == 0x2028 || code == 0x2029 || code == 0x202F || code == 0x205F || code == 0x3000

def trimBy {α : Type} (p : α → Bool) (items : List α) : List α :=
  ((items.dropWhile p).reverse.dropWhile p).reverse

def trim (text : String) : String :=
  String.ofList (trimBy isBlank text.toList)

end Koy.Text
