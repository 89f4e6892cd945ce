/-! Byte strings, the form in which source text, text values and output are kept: they need not be
valid UTF-8. -/

namespace Koy

abbrev Bytes := List UInt8

namespace Bytes

def ofChars (chars : List Char) : Bytes :=
  chars.flatMap String.utf8EncodeChar

def ofString (text : String) : Bytes :=
  ofChars text.toList

@[simp] theorem ofChars_nil : ofChars [] = [] := rfl

@[simp] theorem ofChars_cons (c : Char) (chars : List Char) :
    ofChars (c :: chars) = String.utf8EncodeChar c ++ ofChars chars := by
  simp [ofChars]

@[simp] theorem ofChars_append (left right : List Char) :
    ofChars (left ++ right) = ofChars left ++ ofChars right := by
  simp [ofChars]

@[simp] theorem ofString_append (left right : String) :
    ofString (left ++ right) = ofString left ++ ofString right := by
  simp [ofString]

end Bytes

end Koy
