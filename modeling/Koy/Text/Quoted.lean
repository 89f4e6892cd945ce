import Koy.Text.Glyph
import Koy.Text.Printable

/-! Quoted texts: printable characters stand for themselves, the mark and the backslash are escaped,
control characters have short names, and everything else is written by its number. -/

namespace Koy.Text

namespace Quoted

def hex (width : Nat) (number : Nat) : String :=
  let digits := Nat.toDigits 16 number
  String.ofList (List.replicate (width - digits.length) '0' ++ digits)

def shortName? (c : Char) : Option Char :=
  match c.toNat with
  | 0x07 => some 'a'
  | 0x08 => some 'b'
  | 0x09 => some 't'
  | 0x0A => some 'n'
  | 0x0B => some 'v'
  | 0x0C => some 'f'
  | 0x0D => some 'r'
  | _ => none

def char (mark : Char) (c : Char) : String :=
  if c = mark ∨ c = '\\' then String.ofList ['\\', c]
  else if isPrintable c then String.singleton c
  else match shortName? c with
    | some letter => String.ofList ['\\', letter]
    | none =>
      if c.toNat < 0x20 ∨ c.toNat = 0x7F then "\\x" ++ hex 2 c.toNat
      else if c.toNat < 0x10000 then "\\u" ++ hex 4 c.toNat
      else "\\U" ++ hex 8 c.toNat

/-- How a glyph is written between two marks; a stray byte is written by its number. -/
def glyph (mark : Char) : Glyph → String
  | .char c => char mark c
  | .stray byte => "\\x" ++ hex 2 byte.toNat

def glyphs (content : List Glyph) : String :=
  "\"" ++ String.join (content.map (glyph '"')) ++ "\""

end Quoted

def quote (content : Bytes) : String :=
  Quoted.glyphs (Glyph.decode content)

def quoteString (content : String) : String :=
  Quoted.glyphs (content.toList.map .char)

def quoteChar (c : Char) : String :=
  "'" ++ Quoted.char '\'' c ++ "'"

end Koy.Text
