import Koy.Text.Bytes

/-! Reading bytes as UTF-8. A glyph is one character, or one byte that starts no character; a byte
string is a list of glyphs, and every byte belongs to exactly one of them. -/

namespace Koy

/-- One unit of source text. -/
inductive Glyph where
  | char (c : Char)
  /-- A byte at which no valid encoding starts. -/
  | stray (byte : UInt8)
  deriving DecidableEq, Repr

namespace Glyph

def bytes : Glyph → Bytes
  | .char c => String.utf8EncodeChar c
  | .stray byte => [byte]

/-- The glyph that starts with `byte` when `following` are the bytes after it. No encoding is longer
than four bytes. -/
def leading (byte : UInt8) (following : Bytes) : Glyph :=
  match (byte :: following.take 3).toByteArray.utf8DecodeChar? 0 with
  | some c => .char c
  | none => .stray byte

/-- The glyphs of `bytes`, of which the first `skip` belong to a glyph already read. -/
def decodeFrom : Nat → Bytes → List Glyph
  | _, [] => []
  | skip + 1, _ :: rest => decodeFrom skip rest
  | 0, byte :: rest =>
    let glyph := leading byte rest
    glyph :: decodeFrom (glyph.bytes.length - 1) rest

def decode (bytes : Bytes) : List Glyph :=
  decodeFrom 0 bytes

def chars? : List Glyph → Option (List Char)
  | [] => some []
  | .char c :: rest => (chars? rest).map (c :: ·)
  | .stray _ :: _ => none

def firstChar? : List Glyph → Option Char
  | .char c :: _ => some c
  | _ => none

end Glyph

namespace Bytes

def toString? (bytes : Bytes) : Option String :=
  (Glyph.chars? (Glyph.decode bytes)).map String.ofList

end Bytes

end Koy
