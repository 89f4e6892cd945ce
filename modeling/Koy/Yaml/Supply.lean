import Koy.Text.Bytes
import Koy.Yaml.Problem

/-! The characters of a YAML text: UTF-8, or UTF-16 if a byte order mark says so. Control characters
other than tab and line ends are refused. The bytes are fetched in pieces, and a piece is decoded
only when its characters are needed; so what comes before a bad byte can be used. -/

namespace Koy.Yaml

inductive Encoding where
  | utf8
  | utf16 (bigEndian : Bool)
  deriving DecidableEq, Repr

/-- What the first bytes of a text are: a character, the beginning of one, or a mistake. -/
inductive Decoded where
  | char (c : Char) (rest : Bytes)
  | unfinished (complaint : String)
  | bad (complaint : String)

namespace Decoded

def allowed (code : Nat) : Bool :=
  code == 0x09 || code == 0x0A || code == 0x0D || (0x20 ≤ code && code ≤ 0x7E) || code == 0x85
    || (0xA0 ≤ code && code ≤ 0xD7FF) || (0xE000 ≤ code && code ≤ 0xFFFD)
    || (0x10000 ≤ code && code ≤ 0x10FFFF)

def ofCode (code : Nat) (rest : Bytes) : Decoded :=
  if allowed code then .char (Char.ofNat code) rest else .bad "control characters are not allowed"

/-- The number of bytes of a character whose first byte is given, and the bits of the code that
this byte holds. -/
def leading? (byte : UInt8) : Option (Nat × Nat) :=
  if byte < 0x80 then some (1, byte.toNat)
  else if 0xC0 ≤ byte ∧ byte < 0xE0 then some (2, byte.toNat - 0xC0)
  else if 0xE0 ≤ byte ∧ byte < 0xF0 then some (3, byte.toNat - 0xE0)
  else if 0xF0 ≤ byte ∧ byte < 0xF8 then some (4, byte.toNat - 0xF0)
  else none

def continued? (code : Nat) : Bytes → Option Nat
  | [] => some code
  | byte :: rest =>
    if 0x80 ≤ byte ∧ byte < 0xC0 then continued? (64 * code + (byte.toNat - 0x80)) rest else none

def least : Nat → Nat
  | 2 => 0x80
  | 3 => 0x800
  | 4 => 0x10000
  | _ => 0

def ofUtf8 : Bytes → Decoded
  | [] => .unfinished "incomplete UTF-8 octet sequence"
  | first :: rest =>
    match leading? first with
    | none => .bad "invalid leading UTF-8 octet"
    | some (width, bits) =>
      if rest.length + 1 < width then .unfinished "incomplete UTF-8 octet sequence"
      else match continued? bits (rest.take (width - 1)) with
        | none => .bad "invalid trailing UTF-8 octet"
        | some code =>
          if code < least width then .bad "invalid length of a UTF-8 sequence"
          else if (0xD800 ≤ code ∧ code ≤ 0xDFFF) ∨ 0x10FFFF < code then
            .bad "invalid Unicode character"
          else ofCode code (rest.drop (width - 1))

def unit (bigEndian : Bool) (a b : UInt8) : Nat :=
  if bigEndian then 256 * a.toNat + b.toNat else 256 * b.toNat + a.toNat

def ofUtf16 (bigEndian : Bool) : Bytes → Decoded
  | a :: b :: rest =>
    let high := unit bigEndian a b
    if 0xDC00 ≤ high ∧ high ≤ 0xDFFF then .bad "unexpected low surrogate area"
    else if 0xD800 ≤ high ∧ high ≤ 0xDBFF then
      match rest with
      | c :: d :: rest =>
        let low := unit bigEndian c d
        if 0xDC00 ≤ low ∧ low ≤ 0xDFFF then
          ofCode (0x10000 + 0x400 * (high - 0xD800) + (low - 0xDC00)) rest
        else .bad "expected low surrogate area"
      | _ => .unfinished "incomplete UTF-16 surrogate pair"
    else ofCode high rest
  | _ => .unfinished "incomplete UTF-16 character"

def next : Encoding → Bytes → Decoded
  | .utf8, bytes => ofUtf8 bytes
  | .utf16 bigEndian, bytes => ofUtf16 bigEndian bytes

end Decoded

structure Supply where
  encoding : Option Encoding := none
  fetched : Bytes := []
  stored : Bytes
  /-- It has been noticed that there are no more bytes. -/
  ended : Bool := false

namespace Supply

def capacity : Nat := 512

def fetch (supply : Supply) : Supply :=
  let room := capacity - supply.fetched.length
  if room = 0 ∨ supply.ended then supply
  else if supply.stored.isEmpty then { supply with ended := true }
  else
    { supply with
      fetched := supply.fetched ++ supply.stored.take room
      stored := supply.stored.drop room }

/-- Tells the encoding by the byte order mark, which is passed over. -/
def detect (supply : Supply) : Supply :=
  let supply := supply.fetch
  let supply := if supply.fetched.length < 3 then supply.fetch else supply
  match supply.fetched with
  | 0xFF :: 0xFE :: rest => { supply with encoding := some (.utf16 false), fetched := rest }
  | 0xFE :: 0xFF :: rest => { supply with encoding := some (.utf16 true), fetched := rest }
  | 0xEF :: 0xBB :: 0xBF :: rest => { supply with encoding := some .utf8, fetched := rest }
  | _ => { supply with encoding := some .utf8 }

/-- Decodes bytes up to a character that is not complete or to a mistake. Yields the characters, the
other bytes, and the complaint. At the end of the text a character must be complete. -/
def decode (encoding : Encoding) (ended : Bool) : Nat → Bytes → List Char × Bytes × Option Problem
  | 0, bytes => ([], bytes, none)
  | _, [] => ([], [], none)
  | fuel + 1, bytes =>
    match Decoded.next encoding bytes with
    | .char c rest =>
      let (more, left, problem) := decode encoding ended fuel rest
      (c :: more, left, problem)
    | .unfinished complaint => ([], bytes, if ended then some { text := complaint } else none)
    | .bad complaint => ([], bytes, some { text := complaint })

def decodeFetched (supply : Supply) : List Char × Option Problem × Supply :=
  let (chars, left, problem) :=
    decode (supply.encoding.getD .utf8) supply.ended supply.fetched.length supply.fetched
  (chars, problem, { supply with fetched := left })

end Supply

end Koy.Yaml
