import Koy.Yaml.Comment

/-! The scalars of a YAML text: plain, quoted, and block scalars. -/

namespace Koy.Yaml

inductive Style where
  | plain
  | singleQuoted
  | doubleQuoted
  | literal
  | folded
  deriving DecidableEq, Repr

namespace Scalar

/-- White space inside a scalar: blanks within a line, last first, or a first line end and further
ones. -/
inductive Gap where
  | blanks (content : List Char)
  | lines (first : List Char) (more : List Char)

def Gap.isLines : Gap → Bool
  | .blanks _ => false
  | .lines _ _ => true

/-- What a gap between two words counts as: a single line end becomes a space. -/
def Gap.joined : Gap → List Char
  | .blanks content => content.reverse
  | .lines ['\n'] [] => [' ']
  | .lines ['\n'] more => more
  | .lines first more => first ++ more

/-- Passes over white space. With `indent`, a tab before that column is refused after a line end. -/
def gap (start : Mark) (indent : Option Int) : Nat → Gap → Scan Gap
  | 0, gathered => return gathered
  | fuel + 1, gathered => do
    let cursor ← get
    match cursor.current? with
    | none => return gathered
    | some c =>
      if isBlank c then
        if gathered.isLines && c == '\t' && indent.any (fun i => (cursor.mark.column : Int) < i) then
          Scan.refuse start "found a tab character that violates indentation"
        Scan.skip
        Scan.ensure 1
        gap start indent fuel (match gathered with
          | .blanks content => .blanks (c :: content)
          | lines => lines)
      else if isBreak c then
        Scan.ensure 2
        let text ← Scan.takeBreak
        Scan.ensure 1
        gap start indent fuel (match gathered with
          | .blanks _ => .lines text []
          | .lines first more => .lines first (more ++ text))
      else return gathered

def plainEnds (inFlow : Bool) (cursor : Cursor) : Bool :=
  match cursor.current? with
  | none => true
  | some ':' => cursor.spaceOrEndAt 1
  | some c => inFlow && [',', '?', '[', ']', '\x7b', '\x7d'].contains c

def plainWord (inFlow : Bool) : Nat → List Char → Scan (List Char)
  | 0, taken => return taken
  | fuel + 1, taken => do
    let cursor ← get
    match cursor.current? with
    | none => return taken
    | some c =>
      if isBlank c || isBreak c || plainEnds inFlow cursor then return taken
      Scan.skip
      Scan.ensure 2
      plainWord inFlow fuel (c :: taken)

/-- The words of a plain scalar after the content gathered so far, which is kept last first, and
whether it ends after a line end. -/
def plainWords (inFlow : Bool) (indent : Int) (start : Mark) :
    Nat → List Char → Gap → Scan (List Char × Bool)
  | 0, content, before => return (content, before.isLines)
  | fuel + 1, content, before => do
    Scan.ensure 4
    let cursor ← get
    if cursor.atDocumentMark || cursor.isAt 0 '#' then return (content, before.isLines)
    let word ← plainWord inFlow cursor.limit []
    let content := if word.isEmpty then content else word ++ (before.joined.reverse ++ content)
    let before := if word.isEmpty then before else .blanks []
    let cursor ← get
    if !(cursor.blankAt 0 || cursor.breakAt 0) then return (content, before.isLines)
    let before ← gap start (some indent) cursor.limit before
    if !inFlow && ((← get).mark.column : Int) < indent then return (content, before.isLines)
    plainWords inFlow indent start fuel content before

/-- A plain scalar whose later lines are indented by at least `indent`, and whether it ends after a
line end. -/
def plain (inFlow : Bool) (indent : Int) : Scan (List Char × Bool) := do
  let cursor ← get
  let (content, endsLine) ← plainWords inFlow indent cursor.mark cursor.limit [] (.blanks [])
  return (content.reverse, endsLine)

def shortEscape? : Char → Option Char
  | '0' => some '\x00'
  | 'a' => some '\x07'
  | 'b' => some '\x08'
  | 't' | '\t' => some '\t'
  | 'n' => some '\n'
  | 'v' => some '\x0b'
  | 'f' => some '\x0c'
  | 'r' => some '\r'
  | 'e' => some '\x1b'
  | ' ' => some ' '
  | '"' => some '"'
  | '\'' => some '\''
  | '\\' => some '\\'
  | 'N' => some '\u0085'
  | '_' => some '\u00a0'
  | 'L' => some '\u2028'
  | 'P' => some '\u2029'
  | _ => none

def escapeDigits? : Char → Option Nat
  | 'x' => some 2
  | 'u' => some 4
  | 'U' => some 8
  | _ => none

def hexDigit? (c : Char) : Option Nat :=
  if c.isDigit then some (c.toNat - 48)
  else if 'a' ≤ c ∧ c ≤ 'f' then some (c.toNat - 87)
  else if 'A' ≤ c ∧ c ≤ 'F' then some (c.toNat - 55)
  else none

def hexValue? (digits : List Char) : Option Nat :=
  digits.foldl (fun value c => do return 16 * (← value) + (← hexDigit? c)) (some 0)

def escape (start : Mark) : Scan Char := do
  let letter := (← get).peek? 1
  match letter.bind shortEscape?, letter.bind escapeDigits? with
  | some c, _ =>
    Scan.skipMany 2
    return c
  | none, none => Scan.refuse start "found unknown escape character"
  | none, some width =>
    Scan.skipMany 2
    Scan.ensure width
    match hexValue? ((← get).ahead.take width) with
    | none => Scan.refuse start "did not find expected hexdecimal number"
    | some code =>
      if (0xD800 ≤ code ∧ code ≤ 0xDFFF) ∨ 0x10FFFF < code then
        Scan.refuse start "found invalid Unicode character escape code"
      Scan.skipMany width
      return Char.ofNat code

/-- The characters of a quoted scalar up to white space or its quote, added to those taken before,
last first, and whether they end with an escaped line end. -/
def quotedWord (single : Bool) (start : Mark) : Nat → List Char → Scan (List Char × Bool)
  | 0, taken => return (taken, false)
  | fuel + 1, taken => do
    let cursor ← get
    match cursor.current? with
    | none => return (taken, false)
    | some c =>
      if isBlank c || isBreak c then return (taken, false)
      else if single && c == '\'' && cursor.isAt 1 '\'' then
        Scan.skipMany 2
        Scan.ensure 2
        quotedWord single start fuel ('\'' :: taken)
      else if c == (if single then '\'' else '"') then return (taken, false)
      else if !single && c == '\\' && cursor.breakAt 1 then
        Scan.ensure 3
        Scan.skip
        let _ ← Scan.takeBreak
        return (taken, true)
      else if !single && c == '\\' then
        let escaped ← escape start
        Scan.ensure 2
        quotedWord single start fuel (escaped :: taken)
      else
        Scan.skip
        Scan.ensure 2
        quotedWord single start fuel (c :: taken)

def quotedWords (single : Bool) (start : Mark) : Nat → List Char → Scan (List Char)
  | 0, content => return content
  | fuel + 1, content => do
    Scan.ensure 4
    let cursor ← get
    if cursor.atDocumentMark then Scan.refuse start "found unexpected document indicator"
    if cursor.atEnd then Scan.refuse start "found unexpected end of stream"
    let (content, escaped) ← quotedWord single start cursor.limit content
    Scan.ensure 1
    if (← get).isAt 0 (if single then '\'' else '"') then return content
    let between ← gap start none cursor.limit (if escaped then .lines [] [] else .blanks [])
    quotedWords single start fuel (between.joined.reverse ++ content)

def quoted (single : Bool) : Scan (List Char) := do
  let cursor ← get
  Scan.skip
  let content ← quotedWords single cursor.mark cursor.limit []
  Scan.skip
  return content.reverse

inductive Chomping where
  | strip
  | clip
  | keep
  deriving DecidableEq, Repr

def chomping? : Scan (Option Chomping) := do
  Scan.ensure 1
  match (← get).current? with
  | some '+' =>
    Scan.skip
    return some .keep
  | some '-' =>
    Scan.skip
    return some .strip
  | _ => return none

def indentation? (start : Mark) : Scan (Option Nat) := do
  Scan.ensure 1
  match (← get).current? with
  | some '0' => Scan.refuse start "found an indentation indicator equal to 0"
  | some c =>
    if c.isDigit then
      Scan.skip
      return some (c.toNat - 48)
    else return none
  | none => return none

def blockHeader (start : Mark) : Scan (Chomping × Option Nat) := do
  match ← chomping? with
  | some chomping => return (chomping, ← indentation? start)
  | none =>
    match ← indentation? start with
    | some width => return ((← chomping?).getD .clip, some width)
    | none => return (.clip, none)

def skipIndentation (indent : Nat) : Nat → Scan Unit
  | 0 => return
  | fuel + 1 => do
    let cursor ← get
    if (indent = 0 ∨ cursor.mark.column < indent) ∧ cursor.isAt 0 ' ' then
      Scan.skip
      Scan.ensure 1
      skipIndentation indent fuel

/-- Passes over indentation and empty lines; `indent` is zero as long as it is not known. Yields the
line ends and the greatest column met. -/
def blockBreaks (start : Mark) (indent : Nat) : Nat → Nat → Scan (List Char × Nat)
  | 0, widest => return ([], widest)
  | fuel + 1, widest => do
    Scan.ensure 1
    skipIndentation indent (← get).limit
    let cursor ← get
    let widest := max widest cursor.mark.column
    if (indent = 0 ∨ cursor.mark.column < indent) ∧ cursor.isAt 0 '\t' then
      Scan.refuse start "found a tab character where an indentation space is expected"
    if cursor.breakAt 0 then
      Scan.ensure 2
      let text ← Scan.takeBreak
      let (more, widest) ← blockBreaks start indent fuel widest
      return (text ++ more, widest)
    else return ([], widest)

/-- The lines of a block scalar: the content, last first, the last line end, and the line ends after
it. -/
def blockLines (folded : Bool) (start : Mark) (indent : Nat) :
    Nat → List Char → List Char → List Char → Bool → Scan (List Char × List Char × List Char)
  | 0, content, first, more, _ => return (content, first, more)
  | fuel + 1, content, first, more, afterBlank => do
    let cursor ← get
    if cursor.mark.column ≠ indent ∨ cursor.atEnd then return (content, first, more)
    let blank := cursor.blankAt 0
    let joint :=
      if folded && !afterBlank && !blank && first == ['\n'] then
        if more.isEmpty then [' '] else []
      else first
    let content ←
      Scan.takeOn (fun c => !isBreak c) cursor.limit (more.reverse ++ (joint.reverse ++ content))
    Scan.ensure 2
    let first ← Scan.takeBreak
    let (more, _) ← blockBreaks start indent cursor.limit 0
    blockLines folded start indent fuel content first more blank

/-- A block scalar, from its indicator on, inside a collection indented by `outer`. -/
def block (folded : Bool) (outer : Int) : Scan (List Char) := do
  let start := (← get).mark
  let limit := (← get).limit
  Scan.skip
  let (chomping, width) ← blockHeader start
  Scan.skipWhile isBlank
  if (← get).isAt 0 '#' then
    Comment.skipAfterToken
    Scan.skipToBreak
  if !(← get).breakOrEndAt 0 then
    Scan.refuse start "did not find expected comment or line break"
  Scan.skipLine
  let given := match width with
    | some width => if outer ≥ 0 then outer.toNat + width else width
    | none => 0
  let (more, widest) ← blockBreaks start given limit 0
  let indent := if given = 0 then max (max widest (outer + 1).toNat) 1 else given
  Scan.ensure 1
  let (content, first, more) ← blockLines folded start indent limit [] [] more false
  let content := if chomping = .strip then content else first.reverse ++ content
  return (if chomping = .keep then more.reverse ++ content else content).reverse

end Scalar

end Koy.Yaml
