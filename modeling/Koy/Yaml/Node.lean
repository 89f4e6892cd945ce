import Koy.Yaml.Meaning

/-! The tree of a YAML document. -/

namespace Koy.Yaml

inductive Node where
  | scalar (line : Nat) (tag : Tag) (content : String)
  | sequence (line : Nat) (tag : Tag) (items : List Node)
  | mapping (line : Nat) (tag : Tag) (entries : List (Node × Node))
  /-- A name for a node given before, which may enclose this one: the number of the reference and
  that of the node, in the order of their occurrence. -/
  | reference (line : Nat) (name : String) (number target : Nat)
  deriving Repr

namespace Node

def line : Node → Nat
  | .scalar line _ _ | .sequence line _ _ | .mapping line _ _ | .reference line _ _ _ => line

def sequenceTag : Tag := Bytes.ofString "!!seq"

def mappingTag : Tag := Bytes.ofString "!!map"

def mergeTag : Tag := Bytes.ofString "!!merge"

def blank (mark : Mark) : Node := .scalar (mark.line + 1) Meaning.null.tag ""

def shortTag (tag : Tag) : Tag :=
  let lead := Bytes.ofString "tag:yaml.org,2002:"
  if lead.isPrefixOf tag then Bytes.ofString "!!" ++ tag.drop lead.length else tag

/-- The tag of a node: the one that is written, unless it is none or the exclamation mark alone, and
otherwise the default. -/
def tagOr (default : Tag) : Option Tag → Tag
  | none => default
  | some written =>
    if written = [] ∨ written = Bytes.ofString "!" then default else shortTag written

def scalarTag (style : Style) (content : String) : Tag :=
  if style ≠ .plain then Bytes.ofString "!!str"
  else if content = "<<" then mergeTag
  else (Meaning.ofForm true content).tag

/-- Two keys count as one: they are of one kind, and their texts or names agree. -/
def sameKey : Node → Node → Bool
  | .scalar _ _ a, .scalar _ _ b => a == b
  | .reference _ a _ _, .reference _ b _ _ => a == b
  | .sequence .., .sequence .. | .mapping .., .mapping .. => true
  | _, _ => false

def keyText : Node → String
  | .scalar _ _ content => content
  | .reference _ name _ _ => name
  | _ => ""

def isMerge : Node → Bool
  | .scalar _ tag content => content == "<<" && tag == mergeTag
  | _ => false

def isMapping : Node → Bool
  | .mapping .. => true
  | _ => false

end Node

end Koy.Yaml
