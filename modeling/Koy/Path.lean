/-! Paths of files, as texts with slashes. -/

namespace Koy.Path

def parts (path : String) : List String :=
  (path.toList.splitOn '/').map String.ofList

def isRooted (path : String) : Bool :=
  path.toList.head? = some '/'

/-- Adds a part to the cleaned parts before it, given last first: empty parts and dots fall away,
and two dots take back a part. Above the start of a relative path they stay, above the root they
fall away. -/
def addPart (rooted : Bool) (before : List String) (part : String) : List String :=
  if part = "" ∨ part = "." then before
  else if part = ".." then
    match before with
    | [] => if rooted then [] else [".."]
    | ".." :: _ => ".." :: before
    | _ :: rest => rest
  else part :: before

def clean (path : String) : String :=
  let rooted := isRooted path
  let cleaned := String.intercalate "/" ((parts path).foldl (addPart rooted) []).reverse
  if rooted then "/" ++ cleaned else if cleaned.isEmpty then "." else cleaned

/-- The path of a file in a directory, where an empty directory is left out. -/
def join (directory file : String) : String :=
  if directory.isEmpty then clean file else clean (directory ++ "/" ++ file)

end Koy.Path
