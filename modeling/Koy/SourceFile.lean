import Koy.Files
import Koy.Session

/-! Programs in files. -/

namespace Koy

/-- The program text of a file: of a first line that starts with a number sign and an exclamation
mark only its end is kept, so that lines keep their numbers. -/
def programText (content : Bytes) : Bytes :=
  match content with
  | 35 :: 33 :: _ => content.dropWhile (· ≠ 10)
  | _ => content

namespace Session

def runFile (session : Session) (files : Files) (path : String) :
    Except Failure Value × Session :=
  match files.read path with
  | .error error => (.error (.other error.message), session)
  | .ok content =>
    session.runSource (if path.isEmpty then unnamedSource else path) (programText content)

end Session

end Koy
