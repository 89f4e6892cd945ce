import Koy.Text.Bytes

/-! Access to files by their paths. -/

namespace Koy

inductive FileFault where
  | absent
  | notADirectory
  | isADirectory
  | invalidName
  | nameTooLong
  | denied
  deriving DecidableEq, Repr

namespace FileFault

def message : FileFault → String
  | .absent => "no such file or directory"
  | .notADirectory => "not a directory"
  | .isADirectory => "is a directory"
  | .invalidName => "invalid argument"
  | .nameTooLong => "file name too long"
  | .denied => "permission denied"

end FileFault

structure FileError where
  operation : String
  path : String
  fault : FileFault
  deriving DecidableEq, Repr

namespace FileError

def message (error : FileError) : String :=
  error.operation ++ " " ++ error.path ++ ": " ++ error.fault.message

end FileError

structure Files where
  directory : String
  read : String → Except FileError Bytes
  /-- A path leads to a file, and not to a directory. -/
  isFile : String → Bool

end Koy
