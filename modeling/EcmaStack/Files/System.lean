/-!
# File systems

What the program asks of its surroundings: the bytes of a file, a file with given bytes, the
value of a variable. The requests are made in any monad, so the same program runs on a real file
system and on one that is a value.
-/

namespace EcmaStack

/-- What was being done when a request failed. -/
inductive FileAction where
  | opening
  | reading
  deriving DecidableEq

/-- The word for an action. -/
def FileAction.word : FileAction → String
  | .opening => "open"
  | .reading => "read"

/-- Why a request failed. -/
inductive FileCause where
  | missing
  | isDirectory
  | notDirectory
  | denied
  | nameTooLong
  | invalid
  | other (reason : String)
  deriving DecidableEq

/-- The wording of a cause. -/
def FileCause.message : FileCause → String
  | .missing => "no such file or directory"
  | .isDirectory => "is a directory"
  | .notDirectory => "not a directory"
  | .denied => "permission denied"
  | .nameTooLong => "file name too long"
  | .invalid => "invalid argument"
  | .other reason => reason

/-- A request that failed. -/
structure FileFault where
  action : FileAction
  path : String
  cause : FileCause
  deriving DecidableEq

/-- The wording of a fault. -/
def FileFault.message (f : FileFault) : String :=
  f.action.word ++ " " ++ f.path ++ ": " ++ f.cause.message

/-- A file system with the variables around it. -/
structure FileSystem (m : Type → Type) where
  /-- The bytes of a file. -/
  read : String → m (Except FileFault (List UInt8))
  /-- Make a file with the given bytes, in place of what it held. -/
  create : String → List UInt8 → m (Except FileFault Unit)
  /-- The value of a variable. -/
  lookup : String → m (Option String)

end EcmaStack
