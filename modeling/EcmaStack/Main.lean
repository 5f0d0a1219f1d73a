import EcmaStack.Command.Run

/-!
# The command line

The program on the real file system. All decisions are made by `FileSystem.run`; here its
requests are answered.
-/

namespace EcmaStack

/-- Why a request failed. -/
def causeOf : IO.Error → FileCause
  | .noFileOrDirectory .. | .noSuchThing .. => .missing
  | .permissionDenied .. => .denied
  | .inappropriateType _ code details =>
    if code == 20 then .notDirectory else if code == 21 then .isDirectory else .other details
  | e => .other (toString e)

/-- The result of a request. -/
def attempt {α : Type} (action : FileAction) (path : String) (request : IO α) :
    IO (Except FileFault α) := do
  try return .ok (← request)
  catch e => return .error ⟨action, path, causeOf e⟩

/-- The file system the program runs on. -/
def realFiles : FileSystem IO where
  read path := attempt .opening path do return (← IO.FS.readBinFile path).toList
  create path bytes := attempt .opening path (IO.FS.writeBinFile path ⟨bytes.toArray⟩)
  lookup name := IO.getEnv name

end EcmaStack

/-- Run the program. -/
def main (words : List String) : IO UInt32 := do
  let outcome ← EcmaStack.realFiles.run words
  (← IO.getStdout).write ⟨outcome.stdout.toArray⟩
  (← IO.getStderr).putStr outcome.stderr
  return outcome.status.toUInt32
