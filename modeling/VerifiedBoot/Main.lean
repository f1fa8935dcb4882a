/-
The program. It runs a command line on the files of the system, prints the error that ends it to
the error stream, and exits with its status.
-/
import VerifiedBoot.Command.Run

namespace VerifiedBoot

def FileError.ofSystem : IO.Error → FileError
  | .noFileOrDirectory .. => .notFound
  | .alreadyExists .. => .alreadyExists
  | .permissionDenied .. => .permissionDenied
  | .inappropriateType _ code details =>
    if code = 20 then .notADirectory else if code = 21 then .isADirectory else .other details
  | e => .other (toString e)

/-- An access to a file, with the reason if the system refuses it. -/
def systemAccess {α : Type} (action : IO α) : IO (Except FileError α) :=
  (Except.ok <$> action).tryCatch fun e => pure (.error (.ofSystem e))

def toSystemBytes (content : Bytes) : ByteArray := ⟨content.toArray⟩

instance : Host IO where
  readFile path := systemAccess do return (← IO.FS.readBinFile path).toList
  writeFile path content := systemAccess (IO.FS.writeBinFile path (toSystemBytes content))
  writeSecretFile path content := systemAccess do
    IO.FS.writeBinFile path ByteArray.empty
    IO.setAccessRights path { user := { read := true, write := true } }
    IO.FS.writeBinFile path (toSystemBytes content)
  makeParents path := systemAccess do
    let parent := Path.parent path
    unless parent.isEmpty do
      IO.FS.createDirAll parent
  print text := do (← IO.getStdout).putStr text
  freshSeed := do return (← IO.getRandomBytes 32).toList

end VerifiedBoot

def main (arguments : List String) : IO UInt32 := do
  let outcome ← (VerifiedBoot.CommandLine.run arguments : IO VerifiedBoot.Outcome)
  if let some message := outcome.message? then
    (← IO.getStderr).putStrLn message
  return outcome.status.toUInt32
