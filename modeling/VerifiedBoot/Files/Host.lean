/-
What the command line needs of its surroundings: files, a place to print to, and randomness for new
keys. A host is any monad with these actions. A workspace is the host that is a value: a store of
files, the text printed so far, and the seed of the next key.
-/
import VerifiedBoot.Files.Store
import VerifiedBoot.Key.Private

namespace VerifiedBoot

/-- Actions that reach outside. -/
class Host (m : Type → Type) where
  readFile : String → m (Except FileError Bytes)
  writeFile : String → Bytes → m (Except FileError Unit)
  /-- Writes a file that only its owner may access. -/
  writeSecretFile : String → Bytes → m (Except FileError Unit)
  /-- Makes the directories above what a path names. -/
  makeParents : String → m (Except FileError Unit)
  print : String → m Unit
  /-- 32 bytes that have not been used before. -/
  freshSeed : m Bytes

abbrev HostAction (m : Type → Type) (α : Type) := ExceptT Error m α

namespace HostAction

variable {m : Type → Type} [Monad m] [Host m] {α : Type}

/-- An access to a file, with an error for the case that it is refused. -/
def access (onRefusal : FileError → Error) (action : m (Except FileError α)) : HostAction m α :=
  ExceptT.mk ((·.mapError onRefusal) <$> action)

def ofResult (result : Except Error α) : HostAction m α := ExceptT.mk (pure result)

def printLine (text : String) : HostAction m Unit := ExceptT.lift (Host.print (text ++ "\n"))

def readInput (path : String) : HostAction m Bytes :=
  access (fun e => .internal (.cannotOpen path e)) (Host.readFile path)

/-- Writes a file, and makes the directories above it. -/
def writeOutput (path : String) (content : Bytes) : HostAction m Unit := do
  access (fun e => .internal (.cannotCreateParents path e)) (Host.makeParents path)
  access (fun e => .internal (.cannotCreate path e)) (Host.writeFile path content)

/-! ## Keys in files -/

/-- Reads a private key from a file that holds it in any form. -/
def readPrivateKey (path : String) : HostAction m PrivateKey := do
  ofResult (PrivateKey.ofAny (← access .fileAccess (Host.readFile path)))

def readPrivateKeyFile (path : String) : HostAction m PrivateKey := do
  ofResult (PrivateKey.ofBytes (← access .fileAccess (Host.readFile path)))

/-- Writes a private key into a key file that only its owner may access. -/
def writePrivateKeyFile (path : String) (key : PrivateKey) : HostAction m Unit :=
  access .fileAccess (Host.writeSecretFile path key.toBytes)

/-- Reads a public key from a file that holds it in any form. -/
def readPublicKey (path : String) : HostAction m PublicKey := do
  ofResult (PublicKey.ofAny (← access .fileAccess (Host.readFile path)))

def readPublicKeyFile (path : String) : HostAction m PublicKey := do
  ofResult (PublicKey.ofBytes (← access .fileAccess (Host.readFile path)))

def writePublicKeyFile (path : String) (key : PublicKey) : HostAction m Unit :=
  access .fileAccess (Host.writeFile path key.toBytes)

end HostAction

/-! ## Workspaces -/

/-- Files, the text printed so far, and the seed of the next key. -/
structure Workspace where
  files : FileStore
  printed : String
  nextSeed : Bytes

namespace Workspace

def modifyFiles (action : FileStore.Action Unit) : StateM Workspace (Except FileError Unit) :=
  fun w =>
    match action w.files with
    | .ok () files => (.ok (), { w with files })
    | .error e files => (.error e, { w with files })

instance : Host (StateM Workspace) where
  readFile path := do return (← get).files.read path
  writeFile path content := modifyFiles (FileStore.attempt (·.write path content))
  writeSecretFile path content := modifyFiles (FileStore.attempt (·.writeSecret path content))
  makeParents path := modifyFiles (FileStore.makeParents path)
  print text := modify fun w => { w with printed := w.printed ++ text }
  freshSeed := fun w =>
    (w.nextSeed, { w with nextSeed := Bytes.ofNatLE 32 (Bytes.toNatLE w.nextSeed + 1) })

end Workspace
end VerifiedBoot
