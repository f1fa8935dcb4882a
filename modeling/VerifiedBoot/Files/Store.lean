/-
A store of files, as a value, and the accesses of an ordinary user to it. Directories and files have
names of at most 255 bytes and paths of at most 4095, and accesses are refused in the order in which
a path is followed: a part that is missing, a part that is no directory, and last what the path
itself names. The mode of a file says what its owner may do with it. The root belongs to the system
and takes no new names; every other directory does.
-/
import VerifiedBoot.Error
import VerifiedBoot.Files.Path

namespace VerifiedBoot

/-- What a name can stand for. -/
inductive FileNode where
  | directory
  | file (mode : Nat) (content : Bytes)
deriving DecidableEq

/-- Files and directories under the names on the way from the root. -/
structure FileStore where
  nodes : List (List String × FileNode)
  /-- The directory that relative paths start from. -/
  working : List String

namespace FileStore

/-- The mode of files that only their owner may access. -/
def secretMode : Nat := 0o600

def plainMode : Nat := 0o644

/-- Whether the owner of a file with this mode may read it. -/
def mayRead (mode : Nat) : Bool := mode.testBit 8

/-- Whether the owner of a file with this mode may write it. -/
def mayWrite (mode : Nat) : Bool := mode.testBit 7

/-- A store with nothing but an empty working directory, and the directory above it. -/
def empty : FileStore :=
  { nodes := [(["tmp"], .directory), (["tmp", "work"], .directory)], working := ["tmp", "work"] }

def node? (s : FileStore) (place : List String) : Option FileNode :=
  if place.isEmpty then some .directory else s.nodes.lookup place

def put (s : FileStore) (place : List String) (node : FileNode) : FileStore :=
  { s with nodes := (place, node) :: s.nodes.filter (·.1 != place) }

/-- Puts a node at a place where there is none, in a directory that takes new names. -/
def add (s : FileStore) (place : List String) (node : FileNode) : Except FileError FileStore :=
  if place.dropLast.isEmpty then .error .permissionDenied else .ok (s.put place node)

/-! ## Following paths -/

/-- Fails for names and paths that no file can have. -/
def checkText (path : String) : Except FileError Unit :=
  if path.toList.contains '\x00' then .error .invalidName
  else if path.isEmpty then .error .notFound
  else if 4095 < path.utf8ByteSize then .error .nameTooLong
  else .ok ()

def checkName (name : String) : Except FileError Unit :=
  if 255 < name.utf8ByteSize then .error .nameTooLong else .ok ()

/-- The directory that one part of a path leads to. -/
def enter (s : FileStore) (place : List String) (part : String) :
    Except FileError (List String) := do
  if part = "." then return place
  if part = ".." then return place.dropLast
  checkName part
  match s.node? (place ++ [part]) with
  | some .directory => return place ++ [part]
  | some (.file ..) => throw .notADirectory
  | none => throw .notFound

def follow (s : FileStore) (absolute : Bool) (parts : List String) :
    Except FileError (List String) :=
  parts.foldlM s.enter (if absolute then [] else s.working)

/-- The place that a path names, unless it names a directory by dots or by the root. All parts
before the last must lead somewhere. -/
def locate (s : FileStore) (absolute : Bool) (parts : List String) :
    Except FileError (Option (List String)) := do
  match parts.getLast? with
  | none => return none
  | some last =>
    if last = "." ∨ last = ".." then
      discard (s.follow absolute parts)
      return none
    return some ((← s.follow absolute parts.dropLast) ++ [last])

/-! ## Files -/

def read (s : FileStore) (path : String) : Except FileError Bytes := do
  checkText path
  let some place ← s.locate (Path.isAbsolute path) (Path.parts path) | throw .isADirectory
  checkName (place.getLastD "")
  match s.node? place with
  | none => throw .notFound
  | some .directory => throw .isADirectory
  | some (.file mode content) =>
    if Path.endsWithSlash path then throw .notADirectory
    unless mayRead mode do throw .permissionDenied
    return content

def find? (s : FileStore) (path : String) : Option FileNode := do
  guard (checkText path).isOk
  match s.locate (Path.isAbsolute path) (Path.parts path) with
  | .ok none => some .directory
  | .ok (some place) =>
    match s.node? place with
    | some (.file mode content) =>
      if Path.endsWithSlash path then none else some (.file mode content)
    | node => node
  | .error _ => none

def mode? (s : FileStore) (path : String) : Option Nat :=
  match s.find? path with
  | some (.file mode _) => some mode
  | _ => none

def directorySize : Nat := 4096

def size? (s : FileStore) (path : String) : Option Nat :=
  (s.find? path).map fun
    | .directory => directorySize
    | .file _ content => content.length

/-- Writes a file, and makes it if it is missing. The mode is a function of the mode that the file
has, if it is there. -/
def writeWith (s : FileStore) (mode : Option Nat → Nat) (path : String) (content : Bytes) :
    Except FileError FileStore := do
  checkText path
  let some place ← s.locate (Path.isAbsolute path) (Path.parts path) | throw .isADirectory
  if Path.endsWithSlash path then throw .isADirectory
  checkName (place.getLastD "")
  match s.node? place with
  | none => s.add place (.file (mode none) content)
  | some .directory => throw .isADirectory
  | some (.file old _) =>
    unless mayWrite old do throw .permissionDenied
    return s.put place (.file (mode (some old)) content)

/-- Writes a file. A file that is there keeps its mode. -/
def write (s : FileStore) (path : String) (content : Bytes) : Except FileError FileStore :=
  s.writeWith (·.getD plainMode) path content

def writeSecret (s : FileStore) (path : String) (content : Bytes) : Except FileError FileStore :=
  s.writeWith (fun _ => secretMode) path content

/-! ## Directories -/

def isDirectory (s : FileStore) (absolute : Bool) (parts : List String) : Bool :=
  (s.follow absolute parts).isOk

def makeDirectory (s : FileStore) (absolute : Bool) (parts : List String) :
    Except FileError FileStore := do
  let some place ← s.locate absolute parts | throw .alreadyExists
  checkName (place.getLastD "")
  if (s.node? place).isSome then throw .alreadyExists
  s.add place .directory

/-- Makes a directory, which may be there already. -/
def ensureDirectory (s : FileStore) (absolute : Bool) (parts : List String) :
    Except FileError FileStore :=
  match s.makeDirectory absolute parts with
  | .error .alreadyExists =>
    if s.isDirectory absolute parts then .ok s else .error .alreadyExists
  | result => result

/-- Changes a store. What was changed before the action is refused stays. -/
abbrev Action := EStateM FileError FileStore

/-- Makes one change, unless it is refused. -/
def attempt (change : FileStore → Except FileError FileStore) : Action Unit := fun s =>
  match change s with
  | .ok s => .ok () s
  | .error e => .error e s

/-- Makes the directories that `reversed`, the parts of a path from the last to the first, leads
through, where they are missing. -/
def makeDirectories (absolute : Bool) : (reversed : List String) → Action Unit
  | [] => pure ()
  | part :: above => do
    let make := attempt (·.ensureDirectory absolute (part :: above).reverse)
    tryCatch make fun
      | .notFound => do
        makeDirectories absolute above
        make
      | e => throw e

/-- Makes the directories above what a path names. -/
def makeParents (path : String) : Action Unit := do
  let parent := Path.parent path
  unless parent.isEmpty do
    attempt fun s => (checkText parent).map fun () => s
    makeDirectories (Path.isAbsolute path) ((Path.parts parent).filter (· != ".")).reverse

end FileStore
end VerifiedBoot
