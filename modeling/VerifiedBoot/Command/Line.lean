/-
The command line. Its options come first, then the name of a command with options of its own. What
is read is a command with typed options; a line that no command allows is not read at all.
-/
import VerifiedBoot.Command.Option
import VerifiedBoot.Image.RwImage
import VerifiedBoot.Profile

namespace VerifiedBoot

/-! ## Commands -/

/-- Options of both signing commands for which a profile can stand in. -/
structure SigningArguments where
  profile : Option String
  dataPrivate : Option String
  keyblock : Option String
  rootPrivate : Option String
  dataPublic : Option String
  keyblockFlags : Option UInt32
  flags : Option UInt32
deriving DecidableEq, Repr

/-- Options for the signing of firmware images. -/
structure FirmwareArguments extends SigningArguments where
  input : String
  output : String
  version : Option UInt16
  kernelSubkey : Option String
  lengthA : Option UInt64
  lengthB : Option UInt64
  integrity : Option IntegrityPolicy
  chainExport : Option ChainExport
deriving DecidableEq, Repr

/-- Options for the signing of kernel images. -/
structure KernelArguments extends SigningArguments where
  input : String
  output : String
  version : Option UInt16
  padding : Option UInt64
  /-- Only the trust chain is written. -/
  chainOnly : Bool
deriving DecidableEq, Repr

/-- What a verification asks of a chain. -/
structure VerifyArguments where
  minVersion : Option UInt32
  bootMode : BootMode
deriving DecidableEq, Repr

/-- What a command line asks for. -/
inductive Command where
  | keygen (privateFile publicFile : String) (version : UInt16)
  | describe (input : String)
  | verify (input : String) (rootKey : Option String) (options : VerifyArguments)
  | sign (options : FirmwareArguments)
  | signKernel (options : KernelArguments)
  | signRw (input output privateFile : String) (signatureSize : Nat) (options : RwSignOptions)
  | verifyRw (input : String) (publicFile : Option String) (signatureSize : Nat)
  | verifyKernel (input publicFile : String) (options : VerifyArguments)

namespace Command

/-! ## Options -/

def globalForms : List OptionForm := [.letterSwitch "verbose" 'v', .letterSwitch "debug" 'd']

def inputForms : List OptionForm := [.valued "input-file" 'i']

def inputOutputForms : List OptionForm := inputForms ++ [.valued "output-file" 'o']

def signingForms : List OptionForm := inputOutputForms ++ [
  .valued "profile" none, .valued "signprivate" 'k', .valued "keyblock" 'b',
  .valued "root-private" none, .valued "data-public" none, .valued "keyblock-flags" none,
  .valued "flags" 'f']

/-- The options of the commands that verify chains. -/
def verifyForms : List OptionForm := inputForms ++ [
  .valued "min-version" none, .switch "developer", .switch "recovery", .switch "minios"]

/-! ## From options to commands -/

/-- The options of both signing commands. A keyblock is reused or signed, not both. -/
def signingArguments? (given : Given) : Option SigningArguments := do
  guard !(given.has "keyblock" && given.has "root-private")
  return {
    profile := given.lookup "profile"
    dataPrivate := given.lookup "signprivate"
    keyblock := given.lookup "keyblock"
    rootPrivate := given.lookup "root-private"
    dataPublic := given.lookup "data-public"
    keyblockFlags := ← given.word32? "keyblock-flags"
    flags := ← given.word32? "flags" }

/-- The integrity policy, if it is given; no result if it is given but none. -/
def integrity? (given : Given) : Option (Option IntegrityPolicy) :=
  match given.lookup "integrity" with
  | none => some none
  | some name => (IntegrityPolicy.ofName? name).map some

/-- Where trust chains are written, which takes both a directory and an id. A directory needs an
id; an id alone says nothing. -/
def chainExport? (given : Given) : Option (Option ChainExport) :=
  match given.lookup "loemdir", given.lookup "loemid" with
  | some directory, some id => some (some { directory, id })
  | some _, none => none
  | none, _ => some none

def verifyArguments? (given : Given) : Option VerifyArguments := do
  return {
    minVersion := ← given.word32? "min-version"
    bootMode := ⟨given.has "developer", given.has "recovery", given.has "minios"⟩ }

/-- The size of the signature space of an image without a flash map. -/
def signatureSize? (given : Given) : Option Nat := do
  return (← given.number? sizeBound "sig-size").getD RwLayout.defaultSignatureSize

/-- A command: its name, its options, and its meaning. -/
structure CommandForm where
  name : String
  forms : List OptionForm
  meaning : Given → Option Command

def commandForms : List CommandForm := [
  { name := "keygen"
    forms := [.valued "secret-key" 'k', .valued "public-key" 'K', .valued "key-version" none]
    meaning := fun given => do
      return .keygen (← given.lookup "secret-key") (← given.lookup "public-key")
        ((← given.word16? "key-version").getD 1) },
  { name := "show"
    forms := inputForms
    meaning := fun given => do return .describe (← given.lookup "input-file") },
  { name := "verify"
    forms := verifyForms ++ [.valued "root-key" none]
    meaning := fun given => do
      return .verify (← given.lookup "input-file") (given.lookup "root-key")
        (← verifyArguments? given) },
  { name := "sign"
    forms := signingForms ++ [
      .valued "fw-version" none, .valued "kernel-subkey" none, .valued "fv-size-a" none,
      .valued "fv-size-b" none, .valued "integrity" none, .valued "loemdir" none,
      .valued "loemid" none]
    meaning := fun given => do
      return .sign {
        toSigningArguments := ← signingArguments? given
        input := ← given.lookup "input-file"
        output := ← given.lookup "output-file"
        version := ← given.word16? "fw-version"
        kernelSubkey := given.lookup "kernel-subkey"
        lengthA := ← given.word64? "fv-size-a"
        lengthB := ← given.word64? "fv-size-b"
        integrity := ← integrity? given
        chainExport := ← chainExport? given } },
  { name := "sign-kernel"
    forms := signingForms ++ [
      .valued "kernel-version" none, .valued "padding" none, .switch "vblock-only"]
    meaning := fun given => do
      return .signKernel {
        toSigningArguments := ← signingArguments? given
        input := ← given.lookup "input-file"
        output := ← given.lookup "output-file"
        version := ← given.word16? "kernel-version"
        padding := ← given.word64? "padding"
        chainOnly := given.has "vblock-only" } },
  { name := "sign-rwsig"
    forms := inputOutputForms ++ [
      .valued "signprivate" 'k', .valued "data-size" none, .valued "sig-size" none,
      .valued "key-version" none]
    meaning := fun given => do
      return .signRw (← given.lookup "input-file") (← given.lookup "output-file")
        (← given.lookup "signprivate") (← signatureSize? given) {
          dataSize := ← given.number? sizeBound "data-size"
          keyVersion := (← given.word32? "key-version").getD 1 } },
  { name := "verify-rwsig"
    forms := inputForms ++ [.valued "signpubkey" 'K', .valued "sig-size" none]
    meaning := fun given => do
      return .verifyRw (← given.lookup "input-file") (given.lookup "signpubkey")
        (← signatureSize? given) },
  { name := "verify-kernel"
    forms := verifyForms ++ [.valued "signpubkey" 'K']
    meaning := fun given => do
      return .verifyKernel (← given.lookup "input-file") (← given.lookup "signpubkey")
        (← verifyArguments? given) }]

/-! ## Reading a command line -/

def parseCommand : List String → Option (Option Command)
  | [] => some none
  | name :: rest => do
    let form ← commandForms.find? (·.name == name)
    let (given, []) ← readOptions form.forms rest none [] | failure
    return some (← form.meaning given)

end Command

/-- A command line: whether details are asked for, and the command, if there is one. -/
structure CommandLine where
  verbose : Bool
  command : Option Command

def CommandLine.parse (arguments : List String) : Option CommandLine := do
  let (given, rest) ← Command.readOptions Command.globalForms arguments none []
  return { verbose := given.has "verbose", command := ← Command.parseCommand rest }

end VerifiedBoot
