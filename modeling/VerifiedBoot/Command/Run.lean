/-
Running commands. A command reads its files, does its work, prints what it has done and writes what
it has made. It ends with the first error; what was printed and written before stays. On a signing
command every option takes precedence over the profile.
-/
import VerifiedBoot.Command.Line
import VerifiedBoot.Command.Listing
import VerifiedBoot.Files.Host

namespace VerifiedBoot

open Text

/-! ## Options before profiles -/

/-- The key files to use. The source of the keyblock is taken from one place: if the command line
names one, the profile is not asked. -/
def SigningArguments.applyTo (a : SigningArguments) (keys : KeyPaths) : KeyPaths :=
  { keys with
    dataPrivate := a.dataPrivate <|> keys.dataPrivate
    dataPublic := a.dataPublic <|> keys.dataPublic
    keyblock :=
      if a.keyblock.isSome then a.keyblock
      else if a.rootPrivate.isSome then none
      else keys.keyblock
    rootPrivate := if a.keyblock.isSome then none else a.rootPrivate <|> keys.rootPrivate }

def FirmwareArguments.applyTo (a : FirmwareArguments) (p : Profile) : Profile :=
  let keys := a.toSigningArguments.applyTo p.keys
  { p with
    keys := { keys with kernelSubkey := a.kernelSubkey <|> keys.kernelSubkey }
    firmware := {
      version := a.version <|> p.firmware.version
      flags := a.flags <|> p.firmware.flags
      keyblockFlags := a.keyblockFlags <|> p.firmware.keyblockFlags
      integrity := a.integrity.getD p.firmware.integrity
      lengthA := a.lengthA <|> p.firmware.lengthA
      lengthB := a.lengthB <|> p.firmware.lengthB }
    chainExport := a.chainExport <|> p.chainExport }

def KernelArguments.applyTo (a : KernelArguments) (p : Profile) : Profile :=
  { p with
    keys := a.toSigningArguments.applyTo p.keys
    kernel := {
      version := a.version <|> p.kernel.version
      flags := a.flags <|> p.kernel.flags
      keyblockFlags := a.keyblockFlags <|> p.kernel.keyblockFlags
      padding := a.padding <|> p.kernel.padding } }

/-- What a verification asks for. If no switch is given, any boot mode will do. -/
def VerifyArguments.options (a : VerifyArguments) (rootKey : Option PackedKey) : VerifyOptions where
  rootKey
  bootMode := if a.bootMode = .normal then none else some a.bootMode
  minVersion := a.minVersion

/-! ## Loaded keys -/

/-- The contents of the key files of a profile. -/
structure SigningKeys where
  dataKey : PrivateKey
  keyblock : Option Bytes
  rootKey : Option PrivateKey
  dataPublic : Option PackedKey
  kernelSubkey : Option PackedKey

/-- Where the keyblock comes from. A keyblock to reuse comes before a key to sign a new one. A new
one is for the data public key, or else for that of the data private key. -/
def SigningKeys.source (keys : SigningKeys) (flags : KeyblockFlags) : Except Error ChainSource :=
  match keys.keyblock, keys.rootKey with
  | some bytes, _ => .ok (.reuse bytes)
  | none, some root =>
    .ok (.fresh root.toSigningKey (keys.dataPublic.getD (keys.dataKey.publicKey 1).toPacked) flags)
  | none, none => .error (.usage .missingKeyblockSource)

def SigningKeys.signer (keys : SigningKeys) (flags : KeyblockFlags) (options : SignOptions)
    (payload : PayloadFormat) : Except Error Signer := do
  Signer.make (← keys.source flags) keys.dataKey.toSigningKey options .software payload

namespace Command

open HostAction

variable {m : Type → Type} [Monad m] [Host m]

/-- The profile in a file, or an empty one. -/
def loadProfile (path : Option String) : HostAction m Profile := do
  match path with
  | none => return .none
  | some path => ofResult (Profile.parseBytes (← access (fun _ => .profile) (Host.readFile path)))

def loadPackedKey (path : String) : HostAction m PackedKey := do
  return (← readPublicKey path).toPacked

def loadKeys (paths : KeyPaths) : HostAction m SigningKeys := do
  let some dataPrivate := paths.dataPrivate | throw (.usage .missingPrivateKey)
  return {
    dataKey := ← readPrivateKey dataPrivate
    keyblock := ← paths.keyblock.mapM readInput
    rootKey := ← paths.rootPrivate.mapM readPrivateKey
    dataPublic := ← paths.dataPublic.mapM loadPackedKey
    kernelSubkey := ← paths.kernelSubkey.mapM loadPackedKey }

def keygenAction (privateFile publicFile : String) (version : UInt16) : HostAction m Unit := do
  let key := PrivateKey.ofSeed (← ExceptT.lift Host.freshSeed)
  writePrivateKeyFile privateFile key
  printLine ("Secret key saved to [" ++ privateFile ++ "]")
  writePublicKeyFile publicFile (key.publicKey version.toUInt32)
  printLine ("Public key saved to [" ++ publicFile ++ "]")

def describeAction (input : String) (verbose : Bool) : HostAction m Unit := do
  let listing := describeBytes (← readInput input) verbose
  listing.lines.forM printLine
  if let some e := listing.fault then
    throw e

def printVerdict (name : String) (verdict : Verdict) : HostAction m Unit :=
  printLine (name ++ ": " ++ if verdict.isMissing then "not present" else verdict.text)

def verifyAction (input : String) (rootKey : Option String) (options : VerifyArguments) :
    HostAction m Unit := do
  let rootKey ← rootKey.mapM loadPackedKey
  let image ← ofResult (FirmwareImage.parse (← readInput input))
  let report := image.verify (options.options rootKey) .indexed
  if let some gbb := report.gbb then
    printLine ("HWID: " ++ gbb.hwid)
  SlotId.all.forM fun id => printVerdict (FirmwareComponent.vblock id).name (report.verdict id)
  unless report.isSuccess do
    throw .verificationFailed
  printLine "Firmware image is valid."

def signedSlotLine (slot : SignedSlot) : String :=
  slot.id.name ++ ": version " ++ decimal slot.version.toNat ++ ", flags "
    ++ hexNumber slot.flags.toNat ++ ", " ++ hexNumber slot.bodyLength ++ " body bytes"
    ++ if slot.digestSigned then " (metadata digest)" else ""

/-- Writes the trust chains of the slots into files of their own. -/
def exportChains (target : ChainExport) (vblocks : List (SlotId × Bytes)) : HostAction m Unit :=
  vblocks.forM fun (id, vblock) => do
    writeOutput (target.path id) vblock
    printLine (id.name ++ " trust chain saved to [" ++ target.path id ++ "]")

def signAction (a : FirmwareArguments) : HostAction m Unit := do
  let profile := a.applyTo (← loadProfile a.profile)
  let keys ← loadKeys profile.keys
  let options := { profile.firmware.signOptions with subkey := keys.kernelSubkey }
  let signer ← ofResult
    (keys.signer (keyblockFlagsOf profile.firmware.keyblockFlags) options .indexed)
  match FirmwareImage.sign signer (← readInput a.input) with
  | .error e _ => throw e
  | .ok report image =>
    report.slots.forM fun slot => printLine (signedSlotLine slot)
    writeOutput a.output image
    printLine ("Signed image saved to [" ++ a.output ++ "]")
    if let some target := profile.chainExport then
      exportChains target report.vblocks

/-- A kernel image signed again, or a new image of a body. -/
def signedKernel (input : Bytes) (signer : Signer) (padding : Nat) : Except Error Bytes :=
  if KernelImage.magic.isPrefixOf input then KernelImage.resign input signer
  else KernelImage.sign input signer padding

def signKernelAction (a : KernelArguments) : HostAction m Unit := do
  let profile := a.applyTo (← loadProfile a.profile)
  let keys ← loadKeys profile.keys
  let signer ← ofResult
    (keys.signer (keyblockFlagsOf profile.kernel.keyblockFlags) profile.kernel.signOptions .raw)
  let padding := (profile.kernel.padding.map (·.toNat)).getD 0
  let image ← ofResult (signedKernel (← readInput a.input) signer padding)
  if a.chainOnly then
    writeOutput a.output (← ofResult do (← KernelImage.parse image).vblock)
    printLine ("Kernel trust chain saved to [" ++ a.output ++ "]")
  else
    writeOutput a.output image
    printLine ("Signed kernel saved to [" ++ a.output ++ "]")

def verifyKernelAction (input publicFile : String) (options : VerifyArguments) :
    HostAction m Unit := do
  let key ← loadPackedKey publicFile
  let verdict ← ofResult (KernelImage.verify (← readInput input) key (options.options none))
  printVerdict "kernel" verdict
  unless verdict.isTrusted do
    throw .verificationFailed
  printLine "Kernel image is valid."

def signRwAction (input output privateFile : String) (signatureSize : Nat)
    (options : RwSignOptions) : HostAction m Unit := do
  let key ← readPrivateKey privateFile
  match RwImage.sign key.toSigningKey signatureSize options (← readInput input) with
  | .error e _ => throw e
  | .ok report image =>
    writeOutput output image
    printLine ("Signed " ++ hexNumber report.dataSize ++ " RW bytes"
      ++ (if report.keyWritten then " and stored the RO key" else "") ++ ", saved to [" ++ output
      ++ "]")

def verifyRwAction (input : String) (publicFile : Option String) (signatureSize : Nat) :
    HostAction m Unit := do
  let key ← publicFile.mapM loadPackedKey
  let image ← ofResult (RwImage.parse (← readInput input) signatureSize)
  let verdict := image.verify key .software
  printLine ("RW image: " ++ verdict.text)
  unless verdict.isTrusted do
    throw .verificationFailed
  printLine "Signature verification succeeded."

def run (verbose : Bool) : Command → HostAction m Unit
  | keygen privateFile publicFile version => keygenAction privateFile publicFile version
  | describe input => describeAction input verbose
  | verify input rootKey options => verifyAction input rootKey options
  | sign options => signAction options
  | signKernel options => signKernelAction options
  | signRw input output privateFile size options =>
    signRwAction input output privateFile size options
  | verifyRw input publicFile size => verifyRwAction input publicFile size
  | verifyKernel input publicFile options => verifyKernelAction input publicFile options

end Command

/-! ## Whole command lines -/

/-- How the run of a command line ends. -/
inductive Outcome where
  | done
  | failed (cause : Error)
  | stopped (fault : SizeFault)
  /-- The arguments are not those of any command. -/
  | unreadableArguments

def Outcome.status : Outcome → Nat
  | done => 0
  | failed _ => 1
  | stopped _ => 101
  | unreadableArguments => 2

def Outcome.message? : Outcome → Option String
  | failed cause => some cause.message
  | stopped fault => some fault.message
  | _ => none

def CommandLine.run {m : Type → Type} [Monad m] [Host m] (arguments : List String) :
    m Outcome := do
  match parse arguments with
  | none => return .unreadableArguments
  | some line =>
    let action : HostAction m Unit :=
      match line.command with
      | some command => command.run line.verbose
      | none => throw (.usage .noSubcommand)
    match ← action.run with
    | .ok () => return .done
    | .error (.stopped fault) => return .stopped fault
    | .error cause => return .failed cause

end VerifiedBoot
