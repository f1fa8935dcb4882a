/-
The verification of a slot. Checks are made in a fixed order, and the first that fails gives the
verdict: the keyblock is well formed and has its checksum; it is signed by the key one level up; it
allows the boot mode and its data key is usable; the preamble is well formed and signed by the data
key; its version is not too low; and the body is the one it signs. No field is used before the
signature over it has been checked, other than to read the record.
-/
import VerifiedBoot.Chain.TrustChain
import VerifiedBoot.Payload
import VerifiedBoot.Verdict

namespace VerifiedBoot

/-- What the caller asks of a verification. -/
structure VerifyOptions where
  /-- A key to use instead of the one that an image holds. -/
  rootKey : Option PackedKey
  /-- The boot mode that keyblocks must allow. -/
  bootMode : Option BootMode
  /-- The lowest rollback version to accept. -/
  minVersion : Option UInt32
deriving DecidableEq, Repr

def VerifyOptions.none : VerifyOptions := ⟨.none, .none, .none⟩

structure Verifier where
  options : VerifyOptions
  primitives : TrustPrimitives
  payload : PayloadFormat

namespace Verifier

/-- Ends a verification unless a condition holds. -/
def demand (p : Bool) (reason : UntrustedReason) (stage : Stage) :
    Except (UntrustedReason × Stage) Unit :=
  if p then .ok () else .error (reason, stage)

/-- The reason that a keyblock cannot be read. -/
def keyblockFault : CodecError → UntrustedReason
  | .checksumMismatch => .checksumMismatch
  | _ => .keyblockMalformed

/-- Whether a keyblock allows the boot mode that the caller asks for. -/
def modeAllowed (v : Verifier) (keyblock : Keyblock) : Bool :=
  v.options.bootMode.all keyblock.allows

/-- Ends a verification unless a rollback version reaches the minimum that the caller asks for. A
data key without room for its version has no rollback version. -/
def demandVersion (v : Verifier) (version : Option UInt32) :
    Except (UntrustedReason × Stage) Unit :=
  match v.options.minVersion, version with
  | none, _ => .ok ()
  | some _, none => .error (.dataKeyMalformed, .preambleSigVerified)
  | some minimum, some version =>
    demand (minimum ≤ version) .rollbackRejected .preambleSigVerified

/-- Whether a signed range of a body carries the metadata with this digest, and matches them. -/
def metadataValid (v : Verifier) (body : Bytes) (signature : Signature) : Bool :=
  match v.payload.metadataHash body v.primitives with
  | some hash =>
    hash.algorithm.raw == signature.algorithm && hash.digest == signature.blob
      && v.payload.contentMatches body v.primitives
  | .none => false

/-- Whether a signed range of a body is the one that a signature stands for. -/
def bodyValid (v : Verifier) (body : Bytes) (signature : Signature) (dataKey : PackedKey) : Bool :=
  match signature.kind with
  | .classical => (signature.verifyData dataKey body v.primitives).isOk
  | .digest => v.metadataValid body signature

def examine (v : Verifier) (key : PackedKey) (chain body : Bytes) :
    Except (UntrustedReason × Stage) TrustedSlot := do
  let keyblock ← (Keyblock.parse chain).mapError fun e => (keyblockFault e, .start)
  demand (keyblock.verifySignature key v.primitives).isOk
    .keyblockSignatureInvalid .keyblockChecksumOk
  demand (v.modeAllowed keyblock) .keyblockFlagsMismatch .keyblockSigVerified
  let dataKey := keyblock.dataKey
  demand (v.primitives.checkKey dataKey).isOk .dataKeyMalformed .keyblockSigVerified
  demand (dataKey.version ≤ maxKeyVersion) .dataKeyMalformed .keyblockSigVerified
  let preamble ← (Preamble.parse chain keyblock.size.toNat).mapError
    fun _ => (.preambleMalformed, .dataKeyValid)
  demand (preamble.verifySignature dataKey v.primitives).isOk
    .preambleSignatureInvalid .dataKeyValid
  v.demandVersion (preamble.combinedVersion dataKey)
  demand (preamble.bodyLength ≤ body.length) .bodyTooLarge .preambleSigVerified
  demand (v.bodyValid (body.take preamble.bodyLength) preamble.bodySignature dataKey)
    .bodySignatureInvalid .preambleSigVerified
  return {
    version := preamble.version
    flags := preamble.flags
    keyVersion := dataKey.version
    bodyLength := preamble.bodyLength
    keyblockFlags := keyblock.flags
    dataKey
    subkey := preamble.subkey }

/-- The verdict on the chain at the start of an area and on the body that it signs. The keyblock
must be signed by `key`. -/
def judge (v : Verifier) (key : PackedKey) (chain body : Bytes) : Verdict :=
  match v.examine key chain body with
  | .ok slot => .trusted slot
  | .error (reason, stage) => .untrusted reason stage

end Verifier
end VerifiedBoot
