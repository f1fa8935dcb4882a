/-
What can go wrong. Each inductive type lists the causes of one layer: reading and writing records,
trusting keys and signatures, meeting the wishes of the caller, and reaching files. `Error` joins
them, and each has its wording in one function. Apart from these stand the sizes that no machine has
a place for: they are not reported to any caller, the program stops at them.
-/
import VerifiedBoot.Text.Number

namespace VerifiedBoot

open Text

/-! ## Records -/

/-- Parts of an encoding that have one correct form. -/
inductive EncodedPart where
  | lengthField
  | signatureKind
  | reservedField
  | subkeyPresence
  | areaCount
  | blobOffset
  | indexSize
  | contentSize
  | kernelSize
  | bodyLength
  | rwDataSize
  | dataInsideSignature
deriving DecidableEq, Repr

/-- How a part of an encoding is called in messages. -/
def EncodedPart.name : EncodedPart → String
  | lengthField => "length field"
  | signatureKind => "signature kind"
  | reservedField => "preamble reserved field"
  | subkeyPresence => "subkey presence flag"
  | areaCount => "FMAP area count"
  | blobOffset => "GBB offset"
  | indexSize => "index size"
  | contentSize => "content size"
  | kernelSize => "kernel size"
  | bodyLength => "body length"
  | rwDataSize => "RW data size"
  | dataInsideSignature => "EC_RW starts inside SIG_RW"

/-- Malformed or truncated records, and records that do not fit. -/
inductive CodecError where
  | badMagic
  | unsupportedVersion (version : UInt32)
  | checksumMismatch
  | outOfBounds (needed available : Nat)
  | areaTooSmall (needed available : Nat)
  | sizeMismatch (declared actual : Nat)
  | nonCanonical (part : EncodedPart)
  | truncated
deriving DecidableEq, Repr

def CodecError.message : CodecError → String
  | badMagic => "Bad magic"
  | unsupportedVersion version => "Unsupported header version: " ++ decimal version.toNat
  | checksumMismatch => "Header checksum mismatch"
  | outOfBounds needed available =>
    "Structure out of bounds (needs " ++ decimal needed ++ " bytes, " ++ decimal available
      ++ " available)"
  | areaTooSmall needed available =>
    "Destination area too small (needs " ++ decimal needed ++ " bytes, " ++ decimal available
      ++ " available)"
  | sizeMismatch declared actual =>
    "Declared size " ++ decimal declared ++ " does not match encoded size " ++ decimal actual
  | nonCanonical part => "Non-canonical encoding of " ++ part.name
  | truncated => "Truncated data"

/-! ## Trust -/

/-- Key material and key texts that the signature scheme does not take. -/
inductive SchemeError where
  | invalidPublicKey
  | invalidSecretKey
  | invalidSeed
  | unreadable
deriving DecidableEq, Repr

/-- Keys and signatures that are not valid. -/
inductive TrustError where
  | invalidSignature
  | malformedKey (detail : String)
  | unsupportedAlgorithm (algorithm : UInt32)
  | algorithmMismatch (key signature : UInt32)
  | signingFailed (detail : String)
  | scheme (cause : SchemeError)
deriving DecidableEq, Repr

def TrustError.message : TrustError → String
  | invalidSignature => "Invalid signature"
  | malformedKey detail => "Malformed key: " ++ detail
  | unsupportedAlgorithm algorithm => "Unsupported algorithm: " ++ decimal algorithm.toNat
  | algorithmMismatch key signature =>
    "Algorithm mismatch between key (" ++ decimal key.toNat ++ ") and signature ("
      ++ decimal signature.toNat ++ ")"
  | signingFailed detail => "Signing failed: " ++ detail
  | scheme _ => "Ed25519 signature function error"

/-! ## Wishes of the caller -/

/-- Wishes of the caller that the input does not meet. -/
inductive PolicyError where
  | invalidReusedChain (cause : CodecError)
  | missingMetadata (area : String)
  | metadataMismatch (area : String)
  | missingArea (area : String)
  | bodySizeExceedsArea (area : String) (requested available : Nat)
  | keyMismatch
deriving DecidableEq, Repr

def PolicyError.message : PolicyError → String
  | invalidReusedChain cause => "Reused trust chain is invalid: " ++ cause.message
  | missingMetadata area =>
    "Integrity metadata not found in area " ++ area ++ ", it is required for this image"
  | metadataMismatch area => "Content of area " ++ area ++ " does not match its integrity metadata"
  | missingArea area => area ++ " area not found"
  | bodySizeExceedsArea area requested available =>
    area ++ " size is incorrect (" ++ hexNumber requested ++ " > " ++ hexNumber available ++ ")"
  | keyMismatch => "Signing key does not match the keyblock data key"

/-! ## Files -/

/-- Ways in which the file system refuses an access. -/
inductive FileError where
  | notFound
  | alreadyExists
  | notADirectory
  | isADirectory
  | permissionDenied
  | nameTooLong
  | invalidName
  /-- Any other reason, in the words of the system. -/
  | other (text : String)
deriving DecidableEq, Repr

/-- The wording of the system for a refused access. -/
def FileError.message : FileError → String
  | notFound => "No such file or directory (os error 2)"
  | alreadyExists => "File exists (os error 17)"
  | notADirectory => "Not a directory (os error 20)"
  | isADirectory => "Is a directory (os error 21)"
  | permissionDenied => "Permission denied (os error 13)"
  | nameTooLong => "File name too long (os error 36)"
  | invalidName => "file name contained an unexpected NUL byte"
  | other text => text

/-! ## All errors -/

/-- Faults in the use of the command line that only its meaning shows. -/
inductive UsageFault where
  | noSubcommand
  | missingPrivateKey
  | missingKeyblockSource
deriving DecidableEq, Repr

def UsageFault.message : UsageFault → String
  | noSubcommand => "No subcommand specified"
  | missingPrivateKey => "Missing data private key (--signprivate)"
  | missingKeyblockSource => "Either --keyblock or --root-private is required"

/-- Faults that no input is to blame for: parts of an image that are not where they were found, and
files of the command line that cannot be reached. -/
inductive InternalFault where
  | slotBodyOutOfRange
  | chainAreaOutOfRange
  | dataAreaOutOfRange
  | signatureAreaOutOfRange
  | keyAreaOutOfRange
  | cannotOpen (path : String) (cause : FileError)
  | cannotCreate (path : String) (cause : FileError)
  | cannotCreateParents (path : String) (cause : FileError)
deriving DecidableEq, Repr

def InternalFault.message : InternalFault → String
  | slotBodyOutOfRange => "slot body out of range"
  | chainAreaOutOfRange => "trust chain area out of range"
  | dataAreaOutOfRange => "RW area out of range"
  | signatureAreaOutOfRange => "RW signature area out of range"
  | keyAreaOutOfRange => "RO key area out of range"
  | cannotOpen path cause => "Failed to open file '" ++ path ++ "': " ++ cause.message
  | cannotCreate path cause => "Failed to create file '" ++ path ++ "': " ++ cause.message
  | cannotCreateParents path cause =>
    "Failed to create parent directory for '" ++ path ++ "': " ++ cause.message

/-- Sizes that the machine has no place for. -/
inductive SizeFault where
  /-- A sum of sizes that passes a machine word. -/
  | sum
  /-- A buffer of more bytes than any allocation has. -/
  | capacity
deriving DecidableEq, Repr

def SizeFault.message : SizeFault → String
  | sum => "attempt to add with overflow"
  | capacity => "capacity overflow"

/-- Any error of the library and of its command line, or the end of the program at a size. -/
inductive Error where
  | codec (cause : CodecError)
  | trust (cause : TrustError)
  | policy (cause : PolicyError)
  | inArea (area : String) (cause : Error)
  | fileAccess (cause : FileError)
  | unreadable
  | unsupportedKeyType
  | unsupportedImage
  | verificationFailed
  | usage (fault : UsageFault)
  | profile
  | internal (fault : InternalFault)
  /-- The program stops: this is no result, and no caller handles it. -/
  | stopped (fault : SizeFault)
deriving DecidableEq, Repr

def Error.message : Error → String
  | codec cause => "Codec error: " ++ cause.message
  | trust cause => "Trust error: " ++ cause.message
  | policy cause => "Policy error: " ++ cause.message
  | inArea area cause => area ++ ": " ++ cause.message
  | fileAccess _ => "I/O error"
  | unreadable => "Parse error"
  | unsupportedKeyType => "Unsupported key type"
  | unsupportedImage => "Unsupported image type"
  | verificationFailed => "Verification failed"
  | usage fault => "Usage error: " ++ fault.message
  | profile => "Profile error"
  | internal fault => "Internal error: [" ++ fault.message ++ "]"
  | stopped fault => fault.message

/-- An error with the name of the area that it is about. Nothing is added where the program stops. -/
def Error.withArea (area : String) : Error → Error
  | stopped fault => .stopped fault
  | cause => .inArea area cause

def liftCodec {α : Type} (r : Except CodecError α) : Except Error α := r.mapError .codec

def liftTrust {α : Type} (r : Except TrustError α) : Except Error α := r.mapError .trust

/-! ## Sizes of new byte strings -/

/-- A sum of sizes. The program stops at a sum that passes a machine word. -/
def sizeSum (sizes : List Nat) : Except Error Nat :=
  let whole := sizes.foldr (· + ·) 0
  if whole < sizeBound then .ok whole else .error (.stopped .sum)

/-- Makes room for `n` bytes. The program stops if no byte string in memory has so many. -/
def ensureCapacity (n : Nat) : Except Error Unit :=
  if n < allocationBound then .ok () else .error (.stopped .capacity)

end VerifiedBoot
