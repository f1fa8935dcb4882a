/-
Preambles. A preamble follows a keyblock and is signed by its data key. It carries the signature of
a body, the version and flags of that body, and possibly the key for the next stage of the boot.
Reading accepts exactly what writing produces.
-/
import VerifiedBoot.Chain.Signature

namespace VerifiedBoot

/-- The signature and version of a body, signed by the data key. -/
structure Preamble where
  size : UInt32
  headerVersion : UInt32
  version : UInt16
  flags : UInt32
  bodySignature : Signature
  subkey : Option PackedKey
  signature : Signature
deriving DecidableEq, Repr

namespace Preamble

def currentVersion : UInt32 := 1

def headerSize : Nat := 16

/-- The size of a preamble without subkey whose signatures are empty. -/
def minSize : Nat := headerSize + Signature.headerSize + 1 + Signature.headerSize

/-- The encoded size of a subkey after its presence byte. -/
def subkeyLength (subkey : Option PackedKey) : Nat := subkey.elim 0 PackedKey.byteLength

/-- The encoded size of the fields that the signature covers. -/
def signedLength (bodySignature : Signature) (subkey : Option PackedKey) : Nat :=
  headerSize + bodySignature.byteLength + 1 + subkeyLength subkey

def byteLength (p : Preamble) : Nat :=
  signedLength p.bodySignature p.subkey + p.signature.byteLength

/-! ## Writing -/

def encodeSubkey : Option PackedKey → Except CodecError Bytes
  | none => .ok [0]
  | some key => do return 1 :: (← key.encode)

/-- The bytes that the signature covers: all that stands before it. -/
def signedBytes (p : Preamble) : Except CodecError Bytes := do
  let header := Bytes.le32 p.size ++ Bytes.le32 p.headerVersion ++ Bytes.le16 p.version
    ++ Bytes.le16 0 ++ Bytes.le32 p.flags
  return header ++ (← p.bodySignature.encode) ++ (← encodeSubkey p.subkey)

/-- The encoding of a preamble whose declared size is that of its fields. -/
def encode (p : Preamble) : Except CodecError Bytes := do
  if p.size.toNat ≠ p.byteLength then
    throw (.sizeMismatch p.size.toNat p.byteLength)
  return (← p.signedBytes) ++ (← p.signature.encode)

/-! ## Reading -/

def readSize (available : Nat) : Read UInt32 := do
  let size ← Read.word32
  Read.require (size.toNat ≤ available) (.outOfBounds size.toNat available)
  Read.require (minSize ≤ size.toNat) (.sizeMismatch size.toNat minSize)
  return size

def readSubkey : Read (Option PackedKey) := do
  let present ← Read.word8
  if present = 0 then
    return none
  else
    Read.require (present = 1) (.nonCanonical .subkeyPresence)
    return some (← PackedKey.read)

def readFields (size : UInt32) : Read Preamble := do
  let headerVersion ← Read.word32
  Read.require (headerVersion = currentVersion) (.unsupportedVersion headerVersion)
  let version ← Read.word16
  let reserved ← Read.word16
  Read.require (reserved = 0) (.nonCanonical .reservedField)
  let flags ← Read.word32
  let bodySignature ← Signature.read
  let subkey ← readSubkey
  let signature ← Signature.read
  let actual ← Read.position
  Read.require (actual = size.toNat) (.sizeMismatch size.toNat actual)
  return { size, headerVersion, version, flags, bodySignature, subkey, signature }

/-- Reads the preamble at an offset of a trust chain area. What follows it is ignored. -/
def parse (area : Bytes) (offset : Nat) : Except CodecError Preamble := do
  -- the sum of an arbitrary offset may not fit into a machine word
  if sizeBound ≤ offset + minSize then
    throw .truncated
  if area.length < offset + minSize then
    throw (.outOfBounds (offset + minSize) area.length)
  let rest := area.drop offset
  let size ← (readSize rest.length).parse rest
  (readFields size).parseFrom (rest.take size.toNat) 4

/-! ## Signing and checking -/

def create (version : UInt16) (flags : UInt32) (bodySignature : Signature)
    (subkey : Option PackedKey) (signer : SigningKey) : Except Error Preamble := do
  let signedSize := signedLength bodySignature subkey
  let size ← liftCodec (toLength .lengthField
    (← sizeSum [signedSize, Signature.headerSize, signer.signatureSize]))
  let dataSize ← liftCodec (toLength .lengthField signedSize)
  let blank : Preamble :=
    { size, headerVersion := currentVersion, version, flags, bodySignature, subkey,
      signature := Signature.classical signer.algorithm dataSize [] }
  let signed ← liftCodec blank.signedBytes
  let blob ← liftTrust (signer.signSized signed)
  return { blank with signature := Signature.classical signer.algorithm dataSize blob }

def verifySignature (p : Preamble) (dataKey : PackedKey) (primitives : TrustPrimitives) :
    Except TrustError Unit :=
  match p.signedBytes with
  | .ok signed => p.signature.verifyData dataKey signed primitives
  | .error _ => .error .invalidSignature

/-- The number of body bytes that the body signature covers. -/
def bodyLength (p : Preamble) : Nat := p.bodySignature.dataSize.toNat

/-- The rollback version: the key version above the body version, where it has room. -/
def combinedVersion (p : Preamble) (dataKey : PackedKey) : Option UInt32 :=
  if maxKeyVersion < dataKey.version then none
  else some ((dataKey.version <<< 16) ||| p.version.toUInt32)

end Preamble
end VerifiedBoot
