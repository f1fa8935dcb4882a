/-
Keyblocks. A keyblock carries a data key, the boot modes it may be used in, a checksum of both, and
the signature of a key one level up. Reading accepts exactly what writing produces: the declared
size is the size of the fields, and the checksum is that of the bytes before it.
-/
import VerifiedBoot.Chain.Signature

namespace VerifiedBoot

/-! ## Boot modes -/

/-- The positions of the switches that a device boots with. -/
structure BootMode where
  developer : Bool
  recovery : Bool
  minios : Bool
deriving DecidableEq, Repr

def BootMode.normal : BootMode := ⟨false, false, false⟩

/-- The boot modes a keyblock is valid in. Each switch has a bit for off and a bit for on. -/
structure KeyblockFlags where
  bits : UInt32
deriving DecidableEq, Repr

namespace KeyblockFlags

def known : List (UInt32 × String) :=
  [(0x01, "DEVELOPER_0"), (0x02, "DEVELOPER_1"), (0x04, "RECOVERY_0"), (0x08, "RECOVERY_1"),
   (0x10, "MINIOS_0"), (0x20, "MINIOS_1")]

def all : KeyblockFlags := ⟨0x3f⟩

/-- The bits that a keyblock needs for use in a mode. -/
def requiredFor (mode : BootMode) : KeyblockFlags :=
  ⟨(if mode.developer then 0x02 else 0x01) ||| (if mode.recovery then 0x08 else 0x04)
    ||| (if mode.minios then 0x20 else 0x10)⟩

def contains (flags required : KeyblockFlags) : Bool :=
  flags.bits &&& required.bits == required.bits

end KeyblockFlags

/-! ## Records -/

/-- A data key signed by a key one level up. -/
structure Keyblock where
  headerVersion : UInt32
  size : UInt32
  flags : KeyblockFlags
  dataKey : PackedKey
  checksum : ByteBlock 32
  signature : Signature
deriving DecidableEq

namespace Keyblock

def magic : Bytes := Bytes.ofAscii ['V', 'B', 'K', 'E', 'Y', 'B', 'L', 'K']

def currentVersion : UInt32 := 1

def headerSize : Nat := 20

def checksumSize : Nat := 32

/-- The size of a keyblock whose key and signature are empty. -/
def minSize : Nat := headerSize + PackedKey.headerSize + checksumSize + Signature.headerSize

def byteLength (k : Keyblock) : Nat :=
  headerSize + k.dataKey.byteLength + checksumSize + k.signature.byteLength

/-! ## Writing -/

/-- The bytes that the checksum covers: header and data key. -/
def checkedBytes (k : Keyblock) : Except CodecError Bytes := do
  return magic ++ Bytes.le32 k.headerVersion ++ Bytes.le32 k.size ++ Bytes.le32 k.flags.bits
    ++ (← k.dataKey.encode)

/-- The bytes that the signature covers: header, data key and checksum. -/
def signedBytes (k : Keyblock) : Except CodecError Bytes := do
  return (← k.checkedBytes) ++ k.checksum.bytes

/-- The encoding of a keyblock whose declared size is that of its fields. -/
def encode (k : Keyblock) : Except CodecError Bytes := do
  if k.size.toNat ≠ k.byteLength then
    throw (.sizeMismatch k.size.toNat k.byteLength)
  return (← k.signedBytes) ++ (← k.signature.encode)

/-! ## Reading -/

/-- Reads the header of a keyblock in `available` bytes: its declared size and its flags. -/
def readHeader (available : Nat) : Read (UInt32 × KeyblockFlags) := do
  let start ← Read.fixed 8
  Read.require (start = magic) .badMagic
  let version ← Read.word32
  Read.require (version = currentVersion) (.unsupportedVersion version)
  let size ← Read.word32
  Read.require (size.toNat ≤ available) (.outOfBounds size.toNat available)
  Read.require (minSize ≤ size.toNat) (.sizeMismatch size.toNat minSize)
  let flags ← Read.word32
  return (size, ⟨flags⟩)

/-- Reads the fields after the header of a keyblock that has exactly these bytes. -/
def readFields (record : Bytes) : Read (PackedKey × ByteBlock 32 × Signature) := do
  let dataKey ← PackedKey.read
  let checked ← Read.position
  -- a wrong checksum is told before a malformed signature
  let checksum ← Read.block 32
  Read.require (sha256 (record.take checked) = checksum) .checksumMismatch
  let signature ← Signature.read
  let actual ← Read.position
  Read.require (actual = record.length) (.sizeMismatch record.length actual)
  return (dataKey, checksum, signature)

/-- Reads a keyblock from the start of a byte string. What follows it is ignored. -/
def parse (bs : Bytes) : Except CodecError Keyblock := do
  let (size, flags) ← (readHeader bs.length).parse bs
  let record := bs.take size.toNat
  let (dataKey, checksum, signature) ← (readFields record).parseFrom record headerSize
  return { headerVersion := currentVersion, size, flags, dataKey, checksum, signature }

/-! ## Signing and checking -/

/-- Signs a keyblock for a data key, whose version must fit into a rollback version. -/
def create (dataKey : PackedKey) (flags : KeyblockFlags) (signer : SigningKey) :
    Except Error Keyblock := do
  if maxKeyVersion < dataKey.version then
    throw (.trust (.malformedKey ("key version " ++ Text.hexNumber dataKey.version.toNat
      ++ " exceeds " ++ Text.hexNumber maxKeyVersion.toNat)))
  let signedSize := headerSize + dataKey.byteLength + checksumSize
  -- the signature covers the size, which is therefore fixed by the announced size of the signature
  let size ← liftCodec (toLength .lengthField
    (← sizeSum [signedSize, Signature.headerSize, signer.signatureSize]))
  let dataSize ← liftCodec (toLength .lengthField signedSize)
  let blank : Keyblock :=
    { headerVersion := currentVersion, size, flags, dataKey, checksum := ByteBlock.zeros 32,
      signature := Signature.classical signer.algorithm dataSize [] }
  let checked ← liftCodec blank.checkedBytes
  let checksum := sha256 checked
  let blob ← liftTrust (signer.signSized (checked ++ checksum.bytes))
  return { blank with checksum, signature := Signature.classical signer.algorithm dataSize blob }

def verifySignature (k : Keyblock) (key : PackedKey) (primitives : TrustPrimitives) :
    Except TrustError Unit :=
  match k.signedBytes with
  | .ok signed => k.signature.verifyData key signed primitives
  | .error _ => .error .invalidSignature

def allows (k : Keyblock) (mode : BootMode) : Bool :=
  k.flags.contains (KeyblockFlags.requiredFor mode)

end Keyblock
end VerifiedBoot
