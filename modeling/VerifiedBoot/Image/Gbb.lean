/-
The root-of-trust blob of a firmware image, its GBB: a hardware identifier and the root and
recovery keys. The header gives offset and size of each, from the start of the blob, and a blob is
read only if it holds them all.
-/
import VerifiedBoot.Digest.Sha256
import VerifiedBoot.Key.Packed
import VerifiedBoot.Text.Utf8

namespace VerifiedBoot

/-! ## Header -/

/-- A range of offsets. -/
structure OffsetRange where
  start : Nat
  stop : Nat
deriving DecidableEq, Repr

/-- The range of `size` bytes at an offset. -/
def OffsetRange.ofSize (offset size : UInt32) : OffsetRange :=
  ⟨offset.toNat, offset.toNat + size.toNat⟩

/-- The header of a GBB. -/
structure GbbHeader where
  majorVersion : UInt16
  minorVersion : UInt16
  headerSize : UInt32
  flags : UInt32
  hwidOffset : UInt32
  hwidSize : UInt32
  rootKeyOffset : UInt32
  rootKeySize : UInt32
  recoveryKeyOffset : UInt32
  recoveryKeySize : UInt32
deriving DecidableEq, Repr

namespace GbbHeader

def signature : Bytes := Bytes.ofAscii ['$', 'G', 'B', 'B']

def currentMajor : UInt16 := 1

def currentMinor : UInt16 := 2

def byteLength : Nat := 40

def hwidRange (h : GbbHeader) : OffsetRange := .ofSize h.hwidOffset h.hwidSize

def rootKeyRange (h : GbbHeader) : OffsetRange := .ofSize h.rootKeyOffset h.rootKeySize

def recoveryKeyRange (h : GbbHeader) : OffsetRange := .ofSize h.recoveryKeyOffset h.recoveryKeySize

/-- The size of a blob that holds the header and all that it points to. -/
def requiredSize (h : GbbHeader) : Nat :=
  max (max h.headerSize.toNat h.hwidRange.stop) (max h.rootKeyRange.stop h.recoveryKeyRange.stop)

def read : Read GbbHeader := do
  let start ← Read.fixed 4
  Read.require (start = signature) .badMagic
  let majorVersion ← Read.word16
  let minorVersion ← Read.word16
  let headerSize ← Read.word32
  let flags ← Read.word32
  let hwidOffset ← Read.word32
  let hwidSize ← Read.word32
  let rootKeyOffset ← Read.word32
  let rootKeySize ← Read.word32
  let recoveryKeyOffset ← Read.word32
  let recoveryKeySize ← Read.word32
  return { majorVersion, minorVersion, headerSize, flags, hwidOffset, hwidSize,
           rootKeyOffset, rootKeySize, recoveryKeyOffset, recoveryKeySize }

def encode (h : GbbHeader) : Bytes :=
  signature ++ Bytes.le16 h.majorVersion ++ Bytes.le16 h.minorVersion
    ++ Bytes.le32 h.headerSize ++ Bytes.le32 h.flags
    ++ Bytes.le32 h.hwidOffset ++ Bytes.le32 h.hwidSize
    ++ Bytes.le32 h.rootKeyOffset ++ Bytes.le32 h.rootKeySize
    ++ Bytes.le32 h.recoveryKeyOffset ++ Bytes.le32 h.recoveryKeySize

end GbbHeader

/-! ## Blob -/

/-- A blob with its header read. -/
structure Gbb where
  header : GbbHeader
  area : Bytes
deriving DecidableEq

namespace Gbb

/-- Reads a blob that holds all that its header points to. -/
def parse (area : Bytes) : Except CodecError Gbb := do
  let header ← GbbHeader.read.parse area
  if header.majorVersion ≠ GbbHeader.currentMajor then
    throw (.unsupportedVersion header.majorVersion.toUInt32)
  if header.headerSize.toNat < GbbHeader.byteLength then
    throw (.sizeMismatch header.headerSize.toNat GbbHeader.byteLength)
  if area.length < header.requiredSize then
    throw (.outOfBounds header.requiredSize area.length)
  return { header, area }

def part (g : Gbb) (r : OffsetRange) : Bytes := g.area.between r.start r.stop

/-- The hardware identifier, up to its first zero byte. -/
def hwid (g : Gbb) : String := Utf8.decodeLossy (g.part g.header.hwidRange).untilZero

def hwidDigest (g : Gbb) : String := Text.hexBytes (sha256 (Bytes.ofText g.hwid)).bytes

def keyIn (g : Gbb) (r : OffsetRange) : Except CodecError PackedKey :=
  if (g.part r).length < PackedKey.headerSize then .error .truncated else PackedKey.parse (g.part r)

def rootKey (g : Gbb) : Except CodecError PackedKey := g.keyIn g.header.rootKeyRange

def recoveryKey (g : Gbb) : Except CodecError PackedKey := g.keyIn g.header.recoveryKeyRange

/-- The header of a blob whose pieces follow it in order. -/
def headerFor (flags : UInt32) (hwidBytes rootBytes recoveryBytes : Bytes) :
    Except CodecError GbbHeader := do
  let hwidOffset := GbbHeader.byteLength
  let rootOffset := hwidOffset + hwidBytes.length
  let recoveryOffset := rootOffset + rootBytes.length
  return {
    majorVersion := GbbHeader.currentMajor
    minorVersion := GbbHeader.currentMinor
    headerSize := UInt32.ofNat GbbHeader.byteLength
    flags
    hwidOffset := ← toLength .blobOffset hwidOffset
    hwidSize := ← toLength .blobOffset hwidBytes.length
    rootKeyOffset := ← toLength .blobOffset rootOffset
    rootKeySize := ← toLength .blobOffset rootBytes.length
    recoveryKeyOffset := ← toLength .blobOffset recoveryOffset
    recoveryKeySize := ← toLength .blobOffset recoveryBytes.length }

/-- A blob of `size` bytes: header, hardware identifier with a zero byte, and the keys. -/
def build (hwid : String) (flags : UInt32) (rootKey recoveryKey : Option PackedKey) (size : Nat) :
    Except Error Bytes := do
  let hwidBytes := Bytes.ofText hwid ++ [0]
  let rootBytes := rootKey.elim [] PackedKey.toBytes
  let recoveryBytes := recoveryKey.elim [] PackedKey.toBytes
  let total := GbbHeader.byteLength + hwidBytes.length + rootBytes.length + recoveryBytes.length
  if size < total then
    throw (.codec (.areaTooSmall total size))
  let header ← liftCodec (headerFor flags hwidBytes rootBytes recoveryBytes)
  ensureCapacity size
  return Bytes.padTo (header.encode ++ hwidBytes ++ rootBytes ++ recoveryBytes) size 0

end Gbb
end VerifiedBoot
