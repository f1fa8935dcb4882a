/-
Kernel images: a mark, the size of the header and of the body, then in the header one trust chain
followed by zeros, and after the header the body that the chain signs.
-/
import VerifiedBoot.Signer
import VerifiedBoot.Verifier

namespace VerifiedBoot

/-- A kernel image with its sizes read. -/
structure KernelImage where
  headerSize : UInt32
  bodySize : UInt32
  bytes : Bytes
deriving DecidableEq, Repr

namespace KernelImage

/-- The bytes that every kernel image starts with. -/
def magic : Bytes := Bytes.ofAscii ['V', 'B', 'K', 'E', 'R', 'N', 'E', 'L']

def leadSize : Nat := 16

def bodyName : String := "kernel body"

def chainName : String := "kernel vblock"

/-! ## Reading -/

/-- Reads the mark of an image, and whether it is that of a kernel. -/
def readLead : Read (Option (UInt32 × UInt32)) := do
  let start ← Read.fixed 8
  if start = magic then
    let headerSize ← Read.word32
    let bodySize ← Read.word32
    return some (headerSize, bodySize)
  else
    return none

/-- Reads a kernel image. What follows the body is ignored. -/
def parse (bytes : Bytes) : Except Error KernelImage := do
  let some (headerSize, bodySize) ← liftCodec (readLead.parse bytes) | throw .unsupportedImage
  if headerSize.toNat < leadSize then
    throw (.codec (.sizeMismatch headerSize.toNat leadSize))
  if bytes.length < headerSize.toNat + bodySize.toNat then
    throw (.codec (.outOfBounds (headerSize.toNat + bodySize.toNat) bytes.length))
  return { headerSize, bodySize, bytes }

def chainArea (k : KernelImage) : Bytes := k.bytes.between leadSize k.headerSize.toNat

def body (k : KernelImage) : Bytes :=
  k.bytes.between k.headerSize.toNat (k.headerSize.toNat + k.bodySize.toNat)

def chain (k : KernelImage) : Except Error TrustChain := liftCodec (TrustChain.parse k.chainArea)

/-- Keyblock and preamble without what follows them. -/
def vblock (k : KernelImage) : Except Error Bytes := do
  return k.chainArea.take (← k.chain).byteLength

def keyblockBytes (k : KernelImage) : Except Error Bytes := do
  return k.chainArea.take (← k.chain).keyblock.byteLength

def layout (k : KernelImage) : SlotLayout where
  ids := [.a]
  bodyName _ := bodyName
  chainName _ := chainName
  bodyArea
    | .a => some ⟨k.headerSize.toNat, k.bodySize.toNat⟩
    | .b => none
  chainArea
    | .a => some ⟨leadSize, k.headerSize.toNat - leadSize⟩
    | .b => none

/-! ## Writing -/

/-- The image of a chain and a body, with a header of the given size. -/
def assemble (chain body : Bytes) (headerSize : Nat) : Except Error Bytes := do
  if headerSize < leadSize + chain.length then
    throw (.codec (.areaTooSmall (leadSize + chain.length) headerSize))
  -- room is made for the image before its sizes are known to have length fields
  ensureCapacity (← sizeSum [headerSize, body.length])
  let headerWord ← liftCodec (toLength .kernelSize headerSize)
  let bodyWord ← liftCodec (toLength .kernelSize body.length)
  return Bytes.padTo (magic ++ Bytes.le32 headerWord ++ Bytes.le32 bodyWord ++ chain) headerSize 0
    ++ body

/-- Signs a body. The header has `padding` bytes, or as few as possible if that is zero. -/
def sign (body : Bytes) (signer : Signer) (padding : Nat) : Except Error Bytes := do
  let chain ← signer.chainFor body none (signer.options.version.getD 1)
    (signer.options.flags.getD 0) (sizeBound - 1)
  assemble chain body (if padding = 0 then leadSize + chain.length else padding)

/-- Signs a kernel image again and keeps the size of its header. -/
def resign (image : Bytes) (signer : Signer) : Except Error Bytes := do
  let kernel ← parse image
  match signer.sign kernel.layout image with
  | .ok _ signed => return signed
  | .error e _ => throw e

/-- The verdict on a kernel image, whose keyblock must be signed by `key`. -/
def verify (image : Bytes) (key : PackedKey) (options : VerifyOptions) : Except Error Verdict := do
  let kernel ← parse image
  return Verifier.judge ⟨options, .software, .raw⟩ key kernel.chainArea kernel.body

end KernelImage
end VerifiedBoot
