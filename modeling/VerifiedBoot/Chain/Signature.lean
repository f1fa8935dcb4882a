/-
Signatures as records hold them. A classical signature covers the first bytes of some data; a
digest is trusted because the record that holds it is signed.
-/
import VerifiedBoot.Trust

namespace VerifiedBoot

/-- What the blob of a signature record is. -/
inductive SignatureKind where
  /-- A signature of as many bytes as the record says. -/
  | classical
  /-- A digest of the integrity metadata that a body carries. -/
  | digest
deriving DecidableEq, Repr

namespace SignatureKind

def ofByte (b : UInt8) : Except CodecError SignatureKind :=
  if b = 0 then .ok .classical
  else if b = 1 then .ok .digest
  else .error (.nonCanonical .signatureKind)

def toByte : SignatureKind → UInt8
  | classical => 0
  | digest => 1

def name : SignatureKind → String
  | classical => "Classical"
  | digest => "Digest"

end SignatureKind

/-- A signature or a digest, and the size of the data it stands for. -/
structure Signature where
  kind : SignatureKind
  algorithm : UInt32
  dataSize : UInt32
  blob : Bytes
deriving DecidableEq, Repr

namespace Signature

def headerSize : Nat := 13

def byteLength (s : Signature) : Nat := headerSize + s.blob.length

def classical (algorithm : Algorithm) (dataSize : UInt32) (blob : Bytes) : Signature :=
  { kind := .classical, algorithm := algorithm.raw, dataSize, blob }

def readKind : Read SignatureKind := do
  match SignatureKind.ofByte (← Read.word8) with
  | .ok kind => return kind
  | .error e => throw e

def read : Read Signature := do
  let kind ← readKind
  let algorithm ← Read.word32
  let dataSize ← Read.word32
  let blob ← Read.counting
  return { kind, algorithm, dataSize, blob }

def encode (s : Signature) : Except CodecError Bytes := do
  return s.kind.toByte
    :: (Bytes.le32 s.algorithm ++ Bytes.le32 s.dataSize ++ (← countedField s.blob))

def parse (bs : Bytes) : Except CodecError Signature := read.parse bs

/-- Checks a classical signature of exactly these data. -/
def verifyData (s : Signature) (key : PackedKey) (data : Bytes) (primitives : TrustPrimitives) :
    Except TrustError Unit :=
  if s.kind ≠ .classical ∨ s.dataSize.toNat ≠ data.length then
    .error .invalidSignature
  else if s.algorithm ≠ key.algorithm then
    .error (.algorithmMismatch key.algorithm s.algorithm)
  else
    primitives.verify key data s.blob

end Signature
end VerifiedBoot
