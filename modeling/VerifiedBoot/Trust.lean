/-
What trust rests on. Digests, the checking of keys and of signatures, and the making of signatures
are given as records of functions, so that the records, the verifier and the signer depend on no
scheme. The software primitives are Ed25519 and SHA-256.
-/
import VerifiedBoot.Digest.Sha256
import VerifiedBoot.Ed25519
import VerifiedBoot.Key.Packed

namespace VerifiedBoot

/-! ## Interfaces -/

/-- Digests, and the checking of keys and signatures. -/
structure TrustPrimitives where
  digest : Algorithm → Bytes → Except TrustError Bytes
  /-- Whether a packed key holds a usable key. -/
  checkKey : PackedKey → Except TrustError Unit
  /-- Whether a signature of some data was made with the private half of a key. -/
  verify : PackedKey → Bytes → Bytes → Except TrustError Unit

/-- A private key, wherever it may be kept. -/
structure SigningKey where
  algorithm : Algorithm
  /-- The size of every signature, known before anything is signed. -/
  signatureSize : Nat
  /-- The material of the matching public key. -/
  publicMaterial : Bytes
  sign : Bytes → Except TrustError Bytes

/-- Signs with a check that the signature has the size announced for it. -/
def SigningKey.signSized (key : SigningKey) (data : Bytes) : Except TrustError Bytes := do
  let blob ← key.sign data
  if blob.length = key.signatureSize then
    return blob
  else
    throw (.signingFailed ("expected a " ++ Text.decimal key.signatureSize
      ++ " byte signature, got " ++ Text.decimal blob.length))

/-! ## Software primitives -/

namespace Software

def publicKeySize : Nat := 32

def signatureSize : Nat := 64

/-- SHA-256 is the only digest. -/
def digest : Algorithm → Bytes → Except TrustError Bytes
  | .sha256, data => .ok (sha256 data).bytes
  | algorithm, _ => .error (.unsupportedAlgorithm algorithm.raw)

/-- A usable key is an Ed25519 key of the right size. -/
def checkKey (key : PackedKey) : Except TrustError Unit :=
  if Algorithm.ofRaw key.algorithm ≠ .ed25519 then
    .error (.unsupportedAlgorithm key.algorithm)
  else if key.material.length ≠ publicKeySize then
    .error (.malformedKey ("expected " ++ Text.decimal publicKeySize
      ++ " bytes of key material, found " ++ Text.decimal key.material.length))
  else
    .ok ()

/-- A signature has the right size and satisfies the scheme. -/
def verify (key : PackedKey) (data signature : Bytes) : Except TrustError Unit := do
  checkKey key
  if signature.length = signatureSize ∧ Ed25519.verify key.material data signature = true then
    return ()
  else
    throw .invalidSignature

end Software

def TrustPrimitives.software : TrustPrimitives where
  digest := Software.digest
  checkKey := Software.checkKey
  verify := Software.verify

end VerifiedBoot
