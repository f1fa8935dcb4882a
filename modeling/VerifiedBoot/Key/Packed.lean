/-
Packed public keys, the form in which keyblocks, preambles, key files and images hold a key: its
algorithm, its version and its material. Any material can be packed; whether it makes a key is for
the trust primitives to say.
-/
import VerifiedBoot.Algorithm
import VerifiedBoot.Wire

namespace VerifiedBoot

/-- A public key with its version, as records hold it. -/
structure PackedKey where
  algorithm : UInt32
  version : UInt32
  material : Bytes
deriving DecidableEq, Repr

/-- The largest version of a data key: it is the high half of a 32-bit rollback version. -/
def maxKeyVersion : UInt32 := 0xffff

namespace PackedKey

def headerSize : Nat := 12

def byteLength (k : PackedKey) : Nat := headerSize + k.material.length

def read : Read PackedKey := do
  let algorithm ← Read.word32
  let version ← Read.word32
  let material ← Read.counting
  return { algorithm, version, material }

def encode (k : PackedKey) : Except CodecError Bytes := do
  return Bytes.le32 k.algorithm ++ Bytes.le32 k.version ++ (← countedField k.material)

def parse (bs : Bytes) : Except CodecError PackedKey := read.parse bs

/-- The encoding of a key, or nothing if its material is too long to be encoded. -/
def toBytes (k : PackedKey) : Bytes :=
  match k.encode with
  | .ok bs => bs
  | .error _ => []

end PackedKey
end VerifiedBoot
