/-
Trust chains: a keyblock immediately followed by a preamble.
-/
import VerifiedBoot.Chain.Keyblock
import VerifiedBoot.Chain.Preamble

namespace VerifiedBoot

/-- A keyblock and the preamble after it. -/
structure TrustChain where
  keyblock : Keyblock
  preamble : Preamble
deriving DecidableEq

namespace TrustChain

def byteLength (c : TrustChain) : Nat := c.keyblock.byteLength + c.preamble.byteLength

def parse (area : Bytes) : Except CodecError TrustChain := do
  let keyblock ← Keyblock.parse area
  let preamble ← Preamble.parse area keyblock.size.toNat
  return { keyblock, preamble }

/-- The encoding of a chain, if it fits into `capacity` bytes. -/
def encode (c : TrustChain) (capacity : Nat) : Except CodecError Bytes := do
  let bs := (← c.keyblock.encode) ++ (← c.preamble.encode)
  if capacity < bs.length then
    throw (.areaTooSmall bs.length capacity)
  return bs

/-- Writes the chain at the start of an area, if it fits. -/
def writeTo (c : TrustChain) : EStateM CodecError Bytes Unit := do
  let area ← get
  match c.encode area.length with
  | .ok bs => set (area.overwrite 0 bs)
  | .error e => throw e

end TrustChain
end VerifiedBoot
