/-
The algorithms that keys and signatures name by number. Every number names an algorithm; those
that this library has no use for keep their number.
-/
import VerifiedBoot.Text.Number

namespace VerifiedBoot

inductive Algorithm where
  | ed25519
  | sha256
  | unknown (raw : UInt32)
deriving DecidableEq, Repr

namespace Algorithm

def ofRaw (raw : UInt32) : Algorithm :=
  if raw = 1 then .ed25519 else if raw = 2 then .sha256 else .unknown raw

def raw : Algorithm → UInt32
  | ed25519 => 1
  | sha256 => 2
  | unknown raw => raw

def name : Algorithm → String
  | ed25519 => "ed25519"
  | sha256 => "sha256"
  | unknown raw => "unknown#" ++ Text.decimal raw.toNat

theorem raw_ofRaw (n : UInt32) : (ofRaw n).raw = n := by
  unfold ofRaw
  split
  · next h => exact h.symm
  · split
    · next h => exact h.symm
    · rfl

end Algorithm
end VerifiedBoot
