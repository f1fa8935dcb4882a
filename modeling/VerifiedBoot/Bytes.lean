/-
Byte strings. Images, records, keys and digests are all lists of bytes, and this module holds the
operations that the formats share: the slice at an offset, the overwriting of a part, chunks,
blocks of a fixed size, and little-endian numbers. A slice either lies inside the string or does
not exist, and a part is only ever overwritten by as many bytes as it has.
-/

namespace VerifiedBoot

abbrev Bytes := List UInt8

def word16Bound : Nat := 0x10000

def word32Bound : Nat := 0x100000000

/-- Words of 64 bits lie below this bound, and so do the sizes and offsets of a 64-bit machine. -/
def sizeBound : Nat := 0x10000000000000000

/-- A sum of sizes that stays at the largest size instead of passing it. -/
def saturatingSum (a b : Nat) : Nat := min (a + b) (sizeBound - 1)

/-- A byte string in memory is shorter than this: an allocation has at most half of all addresses. -/
def allocationBound : Nat := 0x8000000000000000

namespace Bytes

/-! ## Parts of a byte string -/

/-- The bytes from offset `start` up to offset `stop`. -/
def between (bs : Bytes) (start stop : Nat) : Bytes := (bs.drop start).take (stop - start)

/-- The `len` bytes at offset `start`, if the string has them all. -/
def slice (bs : Bytes) (start len : Nat) : Option Bytes :=
  if start + len ≤ bs.length then some ((bs.drop start).take len) else none

/-- Writes `new` over the bytes from offset `start` on. -/
def overwrite (bs : Bytes) (start : Nat) (new : Bytes) : Bytes :=
  bs.take start ++ new ++ bs.drop (start + new.length)

/-- The string followed by as many `pad` bytes as it lacks to `size`. -/
def padTo (bs : Bytes) (size : Nat) (pad : UInt8) : Bytes :=
  bs ++ List.replicate (size - bs.length) pad

/-- The first chunks of `n` bytes, at most `count` of them. -/
def chunksUpTo (n : Nat) : Nat → Bytes → List Bytes
  | 0, _ => []
  | _ + 1, [] => []
  | count + 1, b :: bs => (b :: bs).take n :: chunksUpTo n count ((b :: bs).drop n)

/-- The string cut into chunks of `n` bytes, the last of which may be short. -/
def chunks (n : Nat) (bs : Bytes) : List Bytes := chunksUpTo n bs.length bs

def untilZero (bs : Bytes) : Bytes := bs.takeWhile (· != 0)

/-! ## Text as bytes -/

def ofAscii (cs : List Char) : Bytes := cs.map Char.toUInt8

def ofText (s : String) : Bytes := s.toUTF8.data.toList

/-! ## Little-endian numbers -/

/-- The number whose little-endian digits are these bytes. -/
def toNatLE : Bytes → Nat
  | [] => 0
  | b :: bs => b.toNat + 256 * toNatLE bs

/-- The `n` low bytes of a number, the lowest first. -/
def ofNatLE : Nat → Nat → Bytes
  | 0, _ => []
  | n + 1, k => UInt8.ofNat k :: ofNatLE n (k / 256)

def le16 (v : UInt16) : Bytes := ofNatLE 2 v.toNat

def le32 (v : UInt32) : Bytes := ofNatLE 4 v.toNat

def le64 (v : UInt64) : Bytes := ofNatLE 8 v.toNat

theorem length_ofNatLE (n k : Nat) : (ofNatLE n k).length = n := by
  induction n generalizing k with
  | zero => rfl
  | succ n ih => simp [ofNatLE, ih]

theorem toNatLE_ofNatLE (n k : Nat) : toNatLE (ofNatLE n k) = k % Nat.pow 256 n := by
  induction n generalizing k with
  | zero => exact (Nat.mod_one k).symm
  | succ n ih =>
    have low : (UInt8.ofNat k).toNat = k % 256 := by simp
    have digits : Nat.pow 256 (n + 1) = 256 * Nat.pow 256 n := Nat.mul_comm _ _
    rw [ofNatLE, toNatLE, ih, low, digits, Nat.mod_mul]

end Bytes

/-! ## Blocks of a fixed size -/

/-- A byte string of exactly `n` bytes. -/
structure ByteBlock (n : Nat) where
  bytes : Bytes
  length_eq : bytes.length = n
deriving DecidableEq

namespace ByteBlock

def zeros (n : Nat) : ByteBlock n := ⟨List.replicate n 0, by simp⟩

/-- The first `n` bytes of a string, filled up with zero bytes. -/
def ofBytes (n : Nat) (bs : Bytes) : ByteBlock n :=
  ⟨Bytes.padTo (bs.take n) n 0, by
    have := List.length_take_le n bs
    rw [Bytes.padTo, List.length_append, List.length_replicate]
    omega⟩

end ByteBlock

end VerifiedBoot
