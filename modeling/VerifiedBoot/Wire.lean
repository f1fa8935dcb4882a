/-
Reading and writing the fields of records. A reader is a position in a byte string together with
the bytes from there on. A read takes a field of a known width; where too few bytes are left it
fails, and the reader is then at the end of the string. Only a read of a counted number of bytes
says how many it needed, and it leaves the reader where it was.
-/
import VerifiedBoot.Error

namespace VerifiedBoot

/-! ## Readers -/

/-- A position in a byte string of `size` bytes. -/
structure Reader where
  size : Nat
  position : Nat
  ahead : Bytes
  ahead_length : ahead.length = size - position

namespace Reader

/-- A reader of `bs` at a position, which may lie past the end. -/
def ofBytes (bs : Bytes) (position : Nat) : Reader :=
  ⟨bs.length, position, bs.drop position, by simp⟩

def remaining (r : Reader) : Nat := r.size - r.position

def skip (r : Reader) (n : Nat) : Reader :=
  ⟨r.size, r.position + n, r.ahead.drop n, by rw [List.length_drop, r.ahead_length]; omega⟩

def atEnd (r : Reader) : Reader := ⟨r.size, r.size, [], by simp⟩

end Reader

/-! ## Reading -/

/-- A read moves the reader, whether it yields a value or fails. -/
abbrev Read (α : Type) := EStateM CodecError Reader α

namespace Read

/-- The result of a read, and the reader after it. -/
def start {α : Type} (read : Read α) (r : Reader) : Except CodecError α × Reader :=
  match read r with
  | .ok value r => (.ok value, r)
  | .error e r => (.error e, r)

def parseFrom {α : Type} (read : Read α) (bs : Bytes) (position : Nat) : Except CodecError α :=
  (read.start (Reader.ofBytes bs position)).1

def parse {α : Type} (read : Read α) (bs : Bytes) : Except CodecError α := read.parseFrom bs 0

/-- The next `n` bytes. -/
def fixed (n : Nat) : Read Bytes := fun r =>
  if n ≤ r.remaining then .ok (r.ahead.take n) (r.skip n) else .error .truncated r.atEnd

/-- The next `n` bytes, with the number of bytes in the error. -/
def counted (n : Nat) : Read Bytes := fun r =>
  if n ≤ r.remaining then fixed n r else .error (.outOfBounds n r.remaining) r

def position : Read Nat := fun r => .ok r.position r

/-- Fails unless a condition holds. -/
def require (p : Prop) [Decidable p] (e : CodecError) : Read Unit := fun r =>
  if p then .ok () r else .error e r

def word8 : Read UInt8 := do return UInt8.ofNat (Bytes.toNatLE (← fixed 1))

def word16 : Read UInt16 := do return UInt16.ofNat (Bytes.toNatLE (← fixed 2))

def word32 : Read UInt32 := do return UInt32.ofNat (Bytes.toNatLE (← fixed 4))

def word64 : Read UInt64 := do return UInt64.ofNat (Bytes.toNatLE (← fixed 8))

def block (n : Nat) : Read (ByteBlock n) := do return ByteBlock.ofBytes n (← fixed n)

/-- Bytes after a word of 32 bits that holds their number. -/
def counting : Read Bytes := do counted (← word32).toNat

end Read

/-! ## Writing -/

/-- A length as a word of 32 bits, for an encoding of `part`. -/
def toLength (part : EncodedPart) (n : Nat) : Except CodecError UInt32 :=
  if n < word32Bound then .ok (UInt32.ofNat n) else .error (.nonCanonical part)

def lengthField (n : Nat) : Except CodecError Bytes := do
  return Bytes.le32 (← toLength .lengthField n)

/-- Bytes after a length field that holds their number. -/
def countedField (bs : Bytes) : Except CodecError Bytes := do
  return (← lengthField bs.length) ++ bs

end VerifiedBoot
