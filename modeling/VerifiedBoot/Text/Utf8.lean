/-
Reading bytes as UTF-8. A decoder takes one byte after another and keeps the sequence it is in the
middle of, with the range that the next byte must lie in. A byte out of that range ends the
sequence as invalid and is looked at afresh, so that each longest invalid start of a sequence
counts as one fault. Strict reading takes no fault; lossy reading puts U+FFFD for each.
-/
import VerifiedBoot.Bytes

namespace VerifiedBoot
namespace Utf8

/-- An unfinished sequence: the bits so far, the bytes it lacks, and the range of the next one. -/
structure Pending where
  bits : Nat
  missing : Nat
  low : Nat
  high : Nat

/-- The decoder between two bytes; characters and faults stand with the latest first. -/
structure Decoder where
  pending : Option Pending
  decoded : List (Option Char)

namespace Decoder

def empty : Decoder := ⟨none, []⟩

def first (decoded : List (Option Char)) (b : UInt8) : Decoder :=
  let n := b.toNat
  if n < 0x80 then ⟨none, some (Char.ofNat n) :: decoded⟩
  else if n < 0xC2 then ⟨none, none :: decoded⟩
  else if n < 0xE0 then ⟨some ⟨n % 32, 1, 0x80, 0xBF⟩, decoded⟩
  else if n = 0xE0 then ⟨some ⟨n % 16, 2, 0xA0, 0xBF⟩, decoded⟩
  else if n = 0xED then ⟨some ⟨n % 16, 2, 0x80, 0x9F⟩, decoded⟩
  else if n < 0xF0 then ⟨some ⟨n % 16, 2, 0x80, 0xBF⟩, decoded⟩
  else if n = 0xF0 then ⟨some ⟨n % 8, 3, 0x90, 0xBF⟩, decoded⟩
  else if n < 0xF4 then ⟨some ⟨n % 8, 3, 0x80, 0xBF⟩, decoded⟩
  else if n = 0xF4 then ⟨some ⟨n % 8, 3, 0x80, 0x8F⟩, decoded⟩
  else ⟨none, none :: decoded⟩

def step (d : Decoder) (b : UInt8) : Decoder :=
  match d.pending with
  | none => first d.decoded b
  | some p =>
    if p.low ≤ b.toNat ∧ b.toNat ≤ p.high then
      let bits := p.bits * 64 + b.toNat % 64
      if p.missing ≤ 1 then ⟨none, some (Char.ofNat bits) :: d.decoded⟩
      else ⟨some ⟨bits, p.missing - 1, 0x80, 0xBF⟩, d.decoded⟩
    else first (none :: d.decoded) b

/-- The characters and faults in order; an unfinished sequence at the end is a fault. -/
def finish (d : Decoder) : List (Option Char) :=
  (if d.pending.isSome then none :: d.decoded else d.decoded).reverse

end Decoder

/-- The characters of a byte string, and `none` for each fault. -/
def characters (bs : Bytes) : List (Option Char) := (bs.foldl Decoder.step Decoder.empty).finish

/-- The text that bytes encode, with U+FFFD in place of each fault. -/
def decodeLossy (bs : Bytes) : String :=
  String.ofList ((characters bs).map (·.getD (Char.ofNat 0xFFFD)))

/-- The characters that bytes encode, if there is no fault. -/
def decodeChars? (bs : Bytes) : Option (List Char) := (characters bs).mapM id

/-- The text that bytes encode, if there is no fault. -/
def decode? (bs : Bytes) : Option String := (decodeChars? bs).map String.ofList

end Utf8
end VerifiedBoot
