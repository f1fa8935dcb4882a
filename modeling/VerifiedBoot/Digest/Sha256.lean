/-
SHA-256, the digest of checksums, indexes and hardware identifiers. A message is padded to whole
blocks, and each block is mixed into a state of eight words by sixty-four rounds. The schedule is
kept as a window of the next sixteen words, so that a round takes one word and adds one.
-/
import VerifiedBoot.Bytes

namespace VerifiedBoot
namespace Sha256

/-! ## Words -/

def rotate (x n : UInt32) : UInt32 := (x >>> n) ||| (x <<< (32 - n))

/-- Mixes the word `a` of the state. -/
def mixA (x : UInt32) : UInt32 := rotate x 2 ^^^ rotate x 13 ^^^ rotate x 22

/-- Mixes the word `e` of the state. -/
def mixE (x : UInt32) : UInt32 := rotate x 6 ^^^ rotate x 11 ^^^ rotate x 25

def spreadLow (x : UInt32) : UInt32 := rotate x 7 ^^^ rotate x 18 ^^^ (x >>> 3)

def spreadHigh (x : UInt32) : UInt32 := rotate x 17 ^^^ rotate x 19 ^^^ (x >>> 10)

/-- The bits of `y` where `x` is set and those of `z` elsewhere. -/
def choose (x y z : UInt32) : UInt32 := (x &&& y) ^^^ ((~~~ x) &&& z)

def majority (x y z : UInt32) : UInt32 := (x &&& y) ^^^ (x &&& z) ^^^ (y &&& z)

def wordsOf : Bytes → List UInt32
  | a :: b :: c :: d :: rest =>
    ((a.toUInt32 <<< 24) ||| (b.toUInt32 <<< 16) ||| (c.toUInt32 <<< 8) ||| d.toUInt32)
      :: wordsOf rest
  | _ => []

def bytesOf (w : UInt32) : Bytes :=
  [(w >>> 24).toUInt8, (w >>> 16).toUInt8, (w >>> 8).toUInt8, w.toUInt8]

/-! ## Rounds -/

def roundConstants : List UInt32 := [
  0x428a2f98, 0x71374491, 0xb5c0fbcf, 0xe9b5dba5, 0x3956c25b, 0x59f111f1,
  0x923f82a4, 0xab1c5ed5, 0xd807aa98, 0x12835b01, 0x243185be, 0x550c7dc3,
  0x72be5d74, 0x80deb1fe, 0x9bdc06a7, 0xc19bf174, 0xe49b69c1, 0xefbe4786,
  0x0fc19dc6, 0x240ca1cc, 0x2de92c6f, 0x4a7484aa, 0x5cb0a9dc, 0x76f988da,
  0x983e5152, 0xa831c66d, 0xb00327c8, 0xbf597fc7, 0xc6e00bf3, 0xd5a79147,
  0x06ca6351, 0x14292967, 0x27b70a85, 0x2e1b2138, 0x4d2c6dfc, 0x53380d13,
  0x650a7354, 0x766a0abb, 0x81c2c92e, 0x92722c85, 0xa2bfe8a1, 0xa81a664b,
  0xc24b8b70, 0xc76c51a3, 0xd192e819, 0xd6990624, 0xf40e3585, 0x106aa070,
  0x19a4c116, 0x1e376c08, 0x2748774c, 0x34b0bcb5, 0x391c0cb3, 0x4ed8aa4a,
  0x5b9cca4f, 0x682e6ff3, 0x748f82ee, 0x78a5636f, 0x84c87814, 0x8cc70208,
  0x90befffa, 0xa4506ceb, 0xbef9a3f7, 0xc67178f2]

/-- The eight words that blocks are mixed into. -/
structure State where
  a : UInt32
  b : UInt32
  c : UInt32
  d : UInt32
  e : UInt32
  f : UInt32
  g : UInt32
  h : UInt32

def State.initial : State :=
  ⟨0x6a09e667, 0xbb67ae85, 0x3c6ef372, 0xa54ff53a,
   0x510e527f, 0x9b05688c, 0x1f83d9ab, 0x5be0cd19⟩

/-- One round with its constant and schedule word. -/
def State.round (s : State) (constant word : UInt32) : State :=
  let t := s.h + mixE s.e + choose s.e s.f s.g + constant + word
  let u := mixA s.a + majority s.a s.b s.c
  ⟨t + u, s.a, s.b, s.c, s.d + t, s.e, s.f, s.g⟩

def State.add (s t : State) : State :=
  ⟨s.a + t.a, s.b + t.b, s.c + t.c, s.d + t.d, s.e + t.e, s.f + t.f, s.g + t.g, s.h + t.h⟩

/-- The schedule word that follows a window of sixteen. -/
def nextWord : List UInt32 → UInt32
  | [w0, w1, _, _, _, _, _, _, _, w9, _, _, _, _, w14, _] =>
    spreadHigh w14 + w9 + spreadLow w1 + w0
  | _ => 0

/-- Runs one round for each constant, over the window of the next schedule words. -/
def runRounds : List UInt32 → List UInt32 → State → State
  | constant :: constants, word :: window, s =>
    runRounds constants (window ++ [nextWord (word :: window)]) (s.round constant word)
  | _, _, s => s

def compress (s : State) (block : Bytes) : State :=
  s.add (runRounds roundConstants (wordsOf block) s)

/-! ## Digest -/

/-- The padding after a message of `size` bytes: a one bit, zeros, and the size in bits. -/
def padding (size : Nat) : Bytes :=
  0x80 :: (List.replicate ((119 - size % 64) % 64) 0 ++ (Bytes.ofNatLE 8 (8 * size)).reverse)

def State.toBlock (s : State) : ByteBlock 32 :=
  ⟨bytesOf s.a ++ bytesOf s.b ++ bytesOf s.c ++ bytesOf s.d ++
    bytesOf s.e ++ bytesOf s.f ++ bytesOf s.g ++ bytesOf s.h, rfl⟩

end Sha256

def sha256 (message : Bytes) : ByteBlock 32 :=
  let padded := message ++ Sha256.padding message.length
  ((Bytes.chunks 64 padded).foldl Sha256.compress Sha256.State.initial).toBlock

end VerifiedBoot
