/-
SHA-512, the digest inside Ed25519 signatures. It has the shape of SHA-256 with words of 64 bits,
blocks of 128 bytes and eighty rounds.
-/
import VerifiedBoot.Bytes

namespace VerifiedBoot
namespace Sha512

/-! ## Words -/

def rotate (x n : UInt64) : UInt64 := (x >>> n) ||| (x <<< (64 - n))

/-- Mixes the word `a` of the state. -/
def mixA (x : UInt64) : UInt64 := rotate x 28 ^^^ rotate x 34 ^^^ rotate x 39

/-- Mixes the word `e` of the state. -/
def mixE (x : UInt64) : UInt64 := rotate x 14 ^^^ rotate x 18 ^^^ rotate x 41

def spreadLow (x : UInt64) : UInt64 := rotate x 1 ^^^ rotate x 8 ^^^ (x >>> 7)

def spreadHigh (x : UInt64) : UInt64 := rotate x 19 ^^^ rotate x 61 ^^^ (x >>> 6)

/-- The bits of `y` where `x` is set and those of `z` elsewhere. -/
def choose (x y z : UInt64) : UInt64 := (x &&& y) ^^^ ((~~~ x) &&& z)

def majority (x y z : UInt64) : UInt64 := (x &&& y) ^^^ (x &&& z) ^^^ (y &&& z)

def wordsOf : Bytes → List UInt64
  | a :: b :: c :: d :: e :: f :: g :: h :: rest =>
    ((a.toUInt64 <<< 56) ||| (b.toUInt64 <<< 48) ||| (c.toUInt64 <<< 40) ||| (d.toUInt64 <<< 32)
      ||| (e.toUInt64 <<< 24) ||| (f.toUInt64 <<< 16) ||| (g.toUInt64 <<< 8) ||| h.toUInt64)
      :: wordsOf rest
  | _ => []

def bytesOf (w : UInt64) : Bytes :=
  [(w >>> 56).toUInt8, (w >>> 48).toUInt8, (w >>> 40).toUInt8, (w >>> 32).toUInt8,
   (w >>> 24).toUInt8, (w >>> 16).toUInt8, (w >>> 8).toUInt8, w.toUInt8]

/-! ## Rounds -/

def roundConstants : List UInt64 := [
  0x428a2f98d728ae22, 0x7137449123ef65cd, 0xb5c0fbcfec4d3b2f, 0xe9b5dba58189dbbc,
  0x3956c25bf348b538, 0x59f111f1b605d019, 0x923f82a4af194f9b, 0xab1c5ed5da6d8118,
  0xd807aa98a3030242, 0x12835b0145706fbe, 0x243185be4ee4b28c, 0x550c7dc3d5ffb4e2,
  0x72be5d74f27b896f, 0x80deb1fe3b1696b1, 0x9bdc06a725c71235, 0xc19bf174cf692694,
  0xe49b69c19ef14ad2, 0xefbe4786384f25e3, 0x0fc19dc68b8cd5b5, 0x240ca1cc77ac9c65,
  0x2de92c6f592b0275, 0x4a7484aa6ea6e483, 0x5cb0a9dcbd41fbd4, 0x76f988da831153b5,
  0x983e5152ee66dfab, 0xa831c66d2db43210, 0xb00327c898fb213f, 0xbf597fc7beef0ee4,
  0xc6e00bf33da88fc2, 0xd5a79147930aa725, 0x06ca6351e003826f, 0x142929670a0e6e70,
  0x27b70a8546d22ffc, 0x2e1b21385c26c926, 0x4d2c6dfc5ac42aed, 0x53380d139d95b3df,
  0x650a73548baf63de, 0x766a0abb3c77b2a8, 0x81c2c92e47edaee6, 0x92722c851482353b,
  0xa2bfe8a14cf10364, 0xa81a664bbc423001, 0xc24b8b70d0f89791, 0xc76c51a30654be30,
  0xd192e819d6ef5218, 0xd69906245565a910, 0xf40e35855771202a, 0x106aa07032bbd1b8,
  0x19a4c116b8d2d0c8, 0x1e376c085141ab53, 0x2748774cdf8eeb99, 0x34b0bcb5e19b48a8,
  0x391c0cb3c5c95a63, 0x4ed8aa4ae3418acb, 0x5b9cca4f7763e373, 0x682e6ff3d6b2b8a3,
  0x748f82ee5defb2fc, 0x78a5636f43172f60, 0x84c87814a1f0ab72, 0x8cc702081a6439ec,
  0x90befffa23631e28, 0xa4506cebde82bde9, 0xbef9a3f7b2c67915, 0xc67178f2e372532b,
  0xca273eceea26619c, 0xd186b8c721c0c207, 0xeada7dd6cde0eb1e, 0xf57d4f7fee6ed178,
  0x06f067aa72176fba, 0x0a637dc5a2c898a6, 0x113f9804bef90dae, 0x1b710b35131c471b,
  0x28db77f523047d84, 0x32caab7b40c72493, 0x3c9ebe0a15c9bebc, 0x431d67c49c100d4c,
  0x4cc5d4becb3e42b6, 0x597f299cfc657e2a, 0x5fcb6fab3ad6faec, 0x6c44198c4a475817]

/-- The eight words that blocks are mixed into. -/
structure State where
  a : UInt64
  b : UInt64
  c : UInt64
  d : UInt64
  e : UInt64
  f : UInt64
  g : UInt64
  h : UInt64

def State.initial : State :=
  ⟨0x6a09e667f3bcc908, 0xbb67ae8584caa73b,
   0x3c6ef372fe94f82b, 0xa54ff53a5f1d36f1,
   0x510e527fade682d1, 0x9b05688c2b3e6c1f,
   0x1f83d9abfb41bd6b, 0x5be0cd19137e2179⟩

/-- One round with its constant and schedule word. -/
def State.round (s : State) (constant word : UInt64) : State :=
  let t := s.h + mixE s.e + choose s.e s.f s.g + constant + word
  let u := mixA s.a + majority s.a s.b s.c
  ⟨t + u, s.a, s.b, s.c, s.d + t, s.e, s.f, s.g⟩

def State.add (s t : State) : State :=
  ⟨s.a + t.a, s.b + t.b, s.c + t.c, s.d + t.d, s.e + t.e, s.f + t.f, s.g + t.g, s.h + t.h⟩

/-- The schedule word that follows a window of sixteen. -/
def nextWord : List UInt64 → UInt64
  | [w0, w1, _, _, _, _, _, _, _, w9, _, _, _, _, w14, _] =>
    spreadHigh w14 + w9 + spreadLow w1 + w0
  | _ => 0

/-- Runs one round for each constant, over the window of the next schedule words. -/
def runRounds : List UInt64 → List UInt64 → State → State
  | constant :: constants, word :: window, s =>
    runRounds constants (window ++ [nextWord (word :: window)]) (s.round constant word)
  | _, _, s => s

def compress (s : State) (block : Bytes) : State :=
  s.add (runRounds roundConstants (wordsOf block) s)

/-! ## Digest -/

/-- The padding after a message of `size` bytes: a one bit, zeros, and the size in bits. -/
def padding (size : Nat) : Bytes :=
  0x80 :: (List.replicate ((239 - size % 128) % 128) 0 ++ (Bytes.ofNatLE 16 (8 * size)).reverse)

def State.toBlock (s : State) : ByteBlock 64 :=
  ⟨bytesOf s.a ++ bytesOf s.b ++ bytesOf s.c ++ bytesOf s.d ++
    bytesOf s.e ++ bytesOf s.f ++ bytesOf s.g ++ bytesOf s.h, rfl⟩

end Sha512

def sha512 (message : Bytes) : ByteBlock 64 :=
  let padded := message ++ Sha512.padding message.length
  ((Bytes.chunks 128 padded).foldl Sha512.compress Sha512.State.initial).toBlock

end VerifiedBoot
