/-
Ed25519 signatures. Signing is deterministic. Verification takes a signature whose scalar is below
the group order, and whose point, like the public key, has a canonical encoding and does not have
small order; it then checks the group equation up to a point of small order.
-/
import VerifiedBoot.Digest.Sha512

namespace VerifiedBoot
namespace Ed25519

/-! ## Field -/

def fieldOrder : Nat :=
  0x7fffffffffffffffffffffffffffffffffffffffffffffffffffffffffffffed

/-- The order of the group that the base point generates. -/
def groupOrder : Nat :=
  0x1000000000000000000000000000000014def9dea2f79cd65812631a5cf5d3ed

/-- The coefficient of the curve `y² - x² = 1 + d x² y²`. -/
def curveD : Nat := 37095705934669439343138083508754565189542113879843219016388785533085940283555

def rootOfMinusOne : Nat :=
  19681161376707505956807079304988542015446066515923890162744021073123829784752

def signBit : Nat := 1 <<< 255

def scalarBit : Nat := 1 <<< 254

def fieldAdd (a b : Nat) : Nat := (a + b) % fieldOrder

def fieldSub (a b : Nat) : Nat := (a + (fieldOrder - b)) % fieldOrder

def fieldMul (a b : Nat) : Nat := (a * b) % fieldOrder

/-- The `n` low bits of a number, the lowest first. -/
def bits : Nat → Nat → List Bool
  | 0, _ => []
  | n + 1, k => (k % 2 == 1) :: bits n (k / 2)

/-- The power of `x` whose exponent has these bits. -/
def fieldPow (x exponent : Nat) : Nat :=
  (bits 256 exponent).foldr
    (fun bit acc => if bit then fieldMul x (fieldMul acc acc) else fieldMul acc acc) 1

/-- The inverse of a field element that is not zero. -/
def fieldInverse (x : Nat) : Nat := fieldPow x (fieldOrder - 2)

/-! ## Curve -/

/-- A point with `x / z` and `y / z` as coordinates, and `t = x y / z`. -/
structure Point where
  x : Nat
  y : Nat
  z : Nat
  t : Nat

namespace Point

def zero : Point := ⟨0, 1, 1, 0⟩

def ofAffine (x y : Nat) : Point := ⟨x, y, 1, fieldMul x y⟩

def base : Point :=
  ofAffine 15112221349535400772501151409588531511454012693041857206046113283949847762202
    46316835694926478169428394003475163141307993866256225615783033603165251855960

def add (p q : Point) : Point :=
  let a := fieldMul (fieldSub p.y p.x) (fieldSub q.y q.x)
  let b := fieldMul (fieldAdd p.y p.x) (fieldAdd q.y q.x)
  let c := fieldMul (fieldMul p.t (2 * curveD % fieldOrder)) q.t
  let d := fieldMul (2 * p.z) q.z
  let e := fieldSub b a
  let f := fieldSub d c
  let g := fieldAdd d c
  let h := fieldAdd b a
  ⟨fieldMul e f, fieldMul g h, fieldMul f g, fieldMul e h⟩

def double (p : Point) : Point :=
  let a := fieldMul p.x p.x
  let b := fieldMul p.y p.y
  let c := fieldMul 2 (fieldMul p.z p.z)
  let h := fieldAdd a b
  let s := fieldAdd p.x p.y
  let e := fieldSub h (fieldMul s s)
  let g := fieldSub a b
  let f := fieldAdd c g
  ⟨fieldMul e f, fieldMul g h, fieldMul f g, fieldMul e h⟩

def negate (p : Point) : Point := ⟨fieldSub 0 p.x, p.y, p.z, fieldSub 0 p.t⟩

/-- The sum of `k` copies of a point. -/
def scale (k : Nat) (p : Point) : Point :=
  (bits 256 k).foldr (fun bit acc => if bit then acc.double.add p else acc.double) zero

/-- The sum of `j` copies of `p` and `k` copies of `q`. -/
def scaleSum (j : Nat) (p : Point) (k : Nat) (q : Point) : Point :=
  let both := p.add q
  (List.zip (bits 256 j) (bits 256 k)).foldr (fun pair acc =>
    match pair with
    | (false, false) => acc.double
    | (true, false) => acc.double.add p
    | (false, true) => acc.double.add q
    | (true, true) => acc.double.add both) zero

def isZero (p : Point) : Bool := p.x == 0 && p.y == p.z

/-- Whether eight copies of a point sum up to the neutral one. -/
def hasSmallOrder (p : Point) : Bool := p.double.double.double.isZero

/-- The encoding of a point: `y`, and the lowest bit of `x` as the highest bit. -/
def encode (p : Point) : Bytes :=
  let inverse := fieldInverse p.z
  let x := fieldMul p.x inverse
  let y := fieldMul p.y inverse
  Bytes.ofNatLE 32 (y + (x % 2) * signBit)

/-- The `x` with `v x² = u` that has the wanted lowest bit. -/
def recoverX (y lowBit : Nat) : Option Nat :=
  let square := fieldMul y y
  let u := fieldSub square 1
  let v := fieldAdd (fieldMul curveD square) 1
  let cube := fieldMul v (fieldMul v v)
  let seventh := fieldMul v (fieldMul cube cube)
  let guess := fieldMul (fieldMul u cube) (fieldPow (fieldMul u seventh) ((fieldOrder - 5) / 8))
  let check := fieldMul v (fieldMul guess guess)
  let root :=
    if check = u then some guess
    else if check = fieldSub 0 u then some (fieldMul guess rootOfMinusOne)
    else none
  root.map fun x => if x % 2 = lowBit then x else fieldSub 0 x

/-- The point that a canonical encoding stands for. -/
def decode (bs : Bytes) : Option Point :=
  let number := Bytes.toNatLE bs
  let y := number % signBit
  if y < fieldOrder then (recoverX y (number / signBit)).map (ofAffine · y) else none

end Point

/-! ## Keys and signatures -/

/-- The scalar of a secret key, with the bits set that every such scalar has. -/
def secretScalar (digest : Bytes) : Nat :=
  let number := Bytes.toNatLE (digest.take 32)
  number % scalarBit / 8 * 8 + scalarBit

def publicOfSeed (seed : Bytes) : Bytes :=
  (Point.scale (secretScalar (sha512 seed).bytes) Point.base).encode

def hashScalar (message : Bytes) : Nat := Bytes.toNatLE (sha512 message).bytes % groupOrder

/-- The signature of a message. The public key enters the hash as it is given. -/
def sign (seed publicKey message : Bytes) : Bytes :=
  let digest := (sha512 seed).bytes
  let nonce := hashScalar (digest.drop 32 ++ message)
  let commitment := (Point.scale nonce Point.base).encode
  let challenge := hashScalar (commitment ++ publicKey ++ message)
  commitment ++ Bytes.ofNatLE 32 ((challenge * secretScalar digest + nonce) % groupOrder)

/-- The point of an encoding, unless it has small order. -/
def largePoint? (bs : Bytes) : Option Point := (Point.decode bs).filter (!·.hasSmallOrder)

/-- Whether `signature` is a signature of `message` under a public key. -/
def verify (publicKey message signature : Bytes) : Bool :=
  let scalar := Bytes.toNatLE (signature.drop 32)
  let challenge := hashScalar (signature.take 32 ++ publicKey ++ message)
  decide (scalar < groupOrder) &&
    match largePoint? publicKey, largePoint? (signature.take 32) with
    | some key, some commitment =>
      ((Point.scaleSum scalar Point.base challenge key.negate).add commitment.negate).hasSmallOrder
    | _, _ => false

end Ed25519
end VerifiedBoot
