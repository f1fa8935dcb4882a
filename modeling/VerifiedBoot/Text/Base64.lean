/-
Base64 with padding. Decoding takes exactly what encoding makes, apart from blanks and line ends,
which are ignored wherever they stand.
-/
import VerifiedBoot.Bytes

namespace VerifiedBoot
namespace Base64

def alphabet : List Char :=
  "ABCDEFGHIJKLMNOPQRSTUVWXYZabcdefghijklmnopqrstuvwxyz0123456789+/".toList

def digitChar (n : Nat) : Char := alphabet.getD n '='

def digitValue? (c : Char) : Option Nat :=
  if 'A' ≤ c ∧ c ≤ 'Z' then some (c.toNat - 'A'.toNat)
  else if 'a' ≤ c ∧ c ≤ 'z' then some (c.toNat - 'a'.toNat + 26)
  else if '0' ≤ c ∧ c ≤ '9' then some (c.toNat - '0'.toNat + 52)
  else if c = '+' then some 62
  else if c = '/' then some 63
  else none

/-- Four digits for every three bytes, and a padded group for the rest. -/
def encode : Bytes → List Char
  | [] => []
  | [a] =>
    let n := a.toNat * 16
    [digitChar (n / 64), digitChar (n % 64), '=', '=']
  | [a, b] =>
    let n := (a.toNat * 256 + b.toNat) * 4
    [digitChar (n / 4096), digitChar (n / 64 % 64), digitChar (n % 64), '=']
  | a :: b :: c :: rest =>
    let n := (a.toNat * 256 + b.toNat) * 256 + c.toNat
    digitChar (n / 262144) :: digitChar (n / 4096 % 64) :: digitChar (n / 64 % 64)
      :: digitChar (n % 64) :: encode rest

/-- Decodes groups of four digits; the bits that padding leaves over are zero. -/
def decodeGroups : List Char → Option Bytes
  | [] => some []
  | [a, b, '=', '='] => do
    let n := (← digitValue? a) * 64 + (← digitValue? b)
    if n % 16 = 0 then some [UInt8.ofNat (n / 16)] else none
  | [a, b, c, '='] => do
    let n := ((← digitValue? a) * 64 + (← digitValue? b)) * 64 + (← digitValue? c)
    if n % 4 = 0 then some [UInt8.ofNat (n / 1024), UInt8.ofNat (n / 4)] else none
  | a :: b :: c :: d :: rest => do
    let n := (((← digitValue? a) * 64 + (← digitValue? b)) * 64 + (← digitValue? c)) * 64
      + (← digitValue? d)
    let bytes ← decodeGroups rest
    return UInt8.ofNat (n / 65536) :: UInt8.ofNat (n / 256) :: UInt8.ofNat n :: bytes
  | _ => none

def isIgnored (c : Char) : Bool := c == '\r' || c == '\n' || c == '\t' || c == ' '

def decode (cs : List Char) : Option Bytes := decodeGroups (cs.filter (!isIgnored ·))

end Base64
end VerifiedBoot
