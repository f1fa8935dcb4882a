/-
Numbers and bytes as text: numerals written and read, hexadecimal bytes, and padding to a column.
-/
import VerifiedBoot.Bytes

namespace VerifiedBoot
namespace Text

def decimal (n : Nat) : String := String.ofList (Nat.toDigits 10 n)

/-- The hexadecimal numeral of a number, without a mark in front. -/
def hexDigits (n : Nat) : String := String.ofList (Nat.toDigits 16 n)

/-- The hexadecimal numeral of a number after `0x`. -/
def hexNumber (n : Nat) : String := "0x" ++ hexDigits n

def octal (n : Nat) : String := String.ofList (Nat.toDigits 8 n)

/-- The text with copies of `c` in front of it up to `width` characters. -/
def padLeft (width : Nat) (c : Char) (s : String) : String :=
  String.ofList (List.replicate (width - s.length) c) ++ s

/-- The text with blanks after it up to `width` characters. -/
def padRight (width : Nat) (s : String) : String :=
  s ++ String.ofList (List.replicate (width - s.length) ' ')

/-- The eight hexadecimal digits of a 32-bit number after `0x`. -/
def hexWord (n : Nat) : String := "0x" ++ padLeft 8 '0' (hexDigits n)

/-- The number that a decimal or hexadecimal digit stands for. -/
def digitValue? (c : Char) : Option Nat :=
  if '0' ≤ c ∧ c ≤ '9' then some (c.toNat - '0'.toNat)
  else if 'a' ≤ c ∧ c ≤ 'f' then some (c.toNat - 'a'.toNat + 10)
  else if 'A' ≤ c ∧ c ≤ 'F' then some (c.toNat - 'A'.toNat + 10)
  else none

/-- Whether a character is a digit in a base up to sixteen. -/
def isDigitIn (base : Nat) (c : Char) : Bool := (digitValue? c).any (· < base)

def ofDigits (base : Nat) (digits : List Char) : Nat :=
  digits.foldl (fun n c => base * n + (digitValue? c).getD 0) 0

def hexBytes (bs : Bytes) : String :=
  String.ofList (bs.flatMap fun b => [Nat.digitChar (b.toNat / 16), Nat.digitChar (b.toNat % 16)])

end Text
end VerifiedBoot
