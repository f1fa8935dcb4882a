/-
Numbers, dates and times in TOML. Integers are decimal with an optional sign, or hexadecimal, octal
or binary after a mark; single underscores may stand between digits. They have 64 bits and a sign.
Fractions must not exceed the range of a 64-bit float.
-/
import VerifiedBoot.Text.Number
import VerifiedBoot.Toml.Scan
import VerifiedBoot.Toml.Value

namespace VerifiedBoot
namespace Toml
namespace Scalar

open Scan Text

/-! ## Integers -/

def maxInteger : Nat := 0x7fffffffffffffff

/-- Digits of a base, with single underscores between them. -/
def digits (base : Nat) : Scan (List Char) := do
  let first ← satisfy (isDigitIn base)
  let more ← many (satisfy (isDigitIn base) <|> (do char '_'; satisfy (isDigitIn base)))
  return first :: more

/-- Whether a number is negative; an optional sign says so. -/
def sign : Scan Bool :=
  (do char '-'; return true) <|> (do char '+'; return false) <|> pure false

/-- The digits of a decimal number, which starts with a zero only if it is zero. -/
def decimalDigits : Scan (List Char) := fun
  | '0' :: rest => some (['0'], rest)
  | cs => digits 10 cs

/-- The value of an integer, if it has one. -/
def integerValue? (negative : Bool) (n : Nat) : Option Int :=
  if negative then
    if n ≤ maxInteger + 1 then some (-(n : Int)) else none
  else if n ≤ maxInteger then some n
  else none

def basedInteger (mark : List Char) (base : Nat) : Scan Int := do
  word mark
  let ds ← digits base
  integerValue? false (ofDigits base ds)

def decimalInteger : Scan Int := do
  let negative ← sign
  let ds ← decimalDigits
  integerValue? negative (ofDigits 10 ds)

def integer : Scan Int :=
  basedInteger ['0', 'x'] 16 <|> basedInteger ['0', 'o'] 8 <|> basedInteger ['0', 'b'] 2 <|>
    decimalInteger

/-! ## Fractions -/

/-- Half way from the largest 64-bit float to the next power of two. Numbers from here on have no
float. -/
def floatBound : Nat := 0x3fffffffffffff <<< 970

/-- Whether `n` times the power `e` of ten reaches the bound. Numbers with more than 400 digits do,
without looking further. -/
def exceedsFloat (n : Nat) (e : Int) : Bool :=
  let size := ((Nat.toDigits 10 n).length : Int) + e
  if n = 0 ∨ size < 300 then false
  else if size > 400 then true
  else floatBound * Nat.pow 10 (-e).toNat ≤ n * Nat.pow 10 e.toNat

def exponent : Scan Int := do
  discard (satisfy fun c => c == 'e' || c == 'E')
  let negative ← sign
  let n := ofDigits 10 (← digits 10)
  return if negative then -(n : Int) else n

/-- A decimal number with a fraction, an exponent, or both. -/
def decimalFraction : Scan Value := do
  let negative ← sign
  let whole ← decimalDigits
  let fraction ← opt (do char '.'; digits 10)
  let power ← if fraction.isSome then opt exponent else some <$> exponent
  let places := fraction.getD []
  if !negative && exceedsFloat (ofDigits 10 (whole ++ places)) (power.getD 0 - places.length) then
    failure
  return .float

/-- An infinity, or no number. -/
def specialFloat : Scan Value := do
  discard sign
  word ['i', 'n', 'f'] <|> word ['n', 'a', 'n']
  return .float

/-! ## Dates and times -/

/-- A number of `n` digits, between two bounds. -/
def field (n least greatest : Nat) : Scan Nat := do
  let value := ofDigits 10 (← exactly n (isDigitIn 10))
  if least ≤ value ∧ value ≤ greatest then return value else failure

def daysIn (year month : Nat) : Nat :=
  if month = 2 then
    if year % 4 = 0 ∧ (year % 100 ≠ 0 ∨ year % 400 = 0) then 29 else 28
  else if month ∈ [4, 6, 9, 11] then 30
  else 31

def date : Scan Unit := do
  let year ← field 4 0 9999
  char '-'
  let month ← field 2 1 12
  char '-'
  discard (field 2 1 (daysIn year month))

def time : Scan Unit := do
  discard (field 2 0 23)
  char ':'
  discard (field 2 0 59)
  char ':'
  discard (field 2 0 60)
  discard (opt (do char '.'; discard (satisfy (isDigitIn 10)); takeWhile (isDigitIn 10)))

def timeOffset : Scan Unit :=
  discard (satisfy fun c => c == 'Z' || c == 'z') <|> do
    discard (satisfy fun c => c == '+' || c == '-')
    discard (field 2 0 23)
    char ':'
    discard (field 2 0 59)

/-- A date, a time, or both. -/
def dateTime : Scan Value := do
  (do
    date
    discard (opt do
      discard (satisfy fun c => c == 'T' || c == 't' || c == ' ')
      time
      opt timeOffset)) <|> time
  return .dateTime

/-! ## All of them -/

def boolean : Scan Value :=
  (do word ['t', 'r', 'u', 'e']; return .boolean true) <|>
  (do word ['f', 'a', 'l', 's', 'e']; return .boolean false)

/-- A truth value, date, time or number. -/
def scalar : Scan Value :=
  boolean <|> dateTime <|> decimalFraction <|> specialFloat <|> (.integer <$> integer)

end Scalar
end Toml
end VerifiedBoot
