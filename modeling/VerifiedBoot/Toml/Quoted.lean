/-
Quoted text in TOML. There are four forms: with double or single quotes, on one line or on several.
Double quotes allow escapes, single quotes take every character as it is. Writing chooses the
plainest form that can hold the text, and reading understands all four.
-/
import VerifiedBoot.Text.Number
import VerifiedBoot.Toml.Scan

namespace VerifiedBoot
namespace Toml
namespace Quoted

/-! ## Writing -/

/-- The forms of quoted text. -/
inductive Form where
  | basic
  | literal
  | basicLines
  | literalLines
deriving DecidableEq, Repr

/-- The length of the longest run of `c`, after `run` of them and with `best` as the longest. -/
def longestRunFrom (c : Char) : Nat → Nat → List Char → Nat
  | best, _, [] => best
  | best, run, x :: xs =>
    if x = c then longestRunFrom c (max best (run + 1)) (run + 1) xs
    else longestRunFrom c best 0 xs

/-- The length of the longest run of `c`. -/
def longestRun (c : Char) (text : List Char) : Nat := longestRunFrom c 0 0 text

/-- Control characters that no form but an escape can hold. -/
def isControl (c : Char) : Bool := (c.toNat < 0x20 && c != '\t' && c != '\n') || c.toNat == 0x7f

def formFor (text : List Char) : Form :=
  let escapes := text.any isControl
  let backslashes := text.contains '\\'
  let lines := text.contains '\n'
  if !escapes && !backslashes && !lines && longestRun '"' text == 0 then .basic
  else if !escapes && !lines && longestRun '\'' text == 0 then .literal
  else if !escapes && !backslashes && longestRun '"' text ≤ 2 then .basicLines
  else if !escapes && longestRun '\'' text ≤ 2 then .literalLines
  else if lines then .basicLines
  else .basic

/-- A character between double quotes, other than the quote and the line feed. -/
def escapeChar (c : Char) : List Char :=
  if c = '\\' then ['\\', '\\']
  else if c = '\t' then ['\\', 't']
  else if c = '\r' then ['\\', 'r']
  else if c = '\x08' then ['\\', 'b']
  else if c = '\x0c' then ['\\', 'f']
  else if c.toNat < 0x20 ∨ c.toNat = 0x7f then
    ['\\', 'u', '0', '0', Nat.digitChar (c.toNat / 16), (Nat.digitChar (c.toNat % 16)).toUpper]
  else [c]

def escapeLine (text : List Char) : List Char :=
  text.flatMap fun c =>
    if c = '"' then ['\\', '"'] else if c = '\n' then ['\\', 'n'] else escapeChar c

/-- A text between double quotes on several lines, after `run` quotes without an escape. A third
quote in a row is escaped, so that the text is not closed early. -/
def escapeLines : Nat → List Char → List Char
  | _, [] => []
  | run, c :: cs =>
    if c = '"' then
      if run < 2 then '"' :: escapeLines (run + 1) cs else '\\' :: '"' :: escapeLines 0 cs
    else if c = '\n' then '\n' :: escapeLines 0 cs
    else escapeChar c ++ escapeLines 0 cs

/-- The line feed after opening quotes, which does not belong to the text. -/
def openingLine (text : List Char) : List Char := if text.contains '\n' then ['\n'] else []

def encode (text : List Char) : List Char :=
  match formFor text with
  | .basic => '"' :: escapeLine text ++ ['"']
  | .literal => '\'' :: text ++ ['\'']
  | .basicLines => ['"', '"', '"'] ++ openingLine text ++ escapeLines 0 text ++ ['"', '"', '"']
  | .literalLines => ['\'', '\'', '\''] ++ openingLine text ++ text ++ ['\'', '\'', '\'']

/-! ## Reading -/

open Scan

/-- The character with a number of `n` hexadecimal digits. -/
def codePoint (n : Nat) : Scan Char := do
  let code := Text.ofDigits 16 (← exactly n (Text.isDigitIn 16))
  if code.isValidChar then return Char.ofNat code else failure

def escaped : Scan Char := do
  char '\\'
  match ← satisfy fun _ => true with
  | 'b' => return '\x08'
  | 'f' => return '\x0c'
  | 'n' => return '\n'
  | 'r' => return '\r'
  | 't' => return '\t'
  | '\\' => return '\\'
  | '"' => return '"'
  | 'u' => codePoint 4
  | 'U' => codePoint 8
  | _ => failure

def basicChar : Scan Char := satisfy (fun c => isPlain c && c != '"' && c != '\\') <|> escaped

def basic : Scan (List Char) := do
  char '"'
  let text ← many basicChar
  char '"'
  return text

def literal : Scan (List Char) := do
  char '\''
  let text ← takeWhile fun c => isPlain c && c != '\''
  char '\''
  return text

/-- Quotes in text on several lines, which three of them would close. -/
def loneQuote (quote : Char) : Scan Char := fun cs =>
  if [quote, quote, quote].isPrefixOf cs then none else satisfy (· == quote) cs

/-- A line end in text on several lines, which counts as a line feed. -/
def innerNewline : Scan Char := do
  newline
  return '\n'

/-- An escaped line end, and the blanks and line ends after it. -/
def joinedLine : Scan Unit := do
  char '\\'
  blanks
  newline
  discard (many (discard (satisfy isBlank) <|> newline))

/-- A part of text between double quotes on several lines. -/
def basicPart : Scan (List Char) :=
  (do joinedLine; return []) <|>
  (do return [← basicChar <|> innerNewline <|> loneQuote '"'])

/-- A character of text between single quotes on several lines. -/
def literalPart : Scan Char :=
  satisfy (fun c => isPlain c && c != '\'') <|> innerNewline <|> loneQuote '\''

/-- The quotes that close text on several lines. Up to two more in front of them belong to the
text. -/
def closing (quote : Char) : Scan (List Char) := do
  word [quote, quote, quote]
  let more ← opt (char quote)
  let evenMore ← if more.isSome then opt (char quote) else pure none
  return List.replicate (more.toList.length + evenMore.toList.length) quote

def basicLines : Scan (List Char) := do
  word ['"', '"', '"']
  discard (opt newline)
  let parts ← many basicPart
  return parts.flatten ++ (← closing '"')

def literalLines : Scan (List Char) := do
  word ['\'', '\'', '\'']
  discard (opt newline)
  let text ← many literalPart
  return text ++ (← closing '\'')

def line : Scan (List Char) := basic <|> literal

def decode : Scan (List Char) := basicLines <|> literalLines <|> line

end Quoted
end Toml
end VerifiedBoot
