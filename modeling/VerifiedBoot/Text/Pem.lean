/-
PEM text: base64 between a line that begins and a line that ends it. Reading takes the part after
the first beginning mark, up to a second one if there is one, and requires an ending mark in it.
-/
import VerifiedBoot.Text.Base64

namespace VerifiedBoot
namespace Pem

def beginMark (label : String) : List Char := ("-----BEGIN " ++ label ++ "-----").toList

def endMark (label : String) : List Char := ("-----END " ++ label ++ "-----").toList

/-- The texts before and after the first occurrence of a mark. -/
def splitAtMark (mark : List Char) : List Char → Option (List Char × List Char)
  | [] => if mark.isEmpty then some ([], []) else none
  | c :: cs =>
    if mark.isPrefixOf (c :: cs) then some ([], (c :: cs).drop mark.length)
    else (splitAtMark mark cs).map fun (before, after) => (c :: before, after)

/-- The text before the first occurrence of a mark, or all of it. -/
def beforeMark (mark cs : List Char) : List Char :=
  match splitAtMark mark cs with
  | some (before, _) => before
  | none => cs

def decode (label : String) (cs : List Char) : Option Bytes := do
  let (_, after) ← splitAtMark (beginMark label) cs
  let (digits, _) ← splitAtMark (endMark label) (beforeMark (beginMark label) after)
  Base64.decode digits

def encode (label : String) (bs : Bytes) : List Char :=
  beginMark label ++ '\n' :: Base64.encode bs ++ '\n' :: endMark label ++ ['\n']

end Pem
end VerifiedBoot
