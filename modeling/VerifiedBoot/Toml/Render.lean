/-
Writing TOML. A document is written as a series of tables, with an empty line between two of them.
A table is a header and a line for each of its settings, which are texts and integers.
-/
import VerifiedBoot.Toml.Quoted
import VerifiedBoot.Toml.Scalar

namespace VerifiedBoot
namespace Toml

/-- A value to write. -/
inductive Setting where
  | text (text : String)
  | number (n : Nat)
deriving DecidableEq, Repr

/-- A value as it is written, if it can be. -/
def Setting.render? : Setting → Option (List Char)
  | .text s => some (Quoted.encode s.toList)
  | .number n => if n ≤ Scalar.maxInteger then some (Nat.toDigits 10 n) else none

/-- A table to write: its name, and its settings with their keys. -/
structure SettingTable where
  name : String
  settings : List (String × Setting)
deriving DecidableEq, Repr

namespace SettingTable

def renderSettings? : List (String × Setting) → Option (List Char)
  | [] => some []
  | (key, setting) :: rest => do
    return key.toList ++ [' ', '=', ' '] ++ (← setting.render?) ++ '\n' :: (← renderSettings? rest)

def render? (t : SettingTable) : Option (List Char) := do
  return '[' :: t.name.toList ++ [']', '\n'] ++ (← renderSettings? t.settings)

/-- Tables with an empty line between two of them. -/
def renderAll? : List SettingTable → Option (List Char)
  | [] => some []
  | [t] => t.render?
  | t :: rest => do return (← t.render?) ++ '\n' :: (← renderAll? rest)

end SettingTable
end Toml
end VerifiedBoot
