/-
Options on a command line. An option is given by a word after two dashes or by a letter after one,
and may take a value, which is the rest of its argument or the next argument. No option may be given
twice, and an argument that looks like an option is never a value.
-/
import VerifiedBoot.Text.Number

namespace VerifiedBoot
namespace Command

/-- How an option can be given. -/
structure OptionForm where
  /-- The key under which it is found later. -/
  key : String
  /-- The word after two dashes. -/
  word : Option String
  /-- The letter after one dash. -/
  letter : Option Char
  takesValue : Bool
deriving DecidableEq, Repr

namespace OptionForm

def valued (word : String) (letter : Option Char) : OptionForm := ⟨word, some word, letter, true⟩

def switch (word : String) : OptionForm := ⟨word, some word, none, false⟩

/-- An option without a value that only has a letter. -/
def letterSwitch (key : String) (letter : Char) : OptionForm := ⟨key, none, some letter, false⟩

end OptionForm

/-- The options that are given, with their values. Those that take none have an empty one. -/
abbrev Given := List (String × String)

namespace Given

/-- Adds an option, unless it is there already. -/
def add (given : Given) (form : OptionForm) (value : String) : Option Given :=
  if (given.lookup form.key).isSome then none else some (given ++ [(form.key, value)])

def has (given : Given) (key : String) : Bool := (given.lookup key).isSome

end Given

/-! ## Reading arguments -/

/-- What an argument looks like. -/
inductive Argument where
  /-- Two dashes, after which there are no options. -/
  | stop
  /-- A word after two dashes, and what stands after an equals sign. -/
  | word (word : String) (value : Option String)
  /-- Letters after one dash. -/
  | letters (letters : List Char)
  | plain (text : String)
deriving DecidableEq, Repr

/-- What stands before and after the first equals sign. -/
def splitAtEquals (cs : List Char) : String × Option String :=
  match cs.dropWhile (· != '=') with
  | _ :: value => (String.ofList (cs.takeWhile (· != '=')), some (String.ofList value))
  | [] => (String.ofList cs, none)

def Argument.ofText (text : String) : Argument :=
  match text.toList with
  | ['-', '-'] => .stop
  | '-' :: '-' :: cs => .word (splitAtEquals cs).1 (splitAtEquals cs).2
  | '-' :: c :: cs => .letters (c :: cs)
  | _ => .plain text

/-- Whether an argument can be the value of the option before it. -/
def isValue (text : String) : Bool :=
  match Argument.ofText text with
  | .plain _ => true
  | _ => false

/-- Reads letters after one dash. The last may stand for an option whose value is still to come. -/
def readLetters (forms : List OptionForm) :
    List Char → Given → Option (Given × Option OptionForm)
  | [], given => some (given, none)
  | c :: cs, given => do
    let form ← forms.find? (·.letter == some c)
    if form.takesValue then
      match cs with
      | [] => return (given, some form)
      | '=' :: value | value => return (← given.add form (String.ofList value), none)
    else
      readLetters forms cs (← given.add form "")

/-- Reads a word after two dashes. Its value may still be to come. -/
def readWord (forms : List OptionForm) (word : String) (value : Option String) (given : Given) :
    Option (Given × Option OptionForm) := do
  let form ← forms.find? (·.word == some word)
  match form.takesValue, value with
  | true, some value => return (← given.add form value, none)
  | true, none => return (given, some form)
  | false, none => return (← given.add form "", none)
  | false, some _ => failure

/-- Reads options up to the first argument that is none, while `waiting` waits for its value. -/
def readOptions (forms : List OptionForm) :
    List String → Option OptionForm → Given → Option (Given × List String)
  | [], none, given => some (given, [])
  | [], some _, _ => none
  | text :: rest, some form, given =>
    if isValue text then (given.add form text).bind (readOptions forms rest none) else none
  | text :: rest, none, given =>
    match Argument.ofText text with
    | .stop => if rest.isEmpty then some (given, []) else none
    | .plain _ => some (given, text :: rest)
    | .letters cs =>
      (readLetters forms cs given).bind fun (given, waiting) => readOptions forms rest waiting given
    | .word word value =>
      (readWord forms word value given).bind fun (given, waiting) =>
        readOptions forms rest waiting given

/-! ## Values -/

/-- A number below a bound: decimal, or hexadecimal after `0x`. A plus sign may stand in front of
the digits. -/
def number? (bound : Nat) (text : String) : Option Nat :=
  let (base, digits) :=
    match text.toList with
    | '0' :: 'x' :: cs | '0' :: 'X' :: cs => (16, cs)
    | cs => (10, cs)
  let digits := match digits with
    | '+' :: cs => cs
    | cs => cs
  let n := Text.ofDigits base digits
  if !digits.isEmpty && digits.all (Text.isDigitIn base) && n < bound then some n else none

namespace Given

/-- The number under a key, if the option is given; no result if it is given but no number. -/
def number? (given : Given) (bound : Nat) (key : String) : Option (Option Nat) :=
  match given.lookup key with
  | none => some none
  | some text => (Command.number? bound text).map some

def word16? (given : Given) (key : String) : Option (Option UInt16) :=
  (given.number? word16Bound key).map (·.map UInt16.ofNat)

def word32? (given : Given) (key : String) : Option (Option UInt32) :=
  (given.number? word32Bound key).map (·.map UInt32.ofNat)

def word64? (given : Given) (key : String) : Option (Option UInt64) :=
  (given.number? sizeBound key).map (·.map UInt64.ofNat)

end Given
end Command
end VerifiedBoot
